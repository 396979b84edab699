import BlockRelay.Cache.Store

/-!
# The store in memory

Entries with deadlines in a map. An entry whose deadline has come is no longer found; it is
dropped when a read comes across it, and all such entries are dropped in a sweep after every
256th write. Reads and sweeps are made of the steps that other calls may come between: a read
looks first and drops afterwards, and only what is expired at the time it looked.

Main statements: what a write put is found (`find?_insert_self`), and other keys keep what they had
(`find?_insert_of_ne`).
-/

namespace BlockRelay

/-- A stored value and the time from which it is gone. -/
structure StoredValue where
  bytes : Bytes
  expiresAt : Span
deriving DecidableEq

/-- The number of writes after which expired entries are swept. -/
def sweepEvery : UInt64 := 256

/-- A store in memory: its entries, one for a key, and the number of writes. -/
structure MemoryStore where
  entries : List (String × StoredValue)
  /-- The number of writes since the store was made, modulo `2 ^ 64`. -/
  writes : UInt64
deriving DecidableEq

/-- What a look at a key shows. -/
inductive Sighting where
  /-- A value that has not expired. -/
  | fresh (bytes : Bytes)
  | expired
  | missing
deriving DecidableEq

/-- The last moment that a clock can show, in nanoseconds: its seconds are a signed number of
64 bits. -/
def lastMoment : Span := ⟨0x8000000000000000 * 1000000000 - 1⟩

/-- The deadline of a value written now, if the clock can show it. -/
def deadline? (now ttl : Span) : Option Span :=
  if now + ttl ≤ lastMoment then some (now + ttl) else none

namespace MemoryStore

/-- A store without entries. -/
def empty : MemoryStore := ⟨[], 0⟩

instance : Inhabited MemoryStore := ⟨empty⟩

/-- The entry of a key, expired or not. -/
def find? (m : MemoryStore) (key : String) : Option StoredValue :=
  (m.entries.find? fun e => e.1 = key).map (·.2)

/-- The number of entries, expired or not. -/
def size (m : MemoryStore) : Nat := m.entries.length

/-! ### Steps -/

/-- Looks at a key. -/
def lookup (m : MemoryStore) (key : String) (now : Span) : Sighting :=
  match m.find? key with
  | none => .missing
  | some v => if now < v.expiresAt then .fresh v.bytes else .expired

/-- Drops the entry of a key if it is expired at a given time. -/
def dropExpired (m : MemoryStore) (key : String) (now : Span) : MemoryStore :=
  { m with entries := m.entries.filter fun e => !(e.1 = key && e.2.expiresAt ≤ now) }

/-- Puts an entry in the place of any entry of its key. -/
def insert (m : MemoryStore) (key : String) (v : StoredValue) : MemoryStore :=
  { m with entries := (key, v) :: m.entries.filter fun e => e.1 ≠ key }

/-- Counts a write. -/
def countWrite (m : MemoryStore) : MemoryStore := { m with writes := m.writes + 1 }

/-- Drops every entry that is expired at a given time. -/
def sweep (m : MemoryStore) (now : Span) : MemoryStore :=
  { m with entries := m.entries.filter fun e => now < e.2.expiresAt }

/-! ### Calls -/

/-- Drops every expired entry, and says how many there were. -/
def purge (m : MemoryStore) (now : Span) : Nat × MemoryStore :=
  let swept := m.sweep now
  (m.size - swept.size, swept)

/-- **Writes a value.** Nothing if the clock cannot show its deadline. -/
def set? (m : MemoryStore) (now : Span) (key : String) (value : Bytes) (ttl : Span) :
    Option MemoryStore :=
  (deadline? now ttl).map fun expiresAt =>
    let written := (m.insert key ⟨value, expiresAt⟩).countWrite
    -- the count may wrap: its range is a multiple of the interval
    if written.writes % sweepEvery = 0 then written.sweep now else written

/-- **Reads a value,** and drops it if it is expired. -/
def get (m : MemoryStore) (now : Span) (key : String) : Option Bytes × MemoryStore :=
  match m.lookup key now with
  | .fresh bytes => (some bytes, m)
  | .expired => (none, m.dropExpired key now)
  | .missing => (none, m)

/-- Drops everything; the number of writes stays. -/
def clear (m : MemoryStore) : MemoryStore := { m with entries := [] }

/-- What a call does. -/
def act (m : MemoryStore) (now : Span) : StoreCall → Option (StoreAnswer × MemoryStore)
  | .set key value ttl => (m.set? now key value ttl).map fun m => (.ok none, m)
  | .get key => let (found, m) := m.get now key; some (.ok found, m)
  | .clear => some (.ok none, m.clear)

/-- The store as a service that answers at once. -/
def service : StoreService MemoryStore where
  delay _ _ := some ⟨0⟩
  act := act

/-- What was put is found. -/
theorem find?_insert_self (m : MemoryStore) (key : String) (v : StoredValue) :
    (m.insert key v).find? key = some v := by
  simp [find?, insert]

/-- Other keys keep what they had. -/
theorem find?_insert_of_ne (m : MemoryStore) {key other : String} (v : StoredValue)
    (h : other ≠ key) : (m.insert key v).find? other = m.find? other := by
  have hk : ¬ key = other := fun e => h e.symm
  simp only [find?, insert, List.find?_cons, hk, decide_false, List.find?_filter]
  congr 2
  funext e
  by_cases he : e.1 = other <;> simp [he, h]

end MemoryStore

end BlockRelay
