import BlockRelay.Proofs.Cache.Steps

/-!
# Overlapping calls of the store in memory

`BusyStore` is a store with any number of calls under way, each at a phase of its own, and
`BusyRun` is any sequence of steps that are possible one after the other.

What a read has to find is said in terms of the events alone: `lastInserted?` is what was inserted
last under a key and not erased since, whatever reads and sweeps did meanwhile, and `HeldSince`
says that this has been one and the same value since a read began. Main statements:

* `Shows` and `CallHolds` are the invariant of runs. Every entry is the one that was inserted last,
  and what was inserted last is there until its deadline. Readings of the clock are never ahead of
  it, which is why a late drop takes nothing that is still fresh (`Serves.spares`).
* `Serves.step` keeps the invariant, with one case for each move of a call.
* `BusyRun.get_reply_eq` draws the conclusions for what is dropped and what reads return.
-/

namespace BlockRelay

/-! ### Runs -/

/-- A step of one of any number of calls, or the passing of time. -/
inductive StoreEvent where
  | advance (by_ : Span)
  | call (id : Nat) (step : CallStep)

namespace StoreEvent

/-- Whether an event may drop an entry that is still fresh, or put another one in its place. -/
def replaces : StoreEvent → Bool
  | .advance _ => false
  | .call _ step => step.replaces

def isOf (id : Nat) : StoreEvent → Prop
  | .advance _ => False
  | .call i _ => i = id

def beginsGet (id : Nat) : StoreEvent → Prop
  | .call i (.beginGet _) => i = id
  | _ => False

theorem isOf_of_beginsGet {id : Nat} {e : StoreEvent} (h : e.beginsGet id) : e.isOf id := by
  unfold beginsGet at h
  split at h
  · exact h
  · exact h.elim

end StoreEvent

/-- A store with calls under way. -/
structure BusyStore where
  now : Span
  store : MemoryStore
  phase : Nat → CallPhase

namespace BusyStore

/-- A call comes to a phase, with what it has done to the store. -/
def move (s : BusyStore) (id : Nat) (store : MemoryStore) (phase : CallPhase) : BusyStore :=
  { s with store, phase := fun i => if i = id then phase else s.phase i }

/-- **One step,** if it is possible. -/
def step? (s : BusyStore) : StoreEvent → Option (BusyStore × CallReply)
  | .advance by_ => some ({ s with now := s.now + by_ }, .nothing)
  | .call id step =>
    ((s.phase id).step? s.now s.store step).map fun (store, phase, reply) =>
      (s.move id store phase, reply)

theorem move_self (s : BusyStore) (id : Nat) (store : MemoryStore) (phase : CallPhase) :
    (s.move id store phase).phase id = phase := if_pos rfl

theorem move_of_ne (s : BusyStore) {id other : Nat} (store : MemoryStore) (phase : CallPhase)
    (h : other ≠ id) : (s.move id store phase).phase other = s.phase other := if_neg h

/-- A step of a call changes the store and the phase of that call, and nothing else. -/
theorem step?_call {s s' : BusyStore} {id : Nat} {step : CallStep} {reply : CallReply}
    (next : s.step? (.call id step) = some (s', reply)) :
    ∃ store phase, (s.phase id).step? s.now s.store step = some (store, phase, reply) ∧
      s' = s.move id store phase := by
  obtain ⟨⟨store, phase, _⟩, taken, told⟩ := Option.map_eq_some_iff.1 next
  cases told
  exact ⟨store, phase, taken, rfl⟩

end BusyStore

/-- **The runs** from a store at a time: sequences of possible steps, with the last step first. -/
inductive BusyRun (start : Span) (m : MemoryStore) : List StoreEvent → BusyStore → Prop where
  | start : BusyRun start m [] ⟨start, m, fun _ => .idle⟩
  | step {history : List StoreEvent} {s s' : BusyStore} {e : StoreEvent} {reply : CallReply}
      (run : BusyRun start m history s) (next : s.step? e = some (s', reply)) :
    BusyRun start m (e :: history) s'

/-! ### What must be found -/

def clockAfter (start : Span) : List StoreEvent → Span
  | [] => start
  | .advance by_ :: earlier => clockAfter start earlier + by_
  | .call _ _ :: earlier => clockAfter start earlier

/-- What a write is about to insert: its value, with the deadline by the clock when it began. -/
def formed? (start : Span) (id : Nat) : List StoreEvent → Option (String × StoredValue)
  | [] => none
  | e :: earlier =>
    match e with
    | .call i (.beginSet key value ttl) =>
      if i = id then
        (deadline? (clockAfter start earlier) ttl).map fun expiresAt => (key, ⟨value, expiresAt⟩)
      else formed? start id earlier
    | _ => formed? start id earlier

/-- **What was inserted last under a key** and not erased since, in a run from a store. Reads,
sweeps and the clock play no part in it. -/
def lastInserted? (start : Span) (m : MemoryStore) (key : String) :
    List StoreEvent → Option StoredValue
  | [] => m.find? key
  | e :: earlier =>
    match e with
    | .call id .insert =>
      match formed? start id earlier with
      | some (k, v) => if k = key then some v else lastInserted? start m key earlier
      | none => lastInserted? start m key earlier
    | .call _ (.erase k) => if k = key then none else lastInserted? start m key earlier
    | _ => lastInserted? start m key earlier

/-- Since a read began, what was inserted last under a key has been one and the same value. -/
def HeldSince (start : Span) (m : MemoryStore) (key : String) (v : StoredValue) (id : Nat) :
    List StoreEvent → Prop
  | [] => False
  | e :: earlier =>
    lastInserted? start m key (e :: earlier) = some v ∧
      (e.beginsGet id ∨ HeldSince start m key v id earlier)

section Invariant

variable {start : Span} {m : MemoryStore} {history : List StoreEvent} {e : StoreEvent}

theorem clockAfter_le_cons (start : Span) (history : List StoreEvent) (e : StoreEvent) :
    clockAfter start history ≤ clockAfter start (e :: history) := by
  cases e with
  | advance by_ => exact Nat.le_add_right (clockAfter start history).nanos by_.nanos
  | call id step => exact Nat.le_refl (clockAfter start history).nanos

/-- An event that neither writes nor erases leaves what was written last. -/
theorem lastInserted?_of_quiet (quiet : e.replaces = false) (key : String) :
    lastInserted? start m key (e :: history) = lastInserted? start m key history := by
  cases e with
  | advance by_ => rfl
  | call id step =>
    cases step with
    | insert => cases quiet
    | erase k => cases quiet
    | _ => rfl

/-- What a call is about to write does not depend on the steps of others. -/
theorem formed?_of_not_isOf {id : Nat} (other : ¬ e.isOf id) :
    formed? start id (e :: history) = formed? start id history := by
  cases e with
  | advance by_ => rfl
  | call i step =>
    cases step with
    | beginSet key value ttl => exact if_neg other
    | _ => rfl

/-- What has been held since a call began is what was written last. -/
theorem HeldSince.lastInserted {key : String} {v : StoredValue} {id : Nat}
    (h : HeldSince start m key v id history) : lastInserted? start m key history = some v := by
  cases history with
  | nil => exact h.elim
  | cons e earlier => exact h.1

/-- A value that is held after an event with which the read did not begin was held before it. -/
theorem HeldSince.of_cons {key : String} {v : StoredValue} {id : Nat}
    (h : HeldSince start m key v id (e :: history)) (later : ¬ e.beginsGet id) :
    HeldSince start m key v id history := h.2.resolve_left later

namespace MemoryStore

/-- **What is gone from a store had expired,** and nothing has come instead. -/
def Spares (now : Span) (m m' : MemoryStore) : Prop :=
  ∀ key, m'.find? key = m.find? key ∨
    ∃ v, m.find? key = some v ∧ v.expiresAt ≤ now ∧ m'.find? key = none

theorem Spares.of_entries {now : Span} {m m' : MemoryStore} (h : m'.entries = m.entries) :
    Spares now m m' := by
  intro key
  rw [find?, find?, h]
  exact .inl rfl

/-- A drop may come late: it goes by a reading that is not ahead of the clock. -/
theorem Spares.dropExpired {now reading : Span} {m : MemoryStore} (h : m.Distinct)
    (hle : reading ≤ now) (key : String) : Spares now m (m.dropExpired key reading) := by
  intro other
  rw [dropExpired_eq, find?_restrict h]
  cases found : m.find? other with
  | none => exact .inl rfl
  | some v =>
    rw [Option.filter_some]
    dsimp only
    -- only the key in question can go, and only if it had expired when it was read
    by_cases gone : (decide (other = key) && decide (v.expiresAt ≤ reading)) = true
    · have late : v.expiresAt ≤ reading := of_decide_eq_true (Bool.and_eq_true_iff.1 gone).2
      rw [gone]
      exact .inr ⟨v, rfl, Span.le_trans late hle, rfl⟩
    · rw [Bool.not_eq_true] at gone
      rw [gone]
      exact .inl rfl

/-- Erasing a key removes that key. -/
theorem find?_erase {m : MemoryStore} (h : m.Distinct) (key other : String) :
    (m.erase key).find? other = if other = key then none else m.find? other := by
  rw [erase, find?_restrict h]
  by_cases same : other = key
  · rw [if_pos same]
    cases m.find? other <;> simp [same]
  · rw [if_neg same]
    cases m.find? other <;> simp [same]

end MemoryStore

/-- **A store shows what was inserted last.** What has expired it may have dropped. -/
structure Shows (start : Span) (m : MemoryStore) (history : List StoreEvent)
    (store : MemoryStore) : Prop where
  /-- A key has at most one entry. -/
  distinct : store.Distinct
  /-- An entry is the one that was inserted last. -/
  entry : ∀ key v, store.find? key = some v → lastInserted? start m key history = some v
  /-- What was inserted last is there until its deadline. -/
  kept : ∀ key v, lastInserted? start m key history = some v →
    clockAfter start history < v.expiresAt → store.find? key = some v

namespace Shows

variable {store store' : MemoryStore}

/-- Nothing is inserted or erased, and only what is expired is dropped. -/
theorem drop (h : Shows start m history store) (quiet : e.replaces = false)
    (distinct : store'.Distinct) (spares : store.Spares (clockAfter start history) store') :
    Shows start m (e :: history) store' where
  distinct := distinct
  entry key v found := by
    rw [lastInserted?_of_quiet quiet]
    rcases spares key with same | ⟨_, _, _, gone⟩
    · exact h.entry key v (same.symm.trans found)
    · rw [gone] at found
      cases found
  kept key v last fresh := by
    rw [lastInserted?_of_quiet quiet] at last
    -- what is fresh after the event was fresh before it
    have fresh : clockAfter start history < v.expiresAt :=
      Span.lt_of_le_of_lt (clockAfter_le_cons start history e) fresh
    have found := h.kept key v last fresh
    rcases spares key with same | ⟨w, was, late, _⟩
    · exact same.trans found
    · rw [found] at was
      cases was
      exact absurd fresh (Span.not_lt.2 late)

/-- The entry of a key is what is now inserted last, and other keys keep what they had. -/
theorem replace (h : Shows start m history store) {id : Nat} {step : CallStep} (key : String)
    (distinct : store'.Distinct)
    (self : store'.find? key = lastInserted? start m key (.call id step :: history))
    (others : ∀ other, other ≠ key → store'.find? other = store.find? other ∧
      lastInserted? start m other (.call id step :: history) =
        lastInserted? start m other history) :
    Shows start m (.call id step :: history) store' where
  distinct := distinct
  -- a step that touches one key shows what was written, there by `self` and elsewhere as before
  entry other v found := by
    by_cases same : other = key
    · subst same
      exact self.symm.trans found
    · obtain ⟨find, last⟩ := others other same
      exact last.trans (h.entry other v (find.symm.trans found))
  kept other v inserted fresh := by
    by_cases same : other = key
    · subst same
      exact self.trans inserted
    · obtain ⟨find, last⟩ := others other same
      exact find.trans (h.kept other v (last.symm.trans inserted) fresh)

/-- A write shows its value, which is now the last one under its key. -/
theorem insert (h : Shows start m history store) {id : Nat} {key : String} {v : StoredValue}
    (formed : formed? start id history = some (key, v)) :
    Shows start m (.call id .insert :: history) (store.insert key v) := by
  have last (other : String) : lastInserted? start m other (.call id .insert :: history) =
      if key = other then some v else lastInserted? start m other history := by
    rw [lastInserted?, formed]
  refine h.replace key (h.distinct.insert key v) ?_ fun other hne => ⟨?_, ?_⟩
  · rw [last, if_pos rfl, store.find?_insert_self]
  · exact store.find?_insert_of_ne v hne
  · rw [last, if_neg hne.symm]

theorem erase (h : Shows start m history store) (id : Nat) (key : String) :
    Shows start m (.call id (.erase key) :: history) (store.erase key) := by
  refine h.replace key (h.distinct.restrict _) ?_ fun other hne => ⟨?_, ?_⟩
  · rw [MemoryStore.find?_erase h.distinct, if_pos rfl]
    exact (if_pos rfl).symm
  · rw [MemoryStore.find?_erase h.distinct, if_neg hne]
  · exact if_neg hne.symm

end Shows

/-- **What a call holds** is what the events say: a reading that is not ahead of the clock, or the
value that it formed. What a read is about to drop was expired if it is the value that has been
there since the read began. -/
def CallHolds (start : Span) (m : MemoryStore) (history : List StoreEvent) (id : Nat) :
    CallPhase → Prop
  | .looking _ reading => reading ≤ clockAfter start history
  | .dropping key reading =>
    reading ≤ clockAfter start history ∧
      ∀ v, HeldSince start m key v id history → v.expiresAt ≤ reading
  | .writing key v => formed? start id history = some (key, v)
  | .sweeping reading _ _ => reading ≤ clockAfter start history
  | _ => True

/-- What a call holds is not touched by the events of others. -/
theorem CallHolds.cons {id : Nat} {phase : CallPhase} (h : CallHolds start m history id phase)
    (other : ¬ e.isOf id) : CallHolds start m (e :: history) id phase := by
  -- whatever a call remembers of the past stays in the past
  have clock := clockAfter_le_cons start history e
  cases phase with
  | looking key reading => exact Span.le_trans h clock
  | dropping key reading =>
    refine ⟨Span.le_trans h.1 clock, fun v held => h.2 v (held.of_cons ?_)⟩
    exact fun begins => other (StoreEvent.isOf_of_beginsGet begins)
  -- what it is about to write is its own business
  | writing key v => exact (formed?_of_not_isOf other).trans h
  | sweeping reading before behindWrite => exact Span.le_trans h clock
  | _ => trivial

/-- Of a call that does nothing there is nothing to hold. -/
theorem CallHolds.of_isFree {id : Nat} {phase : CallPhase} (free : phase.isFree = true) :
    CallHolds start m history id phase := by
  cases phase with
  | looking key reading => cases free
  | dropping key reading => cases free
  | writing key v => cases free
  | sweeping reading before behindWrite => cases free
  | _ => trivial

/-- **The invariant of runs.** -/
structure Serves (start : Span) (m : MemoryStore) (history : List StoreEvent) (s : BusyStore) :
    Prop where
  now_eq : s.now = clockAfter start history
  shows : Shows start m history s.store
  holds : ∀ id, CallHolds start m history id (s.phase id)

namespace Serves

variable {s s' : BusyStore} {reply : CallReply}

theorem initial (start : Span) (distinct : m.Distinct) :
    Serves start m [] ⟨start, m, fun _ => .idle⟩ where
  now_eq := rfl
  shows := { distinct, entry := fun _ _ found => found, kept := fun _ _ last _ => last }
  holds _ := trivial

/-- A step of one call keeps the invariant if it does so for the store and for this call. -/
theorem move (h : Serves start m history s) {id : Nat} {step : CallStep} {store : MemoryStore}
    {phase : CallPhase} (shown : Shows start m (.call id step :: history) store)
    (own : CallHolds start m (.call id step :: history) id phase) :
    Serves start m (.call id step :: history) (s.move id store phase) where
  now_eq := h.now_eq
  shows := shown
  -- the call that moved has its new duty, the others keep theirs
  holds other := by
    by_cases same : other = id
    · rw [same, s.move_self]
      exact own
    · rw [s.move_of_ne store phase same]
      exact (h.holds other).cons fun this => same this.symm

/-- A step of a call is a move of it, from a phase that holds what the events say. -/
theorem taken (h : Serves start m history s) {id : Nat} {step : CallStep}
    (next : s.step? (.call id step) = some (s', reply)) :
    ∃ phase store phase', CallPhase.Moves (clockAfter start history) s.store phase step store
        phase' ∧ CallHolds start m history id phase ∧ s' = s.move id store phase' := by
  obtain ⟨store, phase', stepped, moved⟩ := BusyStore.step?_call next
  rw [h.now_eq] at stepped
  exact ⟨s.phase id, store, phase', CallPhase.moves_of_step? stepped, h.holds id, moved⟩

/-- **Reads, sweeps and the clock take nothing that is fresh.** -/
theorem spares (h : Serves start m history s) (next : s.step? e = some (s', reply))
    (quiet : e.replaces = false) : s'.store.Distinct ∧ s.store.Spares s.now s'.store := by
  have distinct := h.shows.distinct
  rw [h.now_eq]
  cases e with
  | advance by_ =>
    cases next
    exact ⟨distinct, .of_entries rfl⟩
  | call id step =>
    obtain ⟨phase, store, phase', moves, held, rfl⟩ := h.taken next
    cases moves with
    -- the two drops go by a reading of the clock that may be old
    | dropsStale key reading => exact ⟨distinct.restrict _, .dropExpired distinct held.1 key⟩
    | tests reading size behindWrite key =>
      exact ⟨distinct.restrict _, .dropExpired distinct held key⟩
    | inserts key v => cases quiet
    | erases key => cases quiet
    | rests _ entries free =>
      refine ⟨?_, .of_entries entries⟩
      rw [MemoryStore.Distinct, BusyStore.move, entries]
      exact distinct
    | _ => exact ⟨distinct, .of_entries rfl⟩

/-- **Every step keeps the invariant.** -/
theorem step (h : Serves start m history s) (next : s.step? e = some (s', reply)) :
    Serves start m (e :: history) s' := by
  -- only an insertion and an erasure need a look at what they do to the entries
  have unharmed (quiet : e.replaces = false) : Shows start m (e :: history) s'.store := by
    obtain ⟨distinct, spares⟩ := h.spares next quiet
    exact h.shows.drop quiet distinct (h.now_eq ▸ spares)
  cases e with
  | advance by_ =>
    cases next
    exact ⟨congrArg (· + by_) h.now_eq, unharmed rfl, fun id => (h.holds id).cons fun no => no⟩
  | call id step =>
    obtain ⟨phase, store, phase', moves, held, rfl⟩ := h.taken next
    cases moves with
    | reads key => exact h.move (unharmed rfl) (Nat.le_refl _)
    | sweeps _ size behindWrite => exact h.move (unharmed rfl) (Nat.le_refl _)
    | findsExpired found late =>
      refine h.move (unharmed rfl) ⟨held, fun v since => ?_⟩
      -- the entry that was found is the value that has been there all along
      have last := (since.of_cons fun no => no).lastInserted
      have same := (h.shows.entry _ _ found).symm.trans last
      cases same
      exact late
    | dropsStale key reading => exact h.move (unharmed rfl) trivial
    | forms key value ttl expiresAt shown =>
      have formed : formed? start id (.call id (.beginSet key value ttl) :: history) =
          some (key, ⟨value, expiresAt⟩) := by
        rw [formed?, if_pos rfl, shown]
        rfl
      exact h.move (unharmed rfl) formed
    | inserts key v => exact h.move (h.shows.insert held) trivial
    | tests reading size behindWrite key => exact h.move (unharmed rfl) held
    | erases key => exact h.move (h.shows.erase id key) trivial
    | rests quiet entries free => exact h.move (unharmed quiet) (.of_isFree free)

/-- A look finds what was inserted last, while that is fresh, and never anything else. -/
theorem look (h : Serves start m history s) {id : Nat} {key : String} {reading : Span}
    (looking : s.phase id = .looking key reading) :
    ∃ s' reply, s.step? (.call id .look) = some (s', reply) ∧
      (∀ v, lastInserted? start m key history = some v → s.now < v.expiresAt →
        reply = .found (some v.bytes)) ∧
      ∀ bytes, reply = .found (some bytes) →
        ∃ v, lastInserted? start m key history = some v ∧ bytes = v.bytes := by
  have hle : reading ≤ s.now := by
    have held := h.holds id
    rw [looking] at held
    exact h.now_eq ▸ held
  have kept := h.shows.kept key
  have entry := h.shows.entry key
  rw [← h.now_eq] at kept
  rw [BusyStore.step?, looking, CallPhase.step?, MemoryStore.lookup]
  cases found : s.store.find? key with
  | none =>
    refine ⟨_, _, rfl, fun v last fresh => ?_, fun bytes told => by cases told⟩
    rw [kept v last fresh] at found
    cases found
  | some w =>
    dsimp only
    by_cases fresh : reading < w.expiresAt
    · rw [if_pos fresh]
      refine ⟨_, _, rfl, fun v last _ => ?_, fun bytes told => ?_⟩
      · -- the entry is the value that was inserted last
        rw [entry w found] at last
        cases last
        rfl
      · cases told
        exact ⟨w, entry w found, rfl⟩
    · rw [if_neg fresh]
      refine ⟨_, _, rfl, fun v last later => ?_, fun bytes told => by cases told⟩
      -- what is fresh now was fresh by an earlier reading
      rw [entry w found] at last
      cases last
      exact absurd (Span.lt_of_le_of_lt hle later) fresh

/-- A read that returns has found the value that was there from its beginning to its end. -/
theorem found_eq (h : Serves start m history s) {id : Nat} {step : CallStep} {key : String}
    {r : Option Bytes} (wanted : (s.phase id).wanted? = some key)
    (next : s.step? (.call id step) = some (s', .found r)) {v : StoredValue}
    (since : HeldSince start m key v id history) (fresh : s.now < v.expiresAt) :
    r = some v.bytes := by
  have held := h.holds id
  cases phase : s.phase id with
  | looking k reading =>
    rw [phase] at wanted
    cases wanted
    obtain ⟨s'', reply, looked, finds, -⟩ := h.look phase
    -- a look is the only step that this phase can take
    cases step with
    | look =>
      rw [looked] at next
      cases next
      cases finds v since.lastInserted fresh
      rfl
    | _ =>
      rw [BusyStore.step?, phase] at next
      cases next
  | dropping k reading =>
    rw [phase] at wanted held
    cases wanted
    -- what is about to be dropped had expired by a reading that is past
    have late : v.expiresAt ≤ s.now := h.now_eq ▸ Span.le_trans (held.2 v since) held.1
    exact absurd fresh (Span.not_lt.2 late)
  | _ =>
    rw [phase] at wanted
    cases wanted

end Serves

namespace BusyRun

variable {s : BusyStore}

/-- Every interleaving keeps the invariant. -/
theorem serves (distinct : m.Distinct) (run : BusyRun start m history s) :
    Serves start m history s := by
  induction run with
  | start => exact .initial start distinct
  | step _ next ih => exact ih.step next

/-- **Reads return what was inserted last, until its deadline.** After any run of overlapping
calls: a step that neither inserts nor erases takes an entry only if its deadline is not later
than the clock; a look can be taken, finds what was inserted last under its key if that has not
expired, and never finds anything else; and a read which ends while the value that was there when
it began is still there and has not expired returns it. -/
theorem get_reply_eq (distinct : m.Distinct) (run : BusyRun start m history s) :
    (∀ e s' reply, s.step? e = some (s', reply) → e.replaces = false →
      s.store.Spares s.now s'.store) ∧
    (∀ id key reading, s.phase id = .looking key reading →
      ∃ s' reply, s.step? (.call id .look) = some (s', reply) ∧
        (∀ v, lastInserted? start m key history = some v → s.now < v.expiresAt →
          reply = .found (some v.bytes)) ∧
        ∀ bytes, reply = .found (some bytes) →
          ∃ v, lastInserted? start m key history = some v ∧ bytes = v.bytes) ∧
    ∀ id step s' r key v, (s.phase id).wanted? = some key →
      s.step? (.call id step) = some (s', .found r) → HeldSince start m key v id history →
      s.now < v.expiresAt → r = some v.bytes := by
  -- the invariant of the run; each clause is read off it
  have serves := run.serves distinct
  refine ⟨?_, ?_, ?_⟩
  · intro e s' reply next quiet
    exact (serves.spares next quiet).2
  · intro id key reading looking
    exact serves.look looking
  · intro id step s' r key v wanted next since fresh
    exact serves.found_eq wanted next since fresh

/-- A store with one entry that is about to expire. -/
def expiring : MemoryStore := ⟨[("k", ⟨[1], ⟨5⟩⟩)], 0⟩

/-- Calls that cross, the last event first: a read finds the entry expired, a sweep begins, a
write puts a new entry in its place, and only then do the read and the sweep come to drop it;
meanwhile another read has begun, and time has passed. -/
def crossing : List StoreEvent :=
  [.advance ⟨9⟩, .call 2 (.test "k"), .call 3 (.beginGet "k"), .call 0 .dropStale, .call 1 .insert,
    .call 2 .beginSweep, .call 1 (.beginSet "k" [2] ⟨10⟩), .call 0 .look, .call 0 (.beginGet "k"),
    .advance ⟨5⟩]

/-- The other read still finds the new entry, a nanosecond before its deadline. -/
theorem get_reply_crossing :
    expiring.Distinct ∧ HeldSince ⟨0⟩ expiring "k" ⟨[2], ⟨15⟩⟩ 3 crossing ∧
      ∃ s, BusyRun ⟨0⟩ expiring crossing s ∧ s.now = ⟨14⟩ ∧
        ∃ s' r, s.step? (.call 3 .look) = some (s', .found r) ∧ r = some [2] := by
  have distinct : expiring.Distinct := List.nodup_singleton "k"
  have started : BusyRun ⟨0⟩ expiring [] ⟨⟨0⟩, expiring, fun _ => .idle⟩ := .start
  -- read 0 finds the old value expired at 5 and is about to drop it
  have stale := started.step (e := .advance ⟨5⟩) rfl
    |>.step (e := .call 0 (.beginGet "k")) rfl |>.step (e := .call 0 .look) rfl
  -- meanwhile call 1 writes the key anew, and call 2 begins a sweep
  have rewritten := stale.step (e := .call 1 (.beginSet "k" [2] ⟨10⟩)) rfl
    |>.step (e := .call 2 .beginSweep) rfl |>.step (e := .call 1 .insert) rfl
  -- the drop and the sweep test the deadline again, and spare the new value
  have dropped := rewritten.step (e := .call 0 .dropStale) rfl
    |>.step (e := .call 3 (.beginGet "k")) rfl |>.step (e := .call 2 (.test "k")) rfl
  have run := dropped.step (e := .advance ⟨9⟩) rfl
  have since : HeldSince ⟨0⟩ expiring "k" ⟨[2], ⟨15⟩⟩ 3 crossing :=
    ⟨rfl, .inr ⟨rfl, .inr ⟨rfl, .inl rfl⟩⟩⟩
  refine ⟨distinct, since, _, run, rfl, ?_⟩
  obtain ⟨-, look, returns⟩ := run.get_reply_eq distinct
  obtain ⟨s', reply, next, finds, -⟩ := look 3 "k" ⟨5⟩ rfl
  cases finds ⟨[2], ⟨15⟩⟩ rfl (by decide)
  exact ⟨s', _, next, returns 3 .look s' _ "k" ⟨[2], ⟨15⟩⟩ rfl next since (by decide)⟩

end BusyRun

end Invariant

end BlockRelay
