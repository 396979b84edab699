import BlockRelay.Proofs.Cache.Steps

/-!
# Housekeeping of the store in memory

Nobody has to read an entry for it to go: every 256th write is followed by a sweep, and anyone may
ask for one. Here the calls follow one another undisturbed, and time may pass between them
(`StoreOp`). `StoreCourse` is any such sequence from a store that is new.

What is to be held is said in terms of the sequence alone: `clock` is the time that it ends at,
`writes` counts its writes without ever wrapping, `last?` is what was written last under a key and
not cleared since, and `untilSweep?` cuts the sequence off behind the last write whose number calls
for a sweep. Main statements:

* `StoreStep` is what one operation does to the entries and to the counter, and
  `StoreStep.of_act?` says that it does so.
* `StoreCourse.Kept` is the invariant of courses: the counter is the number of writes modulo
  `2 ^ 64`, which leaves the number modulo 256 alone, and readers see what was written last.
* `SinceSweep` is what holds behind a sweep, and `SinceSweep.step` carries it on to the next one.
* `StoreCourse.housekeeping` draws the conclusions for what is held, for how much of it there is,
  and for what a purge says.
-/

namespace BlockRelay

/-! ### Courses -/

/-- A call of the store that nothing comes between, or the passing of time. -/
inductive StoreOp where
  | set (key : String) (value : Bytes) (ttl : Span)
  | get (key : String)
  | clear
  | purge
  | advance (by_ : Span)

namespace StoreOp

/-- **What an operation does,** and what it replies. Nothing if the clock cannot show the deadline
of a write. -/
def act? (w : StoreWorld MemoryStore) : StoreOp → Option (StoreWorld MemoryStore × CallReply)
  | .set key value ttl =>
    (w.store.set? w.now key value ttl).map fun store => (⟨w.now, store⟩, .stored)
  | .get key =>
    let (found, store) := w.store.get w.now key
    some (⟨w.now, store⟩, .found found)
  | .clear => some (⟨w.now, w.store.clear⟩, .cleared)
  | .purge =>
    let (count, store) := w.store.purge w.now
    some (⟨w.now, store⟩, .purged count)
  | .advance by_ => some (⟨w.now + by_, w.store⟩, .nothing)

/-- What an operation puts into the store at a time. -/
def entry? (now : Span) : StoreOp → Option (String × StoredValue)
  | .set key value ttl => some (key, ⟨value, now + ttl⟩)
  | _ => none

def isWrite : StoreOp → Bool
  | .set _ _ _ => true
  | _ => false

/-- How long an operation takes: the calls take no time. -/
def lasts : StoreOp → Span
  | .advance by_ => by_
  | _ => ⟨0⟩

/-- Only a write puts anything into the store. -/
theorem entry?_eq_some {now : Span} {op : StoreOp} {e : String × StoredValue}
    (h : op.entry? now = some e) :
    ∃ ttl, op = .set e.1 e.2.bytes ttl ∧ e.2.expiresAt = now + ttl := by
  unfold entry? at h
  split at h
  · cases h
    exact ⟨_, rfl, rfl⟩
  · cases h

end StoreOp

/-- **The courses** of a new store: sequences of operations, with the last one first. -/
inductive StoreCourse (start : Span) : List StoreOp → StoreWorld MemoryStore → Prop where
  | begin : StoreCourse start [] ⟨start, .empty⟩
  | step {history : List StoreOp} {w w' : StoreWorld MemoryStore} {op : StoreOp}
      {reply : CallReply} (course : StoreCourse start history w)
      (next : op.act? w = some (w', reply)) :
    StoreCourse start (op :: history) w'

/-! ### What is to be held -/

namespace StoreOp

/-- The time that a sequence ends at. -/
def clock (start : Span) : List StoreOp → Span
  | [] => start
  | op :: earlier => clock start earlier + op.lasts

/-- The number of writes. -/
def writes (history : List StoreOp) : Nat := history.countP isWrite

/-- **What was written last under a key** and not cleared since. Reads, purges and the clock play no
part in it. -/
def last? (start : Span) (key : String) : List StoreOp → Option StoredValue
  | [] => none
  | .set k value ttl :: earlier =>
    if k = key then some ⟨value, clock start earlier + ttl⟩ else last? start key earlier
  | .clear :: _ => none
  | _ :: earlier => last? start key earlier

/-- **The sequence up to the last write that was followed by a sweep:** one whose number is a
multiple of 256. -/
def untilSweep? : List StoreOp → Option (List StoreOp)
  | [] => none
  | op :: earlier =>
    if op.isWrite ∧ writes (op :: earlier) % 256 = 0 then some (op :: earlier)
    else untilSweep? earlier

theorem writes_cons (op : StoreOp) (history : List StoreOp) :
    writes (op :: history) = writes history + if op.isWrite then 1 else 0 := by
  unfold writes
  rw [List.countP_cons]

/-- Without a sweep the remainder of the number of writes goes on. -/
theorem writes_mod_cons {op : StoreOp} {history : List StoreOp}
    (early : ¬ (op.isWrite ∧ writes (op :: history) % 256 = 0)) :
    writes (op :: history) % 256 = writes history % 256 + if op.isWrite then 1 else 0 := by
  rw [writes_cons] at early ⊢
  cases write : op.isWrite with
  | false => rfl
  | true =>
    -- this write is not one that sweeps, so the remainder does not start again
    have counted : ¬ (writes history + 1) % 256 = 0 := fun due =>
      early ⟨write, by rw [write]; exact due⟩
    show (writes history + 1) % 256 = writes history % 256 + 1
    omega

/-- The clock does not go back. -/
theorem clock_le {start : Span} {earlier history : List StoreOp} (h : earlier <:+ history) :
    clock start earlier ≤ clock start history := by
  induction history with
  | nil =>
    rw [List.suffix_nil.1 h]
    exact Nat.le_refl start.nanos
  | cons op history ih =>
    -- the whole history, or a part of what came before
    rcases List.suffix_cons_iff.1 h with rfl | h
    · exact Nat.le_refl (clock start (op :: history)).nanos
    · exact Span.le_trans (ih h) (Nat.le_add_right (clock start history).nanos op.lasts.nanos)

end StoreOp

/-! ### One operation -/

/-- A span that ends no later than it began is empty. -/
theorem Span.eq_of_add_le {a b c : Span} (hab : a ≤ b) (h : b + c ≤ a) : b = a ∧ c = ⟨0⟩ := by
  obtain ⟨a⟩ := a
  obtain ⟨b⟩ := b
  obtain ⟨c⟩ := c
  simp only [Span.le_def, Span.nanos_add, Span.mk.injEq] at *
  omega

/-- A deadline that can be expressed is the time of the write and the TTL. -/
theorem eq_of_deadline? {now ttl expiresAt : Span} (formed : deadline? now ttl = some expiresAt) :
    expiresAt = now + ttl := by
  unfold deadline? at formed
  split at formed
  · exact (Option.some.inj formed).symm
  · cases formed

namespace MemoryStore

variable {m m' : MemoryStore} {now ttl : Span} {key : String} {value : Bytes}

/-- **What a write leaves in the store,** by whether its number calls for a sweep. -/
theorem set?_cases (h : m.set? now key value ttl = some m') :
    let written := (m.insert key ⟨value, now + ttl⟩).countWrite
    m' = if written.writes % sweepEvery = 0 then written.sweep now else written := by
  obtain ⟨expiresAt, formed, rfl⟩ := Option.map_eq_some_iff.1 h
  rw [eq_of_deadline? formed]

theorem entries_insert (m : MemoryStore) (key : String) (v : StoredValue) :
    (m.insert key v).entries = (key, v) :: m.entries.filter fun e => e.1 ≠ key := rfl

theorem entries_sweep (m : MemoryStore) (now : Span) :
    (m.sweep now).entries = m.entries.filter fun e => now < e.2.expiresAt := rfl

theorem entries_countWrite (m : MemoryStore) : m.countWrite.entries = m.entries := rfl

theorem sweep_sublist (m : MemoryStore) (now : Span) : (m.sweep now).entries.Sublist m.entries :=
  List.filter_sublist

theorem insert_sublist (m : MemoryStore) (key : String) (v : StoredValue) :
    (m.insert key v).entries.Sublist ((key, v) :: m.entries) :=
  List.filter_sublist.cons_cons (key, v)

theorem get_writes (m : MemoryStore) (now : Span) (key : String) :
    (m.get now key).2.writes = m.writes := by
  unfold get
  split <;> rfl

/-- Reading removes at most, since it drops what it finds expired. -/
theorem get_sublist (m : MemoryStore) (now : Span) (key : String) :
    (m.get now key).2.entries.Sublist m.entries := by
  unfold get
  split
  · exact List.Sublist.refl m.entries
  · exact List.filter_sublist
  · exact List.Sublist.refl m.entries

theorem live_of_mem_sweep {e : String × StoredValue} (h : e ∈ (m.sweep now).entries) :
    now < e.2.expiresAt := of_decide_eq_true (List.mem_filter.1 h).2

/-- **A purge counts what has expired.** -/
theorem purge_eq (m : MemoryStore) (now : Span) :
    m.purge now = (m.entries.countP fun e => e.2.expiresAt ≤ now, m.sweep now) := by
  unfold purge
  refine Prod.ext ?_ rfl
  -- an entry either passes the test of the sweep or has expired
  have split := List.length_eq_countP_add_countP (fun e : String × StoredValue =>
    decide (now < e.2.expiresAt)) (l := m.entries)
  have expired : (m.entries.countP fun e => ¬ decide (now < e.2.expiresAt) = true) =
      m.entries.countP fun e => e.2.expiresAt ≤ now := by
    refine List.countP_congr fun e _ => ?_
    simp only [decide_eq_true_iff, Span.not_lt]
  rw [expired, List.countP_eq_length_filter] at split
  show m.entries.length - (m.entries.filter _).length = _
  omega

end MemoryStore

/-- **What one operation does** to the entries and to the counter. -/
structure StoreStep (w : StoreWorld MemoryStore) (op : StoreOp) (w' : StoreWorld MemoryStore) :
    Prop where
  now : w'.now = w.now + op.lasts
  writes : w'.store.writes = if op.isWrite then w.store.writes + 1 else w.store.writes
  /-- At most one entry comes, and it is the one that is written. -/
  entries : w'.store.entries.Sublist ((op.entry? w.now).toList ++ w.store.entries)
  /-- Behind a write that calls for a sweep nothing is left that has expired. -/
  swept : op.isWrite → w'.store.writes % sweepEvery = 0 →
    ∀ e ∈ w'.store.entries, w'.now < e.2.expiresAt

namespace StoreStep

variable {w w' : StoreWorld MemoryStore} {op : StoreOp} {reply : CallReply}

/-- What a write does is a step of the store. -/
theorem of_set {key : String} {value : Bytes} {ttl : Span}
    (next : (StoreOp.set key value ttl).act? w = some (w', reply)) :
    StoreStep w (.set key value ttl) w' := by
  obtain ⟨store, written, told⟩ := Option.map_eq_some_iff.1 next
  cases told
  have left := MemoryStore.set?_cases written
  have come := w.store.insert_sublist key ⟨value, w.now + ttl⟩
  dsimp only at left
  split at left
  · next due =>
    -- the sweep takes out more, and leaves the counter
    subst left
    exact ⟨rfl, rfl, (MemoryStore.sweep_sublist _ w.now).trans come,
      fun _ _ e he => MemoryStore.live_of_mem_sweep he⟩
  · next early =>
    subst left
    exact ⟨rfl, rfl, come, fun _ due => absurd due early⟩

/-- **An operation that can be carried out** does what is said of it. -/
theorem of_act? (next : op.act? w = some (w', reply)) : StoreStep w op w' := by
  cases op with
  | set key value ttl => exact of_set next
  -- none of the other operations writes, so nothing can come in
  | get key =>
    cases next
    exact ⟨rfl, w.store.get_writes w.now key, w.store.get_sublist w.now key, nofun⟩
  | clear =>
    cases next
    exact ⟨rfl, rfl, List.nil_sublist _, nofun⟩
  | purge =>
    cases next
    exact ⟨rfl, rfl, w.store.sweep_sublist w.now, nofun⟩
  | advance by_ =>
    cases next
    exact ⟨rfl, rfl, List.Sublist.refl _, nofun⟩

/-- Only writes make the store larger, by at most one. -/
theorem size_le (h : StoreStep w op w') :
    w'.store.size ≤ w.store.size + if op.isWrite then 1 else 0 := by
  have grown : w'.store.size ≤ (op.entry? w.now).toList.length + w.store.size := by
    unfold MemoryStore.size
    rw [← List.length_append]
    exact h.entries.length_le
  rw [Nat.add_comm]
  cases op <;> exact grown

end StoreStep

/-! ### What is held -/

section Course

variable {start : Span} {history swept : List StoreOp} {w w' w₁ : StoreWorld MemoryStore}
  {op : StoreOp} {reply : CallReply}

/-- A sweep is due by the counter, which may have wrapped, when it is due by the number of writes:
the range of the counter is a multiple of the interval. -/
theorem sweep_due_iff (n : Nat) : UInt64.ofNat n % sweepEvery = 0 ↔ n % 256 = 0 := by
  rw [← UInt64.toNat_inj, UInt64.toNat_mod, UInt64.toNat_ofNat']
  show n % 2 ^ 64 % 256 = 0 ↔ n % 256 = 0
  rw [Nat.mod_mod_of_dvd n (by decide)]

/-- **What every course keeps.** -/
structure StoreCourse.Kept (start : Span) (history : List StoreOp) (w : StoreWorld MemoryStore) :
    Prop where
  now : w.now = StoreOp.clock start history
  /-- The counter wraps. -/
  writes : w.store.writes = UInt64.ofNat (StoreOp.writes history)
  /-- A key has at most one entry. -/
  distinct : w.store.Distinct
  /-- Readers see what was written last, until its deadline. -/
  live : ∀ later, w.now ≤ later → ∀ key, w.store.live later key =
    (StoreOp.last? start key history).filter fun v => later < v.expiresAt

namespace StoreCourse.Kept

theorem begin (start : Span) : Kept start [] ⟨start, .empty⟩ :=
  ⟨rfl, rfl, .empty, fun _ _ _ => rfl⟩

/-- A write keeps the view of the history: its own key has the new value until the deadline, and the
others have what they had. -/
theorem view_of_set (h : Kept start history w) {key : String} {value : Bytes} {ttl : Span}
    (next : (StoreOp.set key value ttl).act? w = some (w', reply)) :
    w'.store.Distinct ∧ ∀ later, w'.now ≤ later → ∀ other, w'.store.live later other =
      (StoreOp.last? start other (.set key value ttl :: history)).filter
        fun v => later < v.expiresAt := by
  obtain ⟨store, written, told⟩ := Option.map_eq_some_iff.1 next
  cases told
  obtain ⟨expiresAt, formed, -⟩ := Option.map_eq_some_iff.1 written
  obtain ⟨store', written', distinct, self, others⟩ :=
    MemoryStore.set?_eq_some h.distinct formed key value
  -- both describe the one store that the write leaves
  cases written.symm.trans written'
  have deadline : expiresAt = StoreOp.clock start history + ttl := by
    rw [← h.now]
    exact eq_of_deadline? formed
  refine ⟨distinct, fun later hle other => ?_⟩
  rw [StoreOp.last?]
  by_cases same : key = other
  · subst same
    rw [if_pos rfl, self later hle, deadline]
  · rw [if_neg same, others later hle other (Ne.symm same)]
    exact h.live later hle other

/-- **One operation** keeps it. -/
theorem step (h : Kept start history w) (next : op.act? w = some (w', reply)) :
    Kept start (op :: history) w' := by
  have did := StoreStep.of_act? next
  have now : w'.now = StoreOp.clock start (op :: history) := by
    rw [did.now, h.now]
    rfl
  have writes : w'.store.writes = UInt64.ofNat (StoreOp.writes (op :: history)) := by
    rw [did.writes, h.writes, StoreOp.writes_cons]
    split
    · exact (UInt64.ofNat_add _ 1).symm
    · rfl
  cases op with
  | set key value ttl =>
    obtain ⟨distinct, live⟩ := h.view_of_set next
    exact ⟨now, writes, distinct, live⟩
  | get key =>
    cases next
    exact ⟨now, writes, h.distinct.get w.now key, fun later hle other =>
      (MemoryStore.live_get h.distinct hle key other).trans (h.live later hle other)⟩
  | clear =>
    cases next
    exact ⟨now, writes, .empty, fun _ _ _ => rfl⟩
  | purge =>
    cases next
    exact ⟨now, writes, h.distinct.sweep w.now, fun later hle other =>
      (MemoryStore.live_sweep h.distinct hle other).trans (h.live later hle other)⟩
  | advance by_ =>
    cases next
    -- what is seen from the later time on was seen from the earlier one on
    have passed : w.now ≤ w.now + by_ := Nat.le_add_right w.now.nanos by_.nanos
    exact ⟨now, writes, h.distinct, fun later hle => h.live later (Span.le_trans passed hle)⟩

/-- **A whole course** keeps it. -/
theorem of_course (course : StoreCourse start history w) : Kept start history w := by
  induction course with
  | begin => exact begin start
  | step _ next ih => exact ih.step next

/-- What was written last is found until its deadline. -/
theorem find?_of_last? (h : Kept start history w) {key : String} {v : StoredValue}
    (last : StoreOp.last? start key history = some v) (fresh : w.now < v.expiresAt) :
    w.store.find? key = some v := by
  have seen := h.live w.now (Nat.le_refl w.now.nanos) key
  rw [last, Option.filter_some, decide_eq_true fresh] at seen
  exact (MemoryStore.live_eq_some.1 seen).1

end StoreCourse.Kept

/-! ### Since the last sweep -/

/-- An entry was put in by a write of a course, after it had come to some point. -/
def WrittenSince (start : Span) (swept history : List StoreOp) (e : String × StoredValue) : Prop :=
  ∃ op before, swept <:+ before ∧ op :: before <:+ history ∧
    op.entry? (StoreOp.clock start before) = some e

theorem WrittenSince.cons {e : String × StoredValue} (h : WrittenSince start swept history e)
    (op : StoreOp) : WrittenSince start swept (op :: history) e := by
  obtain ⟨write, before, since, within, put⟩ := h
  exact ⟨write, before, since, within.trans (List.suffix_cons op history), put⟩

/-- **What holds since a course was last swept,** at a point and with a store of its own. -/
structure SinceSweep (start : Span) (swept history : List StoreOp)
    (w₁ w : StoreWorld MemoryStore) : Prop where
  /-- The course passed the sweep. -/
  passed : swept <:+ history
  /-- The sweep left nothing that had expired. -/
  live : ∀ e ∈ w₁.store.entries, w₁.now < e.2.expiresAt
  /-- Every entry was left by the sweep, or has been written since. -/
  entries : ∀ e ∈ w.store.entries, e ∈ w₁.store.entries ∨ WrittenSince start swept history e
  /-- There are no more than the sweep left and writes since then. -/
  size : w.store.size ≤ w₁.store.size + StoreOp.writes history % 256

namespace SinceSweep

/-- Behind the sweep itself. -/
theorem here (live : ∀ e ∈ w.store.entries, w.now < e.2.expiresAt) :
    SinceSweep start history history w w :=
  ⟨List.suffix_rfl, live, fun _ he => .inl he, Nat.le_add_right _ _⟩

/-- **One operation** that calls for no sweep. -/
theorem step (h : SinceSweep start swept history w₁ w) (kept : StoreCourse.Kept start history w)
    (did : StoreStep w op w')
    (early : ¬ (op.isWrite ∧ StoreOp.writes (op :: history) % 256 = 0)) :
    SinceSweep start swept (op :: history) w₁ w' where
  passed := h.passed.trans (List.suffix_cons op history)
  live := h.live
  -- an entry was written just now, or it was there before
  entries e he := by
    rcases List.mem_append.1 (did.entries.subset he) with come | there
    · -- it is the one that is being written
      rw [Option.mem_toList, kept.now] at come
      exact .inr ⟨op, history, h.passed, List.suffix_rfl, come⟩
    · exact (h.entries e there).imp_right fun since => since.cons op
  size := by
    have before := h.size
    -- one more entry at most, and then one more write has been counted
    have grown := did.size_le
    rw [StoreOp.writes_mod_cons early]
    omega

/-- **A whole course** behind its last sweep. -/
theorem of_course (course : StoreCourse start history w)
    (cut : StoreOp.untilSweep? history = some swept) :
    ∃ w₁, StoreCourse start swept w₁ ∧ SinceSweep start swept history w₁ w := by
  induction course with
  | begin => cases cut
  | @step history w w' op reply course next ih =>
    have did := StoreStep.of_act? next
    rw [StoreOp.untilSweep?] at cut
    split at cut
    · next due =>
      -- this is the write that was followed by the sweep
      cases cut
      refine ⟨w', .step course next, here ?_⟩
      refine did.swept due.1 ?_
      rw [((StoreCourse.Kept.of_course course).step next).writes]
      exact (sweep_due_iff _).2 due.2
    · next early =>
      obtain ⟨w₁, until_, since⟩ := ih cut
      exact ⟨w₁, until_, since.step (StoreCourse.Kept.of_course course) did early⟩

end SinceSweep

/-- Before the first sweep there are no more entries than writes, and too few writes to wrap. -/
theorem size_le_of_not_swept (course : StoreCourse start history w)
    (whole : StoreOp.untilSweep? history = none) :
    w.store.size ≤ StoreOp.writes history ∧ StoreOp.writes history < 256 := by
  induction course with
  | begin => exact ⟨Nat.le_refl 0, by decide⟩
  | @step history w w' op reply course next ih =>
    rw [StoreOp.untilSweep?] at whole
    split at whole
    · cases whole
    · next early =>
      obtain ⟨size, few⟩ := ih whole
      have grown := (StoreStep.of_act? next).size_le
      have counted := StoreOp.writes_cons op history
      -- without a sweep the count has not reached 256, so its remainder is the count
      have remainder := StoreOp.writes_mod_cons early
      omega

/-! ### Main result -/

/-- **Housekeeping.** In every state of a course:

* the counter is the number of writes modulo `2 ^ 64`;
* the last sweep behind a write left only entries that lived, what is held now though its deadline
  had come then has been written since, in the same instant and for no time at all, and there are
  no more entries than the sweep left and the remainder of the counter by 256;
* before any such sweep there are no more entries than the counter says;
* what was written last under a key and not cleared is held with its value until its deadline;
* a purge drops exactly what has expired, and says how many entries that were. -/
theorem StoreCourse.housekeeping (course : StoreCourse start history w) :
    w.store.writes = UInt64.ofNat (StoreOp.writes history) ∧
    (∀ swept, StoreOp.untilSweep? history = some swept →
      ∃ w₁, StoreCourse start swept w₁ ∧
        (∀ e ∈ w₁.store.entries, w₁.now < e.2.expiresAt) ∧
        (∀ e ∈ w.store.entries, e.2.expiresAt ≤ w₁.now →
          ∃ before, swept <:+ before ∧ .set e.1 e.2.bytes ⟨0⟩ :: before <:+ history ∧
            StoreOp.clock start before = w₁.now) ∧
        w.store.size ≤ w₁.store.size + w.store.writes.toNat % 256) ∧
    (StoreOp.untilSweep? history = none → w.store.size ≤ w.store.writes.toNat) ∧
    (∀ key v, StoreOp.last? start key history = some v → w.now < v.expiresAt →
      w.store.find? key = some v) ∧
    ∃ rest, StoreOp.purge.act? w =
        some (⟨w.now, rest⟩, .purged (w.store.entries.countP fun e => e.2.expiresAt ≤ w.now)) ∧
      rest.entries = w.store.entries.filter fun e => w.now < e.2.expiresAt := by
  have kept := StoreCourse.Kept.of_course course
  have counter : w.store.writes.toNat = StoreOp.writes history % 2 ^ 64 := by
    rw [kept.writes, UInt64.toNat_ofNat']
  refine ⟨kept.writes, fun swept cut => ?_, fun whole => ?_, fun key v => kept.find?_of_last?, ?_⟩
  · obtain ⟨w₁, until_, since⟩ := SinceSweep.of_course course cut
    refine ⟨w₁, until_, since.live, fun e held gone => ?_, ?_⟩
    · rcases since.entries e held with left | ⟨op, before, later, within, put⟩
      · exact absurd gone (Span.not_le.2 (since.live e left))
      · obtain ⟨ttl, rfl, deadline⟩ := StoreOp.entry?_eq_some put
        -- the write came no earlier than the sweep, and its deadline is no later
        have order : StoreOp.clock start swept ≤ StoreOp.clock start before :=
          StoreOp.clock_le later
        rw [(StoreCourse.Kept.of_course until_).now] at gone ⊢
        obtain ⟨same, none_⟩ := Span.eq_of_add_le order (deadline ▸ gone)
        exact ⟨before, later, none_ ▸ within, same⟩
    · have size := since.size
      omega
  · obtain ⟨size, few⟩ := size_le_of_not_swept course whole
    omega
  · exact ⟨w.store.sweep w.now, by rw [StoreOp.act?, w.store.purge_eq], rfl⟩

end Course

/-! ### A value for no time -/

/-- **A write is carried out** if the clock can show its deadline. -/
theorem StoreOp.act?_set (w : StoreWorld MemoryStore) (key : String) (value : Bytes) (ttl : Span)
    (fits : w.now + ttl ≤ lastMoment) :
    let written := (w.store.insert key ⟨value, w.now + ttl⟩).countWrite
    (StoreOp.set key value ttl).act? w = some (⟨w.now,
      if written.writes % sweepEvery = 0 then written.sweep w.now else written⟩, .stored) := by
  intro written
  have formed : deadline? w.now ttl = some (w.now + ttl) := if_pos fits
  rw [act?, MemoryStore.set?, formed]
  rfl

/-- Writes of one value, one after the other. -/
def rewrites (n : Nat) : List StoreOp := List.replicate n (.set "k" [] (.seconds 1))

theorem writes_rewrites (n : Nat) : StoreOp.writes (rewrites n) = n := by
  rw [rewrites, StoreOp.writes, List.countP_replicate]
  rfl

/-- If the last of them is a 256th write, it has swept. -/
theorem untilSweep?_rewrites (n : Nat) (due : (n + 1) % 256 = 0) :
    StoreOp.untilSweep? (rewrites (n + 1)) = some (rewrites (n + 1)) := by
  have counted : StoreOp.writes (.set "k" [] (.seconds 1) :: rewrites n) % 256 = 0 := by
    rw [StoreOp.writes_cons, writes_rewrites]
    exact due
  exact if_pos ⟨rfl, counted⟩

/-- What such writes leave: a second later, it is gone. -/
def rewritten : String × StoredValue := ("k", ⟨[], .seconds 1⟩)

/-- One more such write takes the place of those before, whether or not it is followed by a
sweep. -/
theorem StoreOp.exists_act?_rewrite {w : StoreWorld MemoryStore} (now : w.now = ⟨0⟩)
    (before : w.store.entries = [] ∨ w.store.entries = [rewritten]) :
    ∃ w', (StoreOp.set "k" [] (.seconds 1)).act? w = some (w', .stored) ∧ w'.now = ⟨0⟩ ∧
      w'.store.entries = [rewritten] := by
  have written : (w.store.insert "k" ⟨[], w.now + .seconds 1⟩).entries = [rewritten] := by
    rw [MemoryStore.entries_insert, now]
    rcases before with none_ | one
    · rw [none_]
      decide
    · rw [one]
      decide
  refine ⟨_, act?_set w "k" [] (.seconds 1) (by rw [now]; decide), now, ?_⟩
  dsimp only
  split
  · -- a sweep finds the entry live, as a second is still to go
    rw [MemoryStore.entries_sweep, MemoryStore.entries_countWrite, written, now]
    decide
  · exact written

/-- However often the one entry is rewritten, it is all that the store holds. -/
theorem StoreCourse.exists_rewrites (n : Nat) : ∃ w, StoreCourse ⟨0⟩ (rewrites (n + 1)) w ∧
    w.now = ⟨0⟩ ∧ w.store.entries = [rewritten] := by
  induction n with
  -- the first write finds the store empty
  | zero =>
    obtain ⟨w, next, left⟩ := StoreOp.exists_act?_rewrite (w := ⟨⟨0⟩, .empty⟩)
      rfl (.inl rfl)
    exact ⟨w, .step .begin next, left⟩
  -- and every other one finds the one entry
  | succ n ih =>
    obtain ⟨w, course, now, entries⟩ := ih
    obtain ⟨w', next, left⟩ := StoreOp.exists_act?_rewrite now (.inr entries)
    exact ⟨w', .step course next, left⟩

/-- Right behind the sweep of the 256th write comes another one, for no time at all. -/
def lateWrite : List StoreOp := .set "z" [] ⟨0⟩ :: rewrites 256

theorem writes_lateWrite : StoreOp.writes lateWrite = 257 := by
  rw [lateWrite, StoreOp.writes_cons, writes_rewrites]
  rfl

/-- The sweep came with the 256th write, just before the late one. -/
theorem untilSweep?_lateWrite : StoreOp.untilSweep? lateWrite = some (rewrites 256) := by
  have early : ¬ StoreOp.writes lateWrite % 256 = 0 := by
    rw [writes_lateWrite]
    decide
  rw [lateWrite] at early ⊢
  rw [StoreOp.untilSweep?, if_neg fun due => early due.2]
  exact untilSweep?_rewrites 255 (by decide)

/-- The late write is carried out, and nothing sweeps its entry away. -/
theorem StoreCourse.exists_lateWrite : ∃ w, StoreCourse ⟨0⟩ lateWrite w ∧ w.now = ⟨0⟩ ∧
    w.store.entries = [("z", ⟨[], ⟨0⟩⟩), rewritten] := by
  obtain ⟨w, course, now, entries⟩ := StoreCourse.exists_rewrites 255
  have next := StoreOp.act?_set w "z" [] ⟨0⟩ (by rw [now]; decide)
  refine ⟨_, .step course next, now, ?_⟩
  -- the 257th write calls for no sweep
  have counter : w.store.writes = 256 := by
    rw [(StoreCourse.Kept.of_course course).writes, writes_rewrites]
    rfl
  have early : ¬ (w.store.insert "z" ⟨[], w.now + ⟨0⟩⟩).countWrite.writes % sweepEvery = 0 := by
    show ¬ (w.store.writes + 1) % sweepEvery = 0
    rw [counter]
    decide
  dsimp only
  rw [if_neg early, MemoryStore.entries_countWrite, MemoryStore.entries_insert, now, entries]
  decide

/-- What the rewrites wrote is written last under its key. -/
theorem last?_lateWrite : StoreOp.last? ⟨0⟩ "k" lateWrite = some rewritten.2 := by
  obtain ⟨w, course, now, -⟩ := StoreCourse.exists_rewrites 254
  -- the calls take no time, so that the deadline is a second from the start
  have clock : StoreOp.clock ⟨0⟩ (rewrites 255) = ⟨0⟩ := by
    rw [← (StoreCourse.Kept.of_course course).now, now]
  have last : rewrites 256 = .set "k" [] (.seconds 1) :: rewrites 255 := List.replicate_succ
  rw [lateWrite, StoreOp.last?, if_neg (by decide), last, StoreOp.last?, if_pos rfl, clock]
  rfl

/-- Behind the late write the store holds its entry, which had expired at the sweep, and that of the
writes before, which a purge leaves. A store that has seen a single write has not been swept. -/
theorem StoreCourse.housekeeping_lateWrite :
    ∃ w w₁ w₀, StoreCourse ⟨0⟩ lateWrite w ∧ StoreCourse ⟨0⟩ (rewrites 256) w₁ ∧
      StoreCourse ⟨0⟩ (rewrites 1) w₀ ∧
      w.store.writes = 257 ∧ w.store.size ≤ w₁.store.size + 1 ∧
      (∀ e ∈ w₁.store.entries, w₁.now < e.2.expiresAt) ∧
      ("z", ⟨[], ⟨0⟩⟩) ∈ w.store.entries ∧
      (∃ before, rewrites 256 <:+ before ∧ .set "z" [] ⟨0⟩ :: before <:+ lateWrite ∧
        StoreOp.clock ⟨0⟩ before = w₁.now) ∧
      w.store.find? "k" = some ⟨[], .seconds 1⟩ ∧
      (∃ rest, StoreOp.purge.act? w = some (⟨w.now, rest⟩, .purged 1) ∧
        rest.entries = [rewritten]) ∧
      w₀.store.size ≤ w₀.store.writes.toNat := by
  obtain ⟨w, course, now, entries⟩ := StoreCourse.exists_lateWrite
  obtain ⟨w₀, one, -⟩ := StoreCourse.exists_rewrites 0
  obtain ⟨writes, swept, -, found, rest, purged, left⟩ := StoreCourse.housekeeping course
  obtain ⟨w₁, until_, live, late, size⟩ := swept (rewrites 256) untilSweep?_lateWrite
  obtain ⟨-, -, unswept, -⟩ := StoreCourse.housekeeping one
  -- 257 writes are far from where the counter wraps
  have counter : w.store.writes = 257 := by
    rw [writes, writes_lateWrite]
    rfl
  have held : ("z", ⟨[], ⟨0⟩⟩) ∈ w.store.entries := by
    rw [entries]
    exact List.mem_cons_self
  -- the late entry is the one that has expired: its TTL is zero
  have count : (w.store.entries.countP fun e => e.2.expiresAt ≤ w.now) = 1 := by
    rw [entries, now]
    decide
  rw [counter] at size
  rw [count] at purged
  refine ⟨w, w₁, w₀, course, until_, one, counter, size, live, held,
    late _ held (Nat.zero_le w₁.now.nanos),
    found "k" _ last?_lateWrite (by rw [now]; decide), ⟨rest, purged, ?_⟩, unswept rfl⟩
  rw [left, entries, now]
  decide

/-- **An entry whose deadline had come at the last sweep can be held:** one that is written right
behind the sweep, before any time has passed, for no time at all. -/
theorem StoreCourse.lateWrite_held :
    ∃ w w₁, StoreCourse ⟨0⟩ lateWrite w ∧
      StoreOp.untilSweep? lateWrite = some (rewrites 256) ∧ StoreCourse ⟨0⟩ (rewrites 256) w₁ ∧
      ∃ e ∈ w.store.entries, e.2.expiresAt ≤ w₁.now := by
  obtain ⟨w, course, -, entries⟩ := StoreCourse.exists_lateWrite
  obtain ⟨w₁, until_, -⟩ := StoreCourse.exists_rewrites 255
  have held : ("z", ⟨[], ⟨0⟩⟩) ∈ w.store.entries := by
    rw [entries]
    exact List.mem_cons_self
  exact ⟨w, w₁, course, untilSweep?_lateWrite, until_, _, held, Nat.zero_le w₁.now.nanos⟩

end BlockRelay
