import BlockRelay.Cache.Memory
import BlockRelay.Cache.Payloads
import BlockRelay.Proofs.Cache.Address

/-!
# Runs of a cache

A run is any sequence of operations on a cache, mixed with sweeps of its store and with the
passing of time (`CacheOp`). `CacheOp.perform` does one of them on the store in memory, with or
without a time limit, and `answers` collects what the caller is told. The list of answers ends
where the process does, so two runs with the same answers also end alike.

The store in memory answers at once. So a program over it is a sequence of `MemoryStore.act` at
one and the same time (`run_call`), and a time limit never strikes (`runWithin_eq_run`).
-/

namespace BlockRelay

/-- An operation on a cache, or something else that happens to its store. What is named by texts
can be saved and read with a time limit. -/
inductive CacheOp where
  | save (limit : Option Span) (slot : UInt64) (proposer block : String) (p : Payload)
  | saveSubmission (s : Submission)
  | get (limit : Option Span) (slot : UInt64) (proposer block : String)
  | getByKey (source : KeySource)
  | checkStore
  | reset
  -- expired entries are swept, and time passes
  | purge
  | advance (by_ : Span)

/-- What the caller of an operation is told. -/
inductive CacheAnswer where
  | saved (r : Except CacheError Unit)
  | submitted (r : Except CacheError Payload)
  | found (r : Except CacheError (Option Payload))
  | checked (r : Except CacheError Unit)
  | dropped (r : Except CacheError Unit)
  -- a sweep and the passing of time have no caller
  | quiet

/-- Whether an answer is that of a read that came across bytes which hold no payload. -/
def CacheAnswer.undecoded : CacheAnswer → Bool
  | .found (.error (.decode _ _)) => true
  | _ => false

/-- A run whose result is passed on. -/
def StoreRun.map {σ α β : Type} (f : α → β) : StoreRun σ α → StoreRun σ β
  | .finished a w => .finished (f a) w
  | .stuck => .stuck
  | .crashed => .crashed

/-- Runs a program with a time limit, if there is one. -/
def StoreProgram.runFor {σ α : Type} (service : StoreService σ) (limit : Option Span)
    (p : StoreProgram (Except CacheError α)) (w : StoreWorld σ) :
    StoreRun σ (Except CacheError α) :=
  match limit with
  | none => p.run service w
  | some limit => p.runWithin service limit w

/-- **Does one operation** on a cache over the store in memory. -/
def CacheOp.perform (c : PayloadCache) (w : StoreWorld MemoryStore) :
    CacheOp → StoreRun MemoryStore CacheAnswer
  | .save limit slot proposer block p =>
    ((c.save slot proposer block p).runFor MemoryStore.service limit w).map .saved
  | .saveSubmission s => ((c.saveSubmission s).run MemoryStore.service w).map .submitted
  | .get limit slot proposer block =>
    ((c.get slot proposer block).runFor MemoryStore.service limit w).map .found
  | .getByKey source =>
    match source.key? with
    | .error e => .finished (.found (.error (.key e))) w
    | .ok key => ((c.getByKey key).run MemoryStore.service w).map .found
  | .checkStore => (c.checkStore.run MemoryStore.service w).map .checked
  | .reset => (c.reset.run MemoryStore.service w).map .dropped
  | .purge => .finished .quiet { w with store := (w.store.purge w.now).2 }
  | .advance by_ => .finished .quiet { w with now := w.now + by_ }

/-- The answers of a run, one for each operation until the process ends. -/
def answers {σ : Type} (perform : StoreWorld σ → CacheOp → StoreRun σ CacheAnswer) :
    List CacheOp → StoreWorld σ → List CacheAnswer
  | [], _ => []
  | op :: ops, w =>
    match perform w op with
    | .finished a w => a :: answers perform ops w
    | .stuck => []
    | .crashed => []

/-- Whether the clock can show the deadline of every entry that a run writes. A write that is
refused counts too. -/
def PayloadCache.DeadlinesShown (c : PayloadCache) : Span → List CacheOp → Prop
  | _, [] => True
  | now, op :: ops =>
    match op with
    | .advance by_ => c.DeadlinesShown (now + by_) ops
    | .save _ _ _ _ _ => now + c.ttl ≤ lastMoment ∧ c.DeadlinesShown now ops
    | .saveSubmission _ => now + c.ttl ≤ lastMoment ∧ c.DeadlinesShown now ops
    | .get _ _ _ _ => c.DeadlinesShown now ops
    | .getByKey _ => c.DeadlinesShown now ops
    | .checkStore => c.DeadlinesShown now ops
    | .reset => c.DeadlinesShown now ops
    | .purge => c.DeadlinesShown now ops

/-! ### Programs over the store in memory -/

theorem Span.add_zero (t : Span) : t + ⟨0⟩ = t := rfl

namespace StoreProgram

variable {α : Type}

/-- A call is answered at once. -/
theorem run_call (call : StoreCall) (next : StoreAnswer → StoreProgram α)
    (w : StoreWorld MemoryStore) :
    (StoreProgram.call call next).run MemoryStore.service w =
      match w.store.act w.now call with
      | none => .crashed
      | some (answer, store) => (next answer).run MemoryStore.service { w with store } := by
  rw [run]
  simp only [MemoryStore.service, Span.add_zero]
  cases w.store.act w.now call with
  | none => rfl
  | some answered => rfl

/-- A deadline that has not passed at the start never does. -/
theorem runUntil_eq_run {deadline : Span} (late : α) (p : StoreProgram α)
    {w : StoreWorld MemoryStore} (h : w.now ≤ deadline) :
    p.runUntil MemoryStore.service deadline late w = p.run MemoryStore.service w := by
  induction p generalizing w with
  | done a => rfl
  | call call next ih =>
    rw [run_call]
    simp only [runUntil, MemoryStore.service, Span.add_zero]
    -- the call took no time, so the deadline is still to come
    rw [if_pos h]
    cases w.store.act w.now call with
    | none => rfl
    | some answered => exact ih answered.1 h

/-- **A time limit never strikes.** -/
theorem runWithin_eq_run (limit : Span) (p : StoreProgram (Except CacheError α))
    (w : StoreWorld MemoryStore) :
    p.runWithin MemoryStore.service limit w = p.run MemoryStore.service w :=
  runUntil_eq_run _ p (Nat.le_add_right w.now.nanos limit.nanos)

/-- The store in memory answers at once, so a limit never cuts a program short. -/
theorem runFor_eq_run (limit : Option Span) (p : StoreProgram (Except CacheError α))
    (w : StoreWorld MemoryStore) :
    p.runFor MemoryStore.service limit w = p.run MemoryStore.service w := by
  cases limit with
  | none => rfl
  | some limit => exact runWithin_eq_run limit p w

end StoreProgram

end BlockRelay
