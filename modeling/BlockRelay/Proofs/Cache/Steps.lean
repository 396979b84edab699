import BlockRelay.Proofs.Cache.Live

/-!
# Steps of the calls of the store in memory

Calls of the store are not atomic. A read looks at the clock, looks its key up, and only then
drops what it found expired, still by the clock it looked at first. A write forms its deadline,
inserts, counts, and may have to sweep; a sweep looks at the clock once and then tests one entry
after the other. Between any two of these steps (`CallStep`) other calls may take theirs, and time
may pass. `CallPhase.step?` is one step of one call, made of the functions on stores that the
undisturbed calls are made of. Main statements:

* `CallPhase.play_getSteps`, `play_setSteps`, `play_sweepSteps` and `play_clearSteps`: with nobody
  in between, the steps of a call are the call.
* `CallPhase.moves_of_step?` says once what a step can do (`CallPhase.Moves`).
-/

namespace BlockRelay

/-! ### Steps of a call -/

/-- A step of a call. -/
inductive CallStep where
  /-- A read begins and looks at the clock. -/
  | beginGet (key : String)
  /-- It looks its key up. What it finds fresh or missing ends it. -/
  | look
  /-- It drops the entry if that is expired, by the clock it looked at when it began. -/
  | dropStale
  /-- A write begins, looks at the clock and forms its deadline. -/
  | beginSet (key : String) (value : Bytes) (ttl : Span)
  | insert
  /-- It counts itself, and ends unless the number calls for a sweep. -/
  | count
  /-- A sweep begins and looks at the clock, on its own or behind a write. -/
  | beginSweep
  /-- It tests the entry of a key. It comes to the keys in an order of its own. -/
  | test (key : String)
  | endSweep
  /-- Everything is about to be dropped, one entry after the other. -/
  | beginClear
  | erase (key : String)
  | endClear

/-- Whether a step may drop an entry that is still fresh, or put another one in its place. -/
def CallStep.replaces : CallStep → Bool
  | .insert => true
  | .erase _ => true
  | _ => false

/-- How far a call is. -/
inductive CallPhase where
  | idle
  | looking (key : String) (reading : Span)
  | dropping (key : String) (reading : Span)
  | writing (key : String) (v : StoredValue)
  | counting
  | owingSweep
  /-- Sweeping since the store had a size, perhaps behind a write. -/
  | sweeping (reading : Span) (before : Nat) (behindWrite : Bool)
  | clearing
  | ended

inductive CallReply where
  /-- Nothing: the step is not one that ends a call. -/
  | nothing
  | found (value : Option Bytes)
  | stored
  | purged (count : Nat)
  | cleared
  /-- The clock cannot show the deadline, which ends the call. -/
  | crashed

namespace MemoryStore

def erase (m : MemoryStore) (key : String) : MemoryStore := m.restrict fun e => !(e.1 = key)

def keys (m : MemoryStore) : List String := m.entries.map (·.1)

/-- Dropping by one test after the other: what fails the test of its own key is gone. -/
theorem foldl_restrict (test : String → StoredValue → Bool) (keys : List String)
    (m : MemoryStore) :
    keys.foldl (fun m key => m.restrict fun e => !(e.1 = key && test key e.2)) m =
      m.restrict fun e => !(e.1 ∈ keys && test e.1 e.2) := by
  induction keys generalizing m with
  | nil =>
    -- nothing is tested, so everything stays
    have all : m.entries.filter (fun e => !(decide (e.1 ∈ ([] : List String)) && test e.1 e.2)) =
        m.entries := List.filter_eq_self.2 fun e _ => by simp
    rw [List.foldl_nil, restrict, all]
  | cons key keys ih =>
    rw [List.foldl_cons, ih, restrict, restrict, restrict, List.filter_filter]
    refine congrArg (fun entries => (⟨entries, m.writes⟩ : MemoryStore)) ?_
    refine List.filter_congr fun e _ => ?_
    -- the first test is that of this key, the others are those of the rest
    by_cases hkey : e.1 = key
    · subst hkey
      cases test e.1 e.2 <;> simp
    · simp [hkey]

/-- If every key is tested, only the tests count. -/
theorem foldl_restrict_keys (test : String → StoredValue → Bool) (m : MemoryStore) :
    m.keys.foldl (fun m key => m.restrict fun e => !(e.1 = key && test key e.2)) m =
      m.restrict fun e => !(test e.1 e.2) := by
  rw [foldl_restrict, restrict, restrict]
  refine congrArg (fun entries => (⟨entries, m.writes⟩ : MemoryStore)) ?_
  refine List.filter_congr fun e he => ?_
  have tested : e.1 ∈ m.keys := List.mem_map_of_mem he
  rw [decide_eq_true tested, Bool.true_and]

/-- **A sweep** tests the entry of every key. -/
theorem foldl_dropExpired (m : MemoryStore) (now : Span) :
    m.keys.foldl (fun m key => m.dropExpired key now) m = m.sweep now := by
  refine (m.foldl_restrict_keys fun _ v => v.expiresAt ≤ now).trans ?_
  rw [restrict, sweep]
  refine congrArg (fun entries => (⟨entries, m.writes⟩ : MemoryStore)) ?_
  refine List.filter_congr fun e _ => ?_
  rw [← decide_not]
  exact decide_eq_decide.2 Span.not_le

/-- **A clear** erases every key. -/
theorem foldl_erase (m : MemoryStore) : m.keys.foldl erase m = m.clear := by
  have one (m : MemoryStore) (key : String) :
      m.erase key = m.restrict fun e => !(e.1 = key && true) := by
    simp only [Bool.and_true, erase]
  -- erasing all keys one by one keeps nothing
  have all : m.keys.foldl erase m = m.restrict fun _ => !true := by
    rw [← m.foldl_restrict_keys fun _ _ => true]
    exact congrArg (fun f => m.keys.foldl f m) (funext fun m => funext fun key => one m key)
  rw [all, restrict, clear]
  exact congrArg (fun entries => (⟨entries, m.writes⟩ : MemoryStore)) (List.filter_false _)

end MemoryStore

namespace CallPhase

/-- **One step of a call,** if it is the turn of that step. -/
def step? (now : Span) (m : MemoryStore) :
    CallPhase → CallStep → Option (MemoryStore × CallPhase × CallReply)
  | .idle, .beginGet key => some (m, .looking key now, .nothing)
  | .looking key reading, .look =>
    match m.lookup key reading with
    | .fresh bytes => some (m, .ended, .found (some bytes))
    | .expired => some (m, .dropping key reading, .nothing)
    | .missing => some (m, .ended, .found none)
  | .dropping key reading, .dropStale => some (m.dropExpired key reading, .ended, .found none)
  | .idle, .beginSet key value ttl =>
    match deadline? now ttl with
    | some expiresAt => some (m, .writing key ⟨value, expiresAt⟩, .nothing)
    | none => some (m, .ended, .crashed)
  | .writing key v, .insert => some (m.insert key v, .counting, .nothing)
  | .counting, .count =>
    if m.countWrite.writes % sweepEvery = 0 then some (m.countWrite, .owingSweep, .nothing)
    else some (m.countWrite, .ended, .stored)
  | .idle, .beginSweep => some (m, .sweeping now m.size false, .nothing)
  | .owingSweep, .beginSweep => some (m, .sweeping now m.size true, .nothing)
  | .sweeping reading before behindWrite, .test key =>
    some (m.dropExpired key reading, .sweeping reading before behindWrite, .nothing)
  | .sweeping _ before false, .endSweep => some (m, .ended, .purged (before - m.size))
  | .sweeping _ _ true, .endSweep => some (m, .ended, .stored)
  | .idle, .beginClear => some (m, .clearing, .nothing)
  | .clearing, .erase key => some (m.erase key, .clearing, .nothing)
  | .clearing, .endClear => some (m, .ended, .cleared)
  | _, _ => none

/-- Several steps with nobody in between, and the reply of the last. -/
def play (now : Span) (m : MemoryStore) (phase : CallPhase) (last : CallReply) :
    List CallStep → Option (MemoryStore × CallPhase × CallReply)
  | [] => some (m, phase, last)
  | step :: steps =>
    match phase.step? now m step with
    | none => none
    | some (m, phase, reply) => play now m phase reply steps

/-- The key that a read under way is for. -/
def wanted? : CallPhase → Option String
  | .looking key _ => some key
  | .dropping key _ => some key
  | _ => none

/-! ### Undisturbed calls -/

section Undisturbed

variable (now : Span) (m : MemoryStore)

/-- A step that can be taken again and again, once for each of some keys. -/
theorem play_map {now : Span} {phase : CallPhase} {again : String → CallStep}
    {effect : MemoryStore → String → MemoryStore}
    (turn : ∀ m key, phase.step? now m (again key) = some (effect m key, phase, .nothing))
    (keys : List String) (m : MemoryStore) (rest : List CallStep) :
    play now m phase .nothing (keys.map again ++ rest) =
      play now (keys.foldl effect m) phase .nothing rest := by
  induction keys generalizing m with
  | nil => rfl
  | cons key keys ih =>
    rw [List.map_cons, List.cons_append, play, turn]
    exact ih (effect m key)

def getSteps (key : String) : List CallStep :=
  .beginGet key :: .look :: if m.lookup key now = .expired then [.dropStale] else []

def sweepSteps : List CallStep := .beginSweep :: (m.keys.map .test ++ [.endSweep])

/-- The steps of a write, with the sweep behind it if one is due. -/
def setSteps (key : String) (value : Bytes) (ttl : Span) : List CallStep :=
  match deadline? now ttl with
  | none => [.beginSet key value ttl]
  | some expiresAt =>
    let written := (m.insert key ⟨value, expiresAt⟩).countWrite
    .beginSet key value ttl :: .insert :: .count ::
      if written.writes % sweepEvery = 0 then sweepSteps written else []

def clearSteps : List CallStep := .beginClear :: (m.keys.map .erase ++ [.endClear])

/-- Played on its own, a read of several steps is the read of one. -/
theorem play_getSteps (key : String) :
    play now m .idle .nothing (getSteps now m key) =
      some ((m.get now key).2, .ended, .found (m.get now key).1) := by
  rw [getSteps, MemoryStore.get]
  cases seen : m.lookup key now with
  | fresh bytes => simp [play, step?, seen]
  | expired => simp [play, step?, seen]
  | missing => simp [play, step?, seen]

/-- A sweep under way that comes to every key. -/
theorem play_tests (before : Nat) (behindWrite : Bool) (rest : List CallStep) :
    play now m (.sweeping now before behindWrite) .nothing (m.keys.map .test ++ rest) =
      play now (m.sweep now) (.sweeping now before behindWrite) .nothing rest := by
  have turn (m : MemoryStore) (key : String) :
      (sweeping now before behindWrite).step? now m (.test key) =
        some (m.dropExpired key now, .sweeping now before behindWrite, .nothing) := rfl
  rw [play_map turn, m.foldl_dropExpired]

/-- A sweep key by key, played on its own, is the sweep of the whole store. -/
theorem play_sweepSteps :
    play now m .idle .nothing (sweepSteps m) =
      some ((m.purge now).2, .ended, .purged (m.purge now).1) :=
  play_tests now m m.size false [.endSweep]

/-- So it goes behind a write. -/
theorem play_sweepSteps_owing :
    play now m .owingSweep .nothing (sweepSteps m) = some (m.sweep now, .ended, .stored) :=
  play_tests now m m.size true [.endSweep]

/-- A write, with the sweep behind every 256th one, is the write of the store. -/
theorem play_setSteps (key : String) (value : Bytes) (ttl : Span) :
    play now m .idle .nothing (setSteps now m key value ttl) =
      some (match m.set? now key value ttl with
        | none => (m, .ended, .crashed)
        | some written => (written, .ended, .stored)) := by
  rw [setSteps, MemoryStore.set?]
  cases shown : deadline? now ttl with
  | none => simp [play, step?, shown]
  | some expiresAt =>
    dsimp only [Option.map_some]
    -- every 256th write owes a sweep
    by_cases due : (m.insert key ⟨value, expiresAt⟩).countWrite.writes % sweepEvery = 0
    · simp only [play, step?, shown, if_pos due]
      exact play_sweepSteps_owing now _
    · simp only [play, step?, shown, if_neg due]

/-- A clear is a single step. -/
theorem play_clearSteps :
    play now m .idle .nothing (clearSteps m) = some (m.clear, .ended, .cleared) := by
  have turn (m : MemoryStore) (key : String) :
      clearing.step? now m (.erase key) = some (m.erase key, .clearing, .nothing) := rfl
  have erased := play_map turn m.keys m [.endClear]
  rw [m.foldl_erase] at erased
  exact erased

end Undisturbed

/-! ### What a step can do -/

/-- The phases that hold neither a reading of the clock nor a value. -/
def isFree : CallPhase → Bool
  | .looking _ _ => false
  | .dropping _ _ => false
  | .writing _ _ => false
  | .sweeping _ _ _ => false
  | _ => true

/-- **All that a step can do** to the entries and to what its call holds. -/
inductive Moves (now : Span) (m : MemoryStore) :
    CallPhase → CallStep → MemoryStore → CallPhase → Prop where
  | reads (key : String) : Moves now m .idle (.beginGet key) m (.looking key now)
  | findsExpired {key : String} {reading : Span} {v : StoredValue} (found : m.find? key = some v)
      (late : v.expiresAt ≤ reading) :
    Moves now m (.looking key reading) .look m (.dropping key reading)
  | dropsStale (key : String) (reading : Span) :
    Moves now m (.dropping key reading) .dropStale (m.dropExpired key reading) .ended
  | forms (key : String) (value : Bytes) (ttl expiresAt : Span)
      (shown : deadline? now ttl = some expiresAt) :
    Moves now m .idle (.beginSet key value ttl) m (.writing key ⟨value, expiresAt⟩)
  | inserts (key : String) (v : StoredValue) :
    Moves now m (.writing key v) .insert (m.insert key v) .counting
  | sweeps (phase : CallPhase) (before : Nat) (behindWrite : Bool) :
    Moves now m phase .beginSweep m (.sweeping now before behindWrite)
  | tests (reading : Span) (before : Nat) (behindWrite : Bool) (key : String) :
    Moves now m (.sweeping reading before behindWrite) (.test key) (m.dropExpired key reading)
      (.sweeping reading before behindWrite)
  | erases (key : String) : Moves now m .clearing (.erase key) (m.erase key) .clearing
  /-- Any other step leaves the entries alone, and its call holds nothing afterwards. -/
  | rests {phase phase' : CallPhase} {step : CallStep} {m' : MemoryStore}
      (quiet : step.replaces = false) (entries : m'.entries = m.entries)
      (free : phase'.isFree = true) : Moves now m phase step m' phase'

/-- Each step that is possible is one of the moves: this splits the step function once for all. -/
theorem moves_of_step? {now : Span} {m m' : MemoryStore} {phase phase' : CallPhase}
    {step : CallStep} {reply : CallReply}
    (next : phase.step? now m step = some (m', phase', reply)) :
    Moves now m phase step m' phase' := by
  unfold step? at next
  split at next
  · -- a read begins
    cases next
    exact .reads _
  · -- the look is the only step that asks what is there
    split at next
    · cases next
      exact .rests rfl rfl rfl
    · next key reading expired =>
      cases next
      rw [MemoryStore.lookup] at expired
      split at expired
      · cases expired
      · next v found =>
        split at expired
        · cases expired
        · next late => exact .findsExpired found (Span.not_lt.1 late)
    · cases next
      exact .rests rfl rfl rfl
  · cases next
    exact .dropsStale _ _
  · -- a write begins, or ends at once
    split at next
    · next shown =>
      cases next
      exact .forms _ _ _ _ shown
    · cases next
      exact .rests rfl rfl rfl
  · cases next
    exact .inserts _ _
  · -- the count, with or without a sweep to come
    split at next
    · cases next
      exact .rests rfl rfl rfl
    · cases next
      exact .rests rfl rfl rfl
  · -- a sweep begins, on its own or behind a write
    cases next
    exact .sweeps _ _ _
  · cases next
    exact .sweeps _ _ _
  · cases next
    exact .tests _ _ _ _
  · -- its two ends, and the beginning of a clear
    cases next
    exact .rests rfl rfl rfl
  · cases next
    exact .rests rfl rfl rfl
  · cases next
    exact .rests rfl rfl rfl
  · cases next
    exact .erases _
  · cases next
    exact .rests rfl rfl rfl
  · -- it is not the turn of any other step
    cases next

end CallPhase

end BlockRelay
