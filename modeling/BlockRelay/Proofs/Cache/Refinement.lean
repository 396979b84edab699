import BlockRelay.Proofs.Cache.Live
import BlockRelay.Proofs.Cache.Runs
import BlockRelay.Proofs.Wire.RoundTrip

/-!
# The cache refines a table of payloads

What a caller has to know of a cache over the store in memory is a table (`PairTable`): for each
triple the payload that was saved last, and its deadline. A save replaces the pair, a read answers
the payload while its deadline is still to come, a reset empties the table, and nothing else
touches it. There are no texts in the table, no bytes, no sweeps and no failures to decode.

* `CacheOp.expected` is the reference machine that works on the table.
* `Agrees` is the relation between a store and a table: from now on every triple shows in the
  store (`MemoryStore.live`) the bytes of its payload in the table, up to the deadline. What has
  expired is in neither view, so it does not matter when the store drops it.
* `Agrees.step` says that one operation ends alike on both sides, with one answer, and keeps the
  relation. The spec lemmas of the calls do the work, and `PayloadTriple.inStore_injective` keeps
  the entries of two triples apart.
* `answers_eq_expected` is the refinement for whole runs.

Every payload in the table was accepted by `Payload.check` when it was saved, and is read back
from its bytes as it was (`Payload.ofBytes?_toBytes`). Hence no read comes across bytes that hold
no payload.
-/

namespace BlockRelay

/-! ### The reference machine -/

/-- For each triple the payload saved last, with its deadline. -/
abbrev PairTable := PayloadTriple → Option (Payload × Span)

namespace PairTable

/-- The table without pairs. -/
def empty : PairTable := fun _ => none

/-- Puts a pair in the place of any pair of its triple. -/
def put (table : PairTable) (t : PayloadTriple) (p : Payload) (deadline : Span) : PairTable :=
  fun u => if u = t then some (p, deadline) else table u

/-- The payload of a triple, if its deadline is still to come. -/
def read (table : PairTable) (now : Span) (t : PayloadTriple) : Option Payload :=
  ((table t).filter fun pair => now < pair.2).map (·.1)

theorem put_self (table : PairTable) (t : PayloadTriple) (p : Payload) (deadline : Span) :
    table.put t p deadline t = some (p, deadline) := if_pos rfl

theorem put_of_ne (table : PairTable) {t u : PayloadTriple} (p : Payload) (deadline : Span)
    (h : u ≠ t) : table.put t p deadline u = table u := if_neg h

end PairTable

/-- Replaces the pair of a triple, and answers; the process ends if the clock cannot show the
deadline. -/
def StoreWorld.replacePair (c : PayloadCache) (r : StoreWorld PairTable) (t : PayloadTriple)
    (p : Payload) (a : CacheAnswer) : StoreRun PairTable CacheAnswer :=
  match deadline? r.now c.ttl with
  | none => .crashed
  | some deadline => .finished a { r with store := r.store.put t p deadline }

/-- **Does one operation** on a table. -/
def CacheOp.expected (c : PayloadCache) (r : StoreWorld PairTable) :
    CacheOp → StoreRun PairTable CacheAnswer
  | .save _ slot proposer block p =>
    match p.check with
    | .error e => .finished (.saved (.error (.payload e))) r
    | .ok _ =>
      match PayloadTriple.ofTexts slot proposer block with
      | .error e => .finished (.saved (.error (.key e))) r
      | .ok t => r.replacePair c t p (.saved (.ok ()))
  | .saveSubmission s =>
    match s.payload with
    | .error e => .finished (.submitted (.error (.payload e))) r
    | .ok p =>
      r.replacePair c (.ofBytes s.trace.slot s.trace.proposer s.trace.blockHash) p
        (.submitted (.ok p))
  | .get _ slot proposer block =>
    match PayloadTriple.ofTexts slot proposer block with
    | .error e => .finished (.found (.error (.key e))) r
    | .ok t => .finished (.found (.ok (r.store.read r.now t))) r
  | .getByKey source =>
    match source.triple? with
    | .error e => .finished (.found (.error (.key e))) r
    | .ok t => .finished (.found (.ok (r.store.read r.now t))) r
  | .checkStore => .finished (.checked (.ok ())) r
  | .reset => .finished (.dropped (.ok ())) { r with store := .empty }
  | .purge => .finished .quiet r
  | .advance by_ => .finished .quiet { r with now := r.now + by_ }

/-! ### The relation -/

/-- The stored form of a pair. -/
def storedPair (pair : Payload × Span) : StoredValue := ⟨pair.1.toBytes, pair.2⟩

/-- **A store shows what a table holds,** at this time and at any later one. -/
structure Agrees (c : PayloadCache) (w : StoreWorld MemoryStore) (r : StoreWorld PairTable) :
    Prop where
  /-- Both have the same clock. -/
  now_eq : w.now = r.now
  /-- A key has at most one entry. -/
  distinct : w.store.Distinct
  /-- A triple shows the stored form of its pair, up to the deadline. -/
  live_eq : ∀ later, w.now ≤ later → ∀ t : PayloadTriple,
    w.store.live later (t.key.inStore c.ns) =
      ((r.store t).map storedPair).filter fun v => later < v.expiresAt
  /-- The payloads in the table can be served. -/
  checked : ∀ t p deadline, r.store t = some (p, deadline) → ∃ b, p.check = .ok b

/-- Two runs end alike: with the same result, in worlds that are related. -/
inductive StoreRun.Matches {σ τ α : Type} (rel : StoreWorld σ → StoreWorld τ → Prop) :
    StoreRun σ α → StoreRun τ α → Prop where
  | finished (a : α) {w : StoreWorld σ} {r : StoreWorld τ} (h : rel w r) :
    StoreRun.Matches rel (.finished a w) (.finished a r)
  | stuck : StoreRun.Matches rel .stuck .stuck
  | crashed : StoreRun.Matches rel .crashed .crashed

/-- If single operations end alike, whole runs have the same answers. -/
theorem answers_eq_of_matches {σ τ : Type} {rel : StoreWorld σ → StoreWorld τ → Prop}
    {perform : StoreWorld σ → CacheOp → StoreRun σ CacheAnswer}
    {perform' : StoreWorld τ → CacheOp → StoreRun τ CacheAnswer}
    (step : ∀ w r op, rel w r → (perform w op).Matches rel (perform' r op)) (ops : List CacheOp)
    {w : StoreWorld σ} {r : StoreWorld τ} (h : rel w r) :
    answers perform ops w = answers perform' ops r := by
  induction ops generalizing w r with
  | nil => rfl
  | cons op ops ih =>
    have one := step w r op h
    rw [answers, answers]
    -- both sides end the list, or both go on from related worlds
    revert one
    generalize perform w op = left
    generalize perform' r op = right
    intro one
    cases one with
    | finished a h' => exact congrArg (a :: ·) (ih h')
    | stuck => rfl
    | crashed => rfl

/-- The payload that a proposer receives was checked. -/
theorem Submission.check_payload {s : Submission} {p : Payload} (h : s.payload = .ok p) :
    ∃ b, p.check = .ok b := by
  rw [payload] at h
  cases hc : (⟨s.fork, s.body⟩ : Payload).check with
  | error e => rw [hc] at h; cases h
  | ok b =>
    rw [hc] at h
    cases h
    exact ⟨b, hc⟩

/-- The one call of a submission with a payload, and what becomes of its answer. -/
theorem PayloadCache.saveSubmission_eq (c : PayloadCache) {s : Submission} {p : Payload}
    (h : s.payload = .ok p) :
    c.saveSubmission s =
      .call (.set ((PayloadTriple.ofBytes s.trace.slot s.trace.proposer
        s.trace.blockHash).key.inStore c.ns) p.toBytes c.ttl)
        fun answer => .done ((acknowledged answer).map fun _ => p) := by
  rw [saveSubmission, h]
  dsimp only
  rw [saveChecked, StoreProgram.bind]
  -- the call is the same; it remains to look at what is done with its answer
  refine congrArg _ (funext fun answer => ?_)
  rw [StoreProgram.bind]
  cases acknowledged answer with
  | ok _ => rfl
  | error e => rfl

namespace Agrees

variable {c : PayloadCache} {w : StoreWorld MemoryStore} {r : StoreWorld PairTable}

theorem initial (c : PayloadCache) (start : Span) :
    Agrees c ⟨start, .empty⟩ ⟨start, .empty⟩ where
  now_eq := rfl
  distinct := .empty
  live_eq _ _ _ := rfl
  checked t p deadline h := by cases h

/-- A change of the store that no reader can see. -/
theorem of_live_eq (h : Agrees c w r) {m : MemoryStore} (distinct : m.Distinct)
    (live : ∀ later, w.now ≤ later → ∀ key, m.live later key = w.store.live later key) :
    Agrees c { w with store := m } r where
  now_eq := h.now_eq
  distinct := distinct
  live_eq later hle t := (live later hle _).trans (h.live_eq later hle t)
  checked := h.checked

theorem sweep (h : Agrees c w r) : Agrees c { w with store := w.store.sweep w.now } r :=
  h.of_live_eq (h.distinct.sweep w.now) fun _ hle key =>
    MemoryStore.live_sweep h.distinct hle key

theorem get (h : Agrees c w r) (key : String) :
    Agrees c { w with store := (w.store.get w.now key).2 } r :=
  h.of_live_eq (h.distinct.get w.now key) fun _ hle other =>
    MemoryStore.live_get h.distinct hle key other

theorem clear (h : Agrees c w r) :
    Agrees c { w with store := w.store.clear } { r with store := .empty } where
  now_eq := h.now_eq
  distinct := .empty
  live_eq _ _ _ := rfl
  checked t p deadline h := by cases h

theorem advance (h : Agrees c w r) (by_ : Span) :
    Agrees c { w with now := w.now + by_ } { r with now := r.now + by_ } where
  now_eq := congrArg (· + by_) h.now_eq
  distinct := h.distinct
  live_eq later hle t :=
    h.live_eq later (Span.le_trans (Nat.le_add_right w.now.nanos by_.nanos) hle) t
  checked := h.checked

/-- A write under the address of a triple replaces the pair of this triple and of no other. -/
theorem put (h : Agrees c w r) {t : PayloadTriple} {p : Payload} {b : PayloadBody}
    (served : p.check = .ok b) {deadline : Span} {m : MemoryStore} (distinct : m.Distinct)
    (self : ∀ later, w.now ≤ later → m.live later (t.key.inStore c.ns) =
      (some (storedPair (p, deadline))).filter fun v => later < v.expiresAt)
    (others : ∀ later, w.now ≤ later → ∀ other, other ≠ t.key.inStore c.ns →
      m.live later other = w.store.live later other) :
    Agrees c { w with store := m } { r with store := r.store.put t p deadline } where
  now_eq := h.now_eq
  distinct := distinct
  live_eq later hle u := by
    dsimp only
    by_cases hu : u = t
    · rw [hu, self later hle, PairTable.put_self]
      rfl
    · -- another triple has another address, where the write changed nothing
      have apart : u.key.inStore c.ns ≠ t.key.inStore c.ns := by
        intro same
        exact hu (PayloadTriple.inStore_injective same).2
      calc m.live later (u.key.inStore c.ns)
          = w.store.live later (u.key.inStore c.ns) := others later hle _ apart
        _ = ((r.store u).map storedPair).filter fun v => later < v.expiresAt :=
            h.live_eq later hle u
        _ = ((r.store.put t p deadline u).map storedPair).filter fun v => later < v.expiresAt := by
            rw [PairTable.put_of_ne _ _ _ hu]
  -- the table holds served payloads only, and this one was just checked
  checked u q d hq := by
    dsimp only at hq
    by_cases hu : u = t
    · rw [hu, PairTable.put_self, Option.some.injEq, Prod.mk.injEq] at hq
      obtain ⟨rfl, -⟩ := hq
      exact ⟨b, served⟩
    · rw [PairTable.put_of_ne _ _ _ hu] at hq
      exact h.checked u q d hq

/-- **A save ends as the table says.** The continuation of the write is any that ends at once. -/
theorem replacePair {α : Type} (h : Agrees c w r) (t : PayloadTriple) {p : Payload}
    {b : PayloadBody} (served : p.check = .ok b) {next : StoreAnswer → StoreProgram α} {a : α}
    (ends : next (.ok none) = .done a) (f : α → CacheAnswer) :
    (((StoreProgram.call (.set (t.key.inStore c.ns) p.toBytes c.ttl) next).run
      MemoryStore.service w).map f).Matches (Agrees c) (r.replacePair c t p (f a)) := by
  -- both sides look at one clock, so the deadline is the same, or is not shown on either
  have same : deadline? r.now c.ttl = deadline? w.now c.ttl := by rw [h.now_eq]
  rw [StoreProgram.run_call, MemoryStore.act, StoreWorld.replacePair, same]
  cases hd : deadline? w.now c.ttl with
  | none =>
    rw [MemoryStore.set?_eq_none hd]
    exact .crashed
  | some deadline =>
    obtain ⟨m, hm, distinct, self, others⟩ :=
      MemoryStore.set?_eq_some h.distinct hd (t.key.inStore c.ns) p.toBytes
    rw [hm]
    dsimp only [Option.map_some]
    rw [ends, StoreProgram.run_done]
    exact .finished (f a) (h.put served distinct self others)

/-- **A read ends as the table says.** -/
theorem read (h : Agrees c w r) (t : PayloadTriple) :
    (((c.getByKey t.key).run MemoryStore.service w).map CacheAnswer.found).Matches (Agrees c)
      (.finished (.found (.ok (r.store.read r.now t))) r) := by
  have shown := MemoryStore.get_answer w.store w.now (t.key.inStore c.ns)
  -- the store answers from what the triple shows now, which the table knows
  rw [h.live_eq w.now (Nat.le_refl _) t] at shown
  have after := h.get (t.key.inStore c.ns)
  rw [PayloadCache.getByKey, StoreProgram.run_call, MemoryStore.act]
  revert shown after
  generalize w.store.get w.now (t.key.inStore c.ns) = got
  obtain ⟨found, m⟩ := got
  intro shown after
  dsimp only at shown after ⊢
  rw [shown, PairTable.read, ← h.now_eq]
  cases hpair : r.store t with
  | none => exact .finished _ after
  | some pair =>
    obtain ⟨p, deadline⟩ := pair
    obtain ⟨b, served⟩ := h.checked t p deadline hpair
    by_cases hlive : w.now < deadline
    · -- the bytes are those of a payload that was checked when it was saved
      have decoded : PayloadCache.decode (t.key.inStore c.ns) p.toBytes = .ok p := by
        rw [PayloadCache.decode, Payload.ofBytes?_toBytes]
        dsimp only
        rw [served]
      rw [Option.map_some, Option.filter_some, Option.filter_some, storedPair,
        decide_eq_true hlive, if_pos rfl, if_pos rfl, Option.map_some, Option.map_some]
      dsimp only
      rw [decoded]
      exact .finished _ after
    · -- expired on both sides, and perhaps dropped on one
      rw [Option.map_some, Option.filter_some, Option.filter_some, storedPair,
        decide_eq_false hlive, if_neg (by decide), if_neg (by decide)]
      exact .finished _ after

/-- **One operation ends alike on both sides** and keeps the relation. -/
theorem step (h : Agrees c w r) (op : CacheOp) :
    (op.perform c w).Matches (Agrees c) (op.expected c r) := by
  cases op with
  | save limit slot proposer block p =>
    rw [CacheOp.perform, CacheOp.expected, StoreProgram.runFor_eq_run, PayloadCache.save]
    -- the payload is refused before the key on both sides
    cases served : p.check with
    | error e => exact .finished _ h
    | ok b =>
      rw [PayloadTriple.ofTexts_eq]
      cases PayloadTriple.ofTexts slot proposer block with
      | error e => exact .finished _ h
      | ok t =>
        refine h.replacePair t served ?_ CacheAnswer.saved
        rfl
  | saveSubmission s =>
    rw [CacheOp.perform, CacheOp.expected]
    cases hp : s.payload with
    | error e =>
      rw [PayloadCache.saveSubmission, hp]
      exact .finished _ h
    | ok p =>
      obtain ⟨b, served⟩ := Submission.check_payload hp
      rw [PayloadCache.saveSubmission_eq c hp]
      refine h.replacePair _ served ?_ CacheAnswer.submitted
      rfl
  | get limit slot proposer block =>
    rw [CacheOp.perform, CacheOp.expected, StoreProgram.runFor_eq_run, PayloadCache.get,
      PayloadTriple.ofTexts_eq]
    cases PayloadTriple.ofTexts slot proposer block with
    | error e => exact .finished _ h
    | ok t => exact h.read t
  | getByKey source =>
    rw [CacheOp.perform, CacheOp.expected, source.key?_eq]
    cases source.triple? with
    | error e => exact .finished _ h
    | ok t => exact h.read t
  -- the read of the health key may drop an entry, which nobody sees
  | checkStore => exact .finished _ (h.get (healthKey c.ns))
  | reset => exact .finished _ h.clear
  | purge => exact .finished _ h.sweep
  | advance by_ => exact .finished _ (h.advance by_)

end Agrees

/-! ### Whole runs -/

/-- On the table no read ever fails to decode. -/
theorem CacheOp.undecoded_expected (c : PayloadCache) {r r' : StoreWorld PairTable} (op : CacheOp)
    {a : CacheAnswer} (h : op.expected c r = .finished a r') : a.undecoded = false := by
  -- whatever a write is answered was fixed before it
  have written (t : PayloadTriple) (p : Payload) (told : CacheAnswer)
      (plain : told.undecoded = false) (h : r.replacePair c t p told = .finished a r') :
      a.undecoded = false := by
    rw [StoreWorld.replacePair] at h
    split at h
    · cases h
    · cases h
      exact plain
  cases op with
  | save limit slot proposer block p =>
    rw [expected] at h
    split at h
    · cases h; rfl
    · split at h
      · cases h; rfl
      · exact written _ _ _ rfl h
  | saveSubmission s =>
    rw [expected] at h
    split at h
    · cases h; rfl
    · exact written _ _ _ rfl h
  -- a read finds a payload or nothing
  | get limit slot proposer block =>
    rw [expected] at h
    split at h
    · cases h; rfl
    · cases h; rfl
  | getByKey source =>
    rw [expected] at h
    split at h
    · cases h; rfl
    · cases h; rfl
  | checkStore => cases h; rfl
  | reset => cases h; rfl
  | purge => cases h; rfl
  | advance by_ => cases h; rfl

/-- The table has no answer about bytes that cannot be decoded: it holds payloads, not bytes. -/
theorem undecoded_answers_expected (c : PayloadCache) (ops : List CacheOp)
    (r : StoreWorld PairTable) :
    ∀ a ∈ answers (CacheOp.expected c) ops r, a.undecoded = false := by
  induction ops generalizing r with
  | nil => intro a ha; cases ha
  | cons op ops ih =>
    intro a ha
    rw [answers] at ha
    cases hop : op.expected c r with
    | finished a' r' =>
      rw [hop] at ha
      -- the first answer, or one of those after it
      rcases List.mem_cons.1 ha with rfl | ha
      · exact op.undecoded_expected c hop
      · exact ih r' a ha
    | stuck => rw [hop] at ha; cases ha
    | crashed => rw [hop] at ha; cases ha

/-- A write on the table ends the process only when the clock cannot show its deadline. -/
theorem StoreWorld.replacePair_finished {c : PayloadCache} {r : StoreWorld PairTable}
    (shown : r.now + c.ttl ≤ lastMoment) (t : PayloadTriple) (p : Payload) (a : CacheAnswer) :
    ∃ store, r.replacePair c t p a = .finished a { r with store } := by
  rw [replacePair, deadline?, if_pos shown]
  exact ⟨_, rfl⟩

/-- While the clock can show its deadlines, a run on the table answers every operation. -/
theorem length_answers_expected (c : PayloadCache) (ops : List CacheOp) (r : StoreWorld PairTable)
    (shown : c.DeadlinesShown r.now ops) :
    (answers (CacheOp.expected c) ops r).length = ops.length := by
  induction ops generalizing r with
  | nil => rfl
  | cons op ops ih =>
    -- it is enough that the first operation ends, at the time from which the rest is shown
    have next {a : CacheAnswer} {r' : StoreWorld PairTable}
        (ends : op.expected c r = .finished a r') (rest : c.DeadlinesShown r'.now ops) :
        (answers (CacheOp.expected c) (op :: ops) r).length = (op :: ops).length := by
      rw [answers, ends, List.length_cons, List.length_cons]
      exact congrArg (· + 1) (ih r' rest)
    cases op with
    -- a refused save answers at once, and the deadline of the other can be expressed
    | save limit slot proposer block p =>
      rw [PayloadCache.DeadlinesShown] at shown
      cases served : p.check with
      | error e => exact next (by rw [CacheOp.expected, served]) shown.2
      | ok b =>
        cases ht : PayloadTriple.ofTexts slot proposer block with
        | error e => exact next (by rw [CacheOp.expected, served, ht]) shown.2
        | ok t =>
          obtain ⟨store, ends⟩ := r.replacePair_finished shown.1 t p (.saved (.ok ()))
          refine next (Eq.trans ?_ ends) shown.2
          rw [CacheOp.expected, served, ht]
    | saveSubmission s =>
      rw [PayloadCache.DeadlinesShown] at shown
      cases hp : s.payload with
      | error e => exact next (by rw [CacheOp.expected, hp]) shown.2
      | ok p =>
        obtain ⟨store, ends⟩ := r.replacePair_finished shown.1
          (.ofBytes s.trace.slot s.trace.proposer s.trace.blockHash) p (.submitted (.ok p))
        refine next (Eq.trans ?_ ends) shown.2
        rw [CacheOp.expected, hp]
    -- reads always answer
    | get limit slot proposer block =>
      cases ht : PayloadTriple.ofTexts slot proposer block with
      | error e => exact next (by rw [CacheOp.expected, ht]) shown
      | ok t => exact next (by rw [CacheOp.expected, ht]) shown
    | getByKey source =>
      cases ht : source.triple? with
      | error e => exact next (by rw [CacheOp.expected, ht]) shown
      | ok t => exact next (by rw [CacheOp.expected, ht]) shown
    | checkStore => exact next rfl shown
    | reset => exact next rfl shown
    | purge => exact next rfl shown
    | advance by_ => exact next rfl shown

/-- **The answers of a cache are those of the table.** For every run from an empty store, with any
lifetime: each operation answers what the reference machine answers, and the process ends only
where the machine's does; no read fails to decode; and if the clock can show the deadlines, every
operation is answered. -/
theorem answers_eq_expected (c : PayloadCache) (start : Span) (ops : List CacheOp) :
    answers (CacheOp.perform c) ops ⟨start, .empty⟩ =
        answers (CacheOp.expected c) ops ⟨start, .empty⟩ ∧
      (∀ a ∈ answers (CacheOp.perform c) ops ⟨start, .empty⟩, a.undecoded = false) ∧
      (c.DeadlinesShown start ops →
        (answers (CacheOp.perform c) ops ⟨start, .empty⟩).length = ops.length) := by
  -- the two runs agree step by step
  have same : answers (CacheOp.perform c) ops ⟨start, .empty⟩ =
      answers (CacheOp.expected c) ops ⟨start, .empty⟩ :=
    answers_eq_of_matches (fun _ _ op h => h.step op) ops (Agrees.initial c start)
  refine ⟨same, ?_, ?_⟩
  · rw [same]
    exact undecoded_answers_expected c ops _
  · intro shown
    rw [same]
    exact length_answers_expected c ops _ shown

/-- A payload of the smallest fork that has one. -/
def bellatrixPayload : Payload where
  fork := .bellatrix
  body := some {
    parentHash := .zero 32
    feeRecipient := .zero 20
    stateRoot := .zero 32
    receiptsRoot := .zero 32
    logsBloom := .zero 256
    prevRandao := .zero 32
    blockNumber := 17
    gasLimit := 30000000
    gasUsed := 21000
    timestamp := 1700000000
    extraData := []
    baseFeePerGas := 7
    blockHash := ⟨List.replicate 32 1, List.length_replicate⟩
    transactions := [[2, 3]]
    withdrawals := none
    blobGasUsed := none
    excessBlobGas := none }

/-- A payload saved under one spelling of a triple and read under another, a nanosecond before its
deadline and at its deadline. -/
def readsAcrossDeadline : List CacheOp :=
  [.save none 7 "0xAB" "cd" bellatrixPayload,
    .advance ⟨44999999999⟩, .purge, .get (some ⟨0⟩) 7 "ab" "0XCD",
    .advance ⟨1⟩, .getByKey (.texts 7 "AB" "Cd")]

/-- The sample run: the payload is served before its deadline, and is gone afterwards. -/
theorem answers_readsAcrossDeadline :
    PayloadCache.standard.DeadlinesShown ⟨0⟩ readsAcrossDeadline ∧
      answers (CacheOp.perform .standard) readsAcrossDeadline ⟨⟨0⟩, .empty⟩ =
        [.saved (.ok ()), .quiet, .quiet, .found (.ok (some bellatrixPayload)), .quiet,
          .found (.ok none)] ∧
      (answers (CacheOp.perform .standard) readsAcrossDeadline ⟨⟨0⟩, .empty⟩).length = 6 := by
  have shown : PayloadCache.standard.DeadlinesShown ⟨0⟩ readsAcrossDeadline :=
    ⟨by decide, trivial⟩
  obtain ⟨same, -, all⟩ := answers_eq_expected .standard ⟨0⟩ readsAcrossDeadline
  exact ⟨shown, same.trans rfl, all shown⟩

end BlockRelay
