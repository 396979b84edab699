import BlockRelay.Proofs.Cache.Refinement

/-!
# Payloads and commitments

A proposer asks for the payload of a block hash that it has committed to. A submission has two
block hashes, one in its trace and one in its body; it is saved under the hash of the trace, and
nothing on the way compares the two. So what is served to a proposer need not carry the hash that
it asked for (`not_served_as_committed`). What does hold, in every run in which payloads come from
submissions only, is `served_of_submitted`: a served payload is that of the last submission which
was accepted for exactly this triple (`lastSubmitted?`), and it carries the hash that was asked for
if and only if this submission has one and the same hash in both places.

The proof goes through the table of the reference machine (`CacheOp.expected`): `Records` says that
each payload in the table is that of the last accepted submission of its triple.
-/

namespace BlockRelay

namespace Submission

/-- What the payload of a submission is saved under. -/
def triple (s : Submission) : PayloadTriple :=
  .ofBytes s.trace.slot s.trace.proposer s.trace.blockHash

/-- Whether a submission has the same block hash in its trace and in its body. -/
def Consistent (s : Submission) : Prop := ∀ b, s.body = some b → b.blockHash = s.trace.blockHash

end Submission

namespace CacheOp

/-- Whether an operation saves a payload under a triple that its caller names. -/
def isSave : CacheOp → Bool
  | .save _ _ _ _ _ => true
  | _ => false

/-- The submission accepted last for a triple, after an operation. -/
def submitted (t : PayloadTriple) (last : Option Submission) : CacheOp → Option Submission
  | .saveSubmission s => if s.triple = t ∧ s.payload.isOk then some s else last
  | .reset => none
  | _ => last

end CacheOp

/-- **The submission accepted last for a triple** in a sequence of operations. -/
def lastSubmitted? (t : PayloadTriple) (ops : List CacheOp) : Option Submission :=
  ops.foldl (CacheOp.submitted t) none

theorem FixedBytes.eq_of_toList {n : Nat} {a b : FixedBytes n} (h : a.toList = b.toList) :
    a = b := by
  obtain ⟨_, _⟩ := a
  cases h
  rfl

/-- What the check of a payload gives is its body. -/
theorem Payload.body_of_check {p : Payload} {b : PayloadBody} (h : p.check = .ok b) :
    p.body = some b := by
  unfold check at h
  split at h
  · split at h
    · cases h
    · -- past the tests of the fork there is a body, and the last test hands it on
      next b' hb =>
      split at h
      · cases h
      · split at h
        · cases h
          exact hb
        · cases h
  · cases h

/-- The payload of a submission is its fork and its body, and there is a body. -/
theorem Submission.eq_of_payload {s : Submission} {p : Payload} (h : s.payload = .ok p) :
    ∃ b, s.body = some b ∧ p = ⟨s.fork, some b⟩ := by
  obtain ⟨b, served⟩ := check_payload h
  -- the payload is put together from the submission before it is checked
  have same : p = ⟨s.fork, s.body⟩ := by
    unfold payload at h
    dsimp only at h
    split at h
    · cases h
      rfl
    · cases h
  have body : s.body = some b := by
    rw [same] at served
    exact Payload.body_of_check served
  exact ⟨b, body, by rw [same, body]⟩

/-- What counts as submitted was submitted by one of the operations, or counted before. -/
theorem mem_of_foldl_submitted {t : PayloadTriple} {s : Submission} (ops : List CacheOp)
    {last : Option Submission} (h : ops.foldl (CacheOp.submitted t) last = some s) :
    last = some s ∨ CacheOp.saveSubmission s ∈ ops := by
  induction ops generalizing last with
  | nil => exact .inl h
  | cons op ops ih =>
    rcases ih h with now_ | later
    · -- the operation itself, or what was there before it
      cases op with
      | saveSubmission s' =>
        rw [CacheOp.submitted] at now_
        split at now_
        · cases now_
          exact .inr List.mem_cons_self
        · exact .inl now_
      | reset => cases now_
      | _ => exact .inl now_
    · exact .inr (List.mem_cons_of_mem op later)

/-! ### The table -/

/-- **Each payload in a table is that of the last accepted submission** of its triple. -/
def Records (last : PayloadTriple → Option Submission) (table : PairTable) : Prop :=
  ∀ t p deadline, table t = some (p, deadline) →
    ∃ s, last t = some s ∧ s.triple = t ∧ s.payload = .ok p

namespace Records

variable {c : PayloadCache} {last : PayloadTriple → Option Submission}
  {r r' : StoreWorld PairTable} {a : CacheAnswer}

/-- Saving an accepted submission keeps the record true. -/
theorem put (h : Records last r.store) {s : Submission} {p : Payload} (accepted : s.payload = .ok p)
    (deadline : Span) :
    Records (fun t => (CacheOp.saveSubmission s).submitted t (last t))
      (r.store.put s.triple p deadline) := by
  have ok : s.payload.isOk = true := by rw [accepted]; rfl
  intro t q d found
  -- at its own triple the submission is the last one; nothing else changed
  by_cases same : t = s.triple
  · subst same
    rw [PairTable.put_self] at found
    cases found
    exact ⟨s, if_pos ⟨rfl, ok⟩, rfl, accepted⟩
  · rw [PairTable.put_of_ne _ _ _ same] at found
    obtain ⟨s', was, triple, payload⟩ := h t q d found
    have stays : (CacheOp.saveSubmission s).submitted t (last t) = last t :=
      if_neg fun both => same both.1.symm
    exact ⟨s', stays.trans was, triple, payload⟩

/-- **Every operation but a plain save keeps the record.** -/
theorem step (h : Records last r.store) {op : CacheOp} (noSave : op.isSave = false)
    (ends : op.expected c r = .finished a r') :
    Records (fun t => op.submitted t (last t)) r'.store := by
  cases op with
  | save limit slot proposer block p => cases noSave
  -- the only operation that writes here
  | saveSubmission s =>
    rw [CacheOp.expected] at ends
    cases hp : s.payload with
    | error e =>
      rw [hp] at ends
      cases ends
      -- what is refused replaces nothing
      have refused (t : PayloadTriple) :
          (CacheOp.saveSubmission s).submitted t (last t) = last t := by
        refine if_neg fun both => ?_
        rw [hp] at both
        cases both.2
      intro t p d found
      obtain ⟨s', was, triple, payload⟩ := h t p d found
      exact ⟨s', (refused t).trans was, triple, payload⟩
    | ok p =>
      rw [hp] at ends
      dsimp only at ends
      rw [StoreWorld.replacePair] at ends
      split at ends
      · cases ends
      · next deadline shown =>
        cases ends
        exact h.put hp deadline
  -- reading leaves the table as it is
  | get limit slot proposer block =>
    rw [CacheOp.expected] at ends
    split at ends
    · cases ends
      exact h
    · cases ends
      exact h
  | getByKey source =>
    rw [CacheOp.expected] at ends
    split at ends
    · cases ends
      exact h
    · cases ends
      exact h
  | checkStore =>
    cases ends
    exact h
  -- an empty table needs no record
  | reset =>
    cases ends
    intro t p d found
    cases found
  | purge =>
    cases ends
    exact h
  | advance by_ =>
    cases ends
    exact h

/-- A read finds a payload that is in the record. -/
theorem of_read (h : Records last r.store) {slot : UInt64} {proposer : PublicKey} {hash : Hash}
    {p : Payload}
    (ends : (CacheOp.getByKey (.bytes slot proposer hash)).expected c r =
      .finished (.found (.ok (some p))) r') :
    ∃ s, last (.ofBytes slot proposer hash) = some s ∧
      s.triple = .ofBytes slot proposer hash ∧ s.payload = .ok p := by
  rw [CacheOp.expected, KeySource.triple?] at ends
  dsimp only at ends
  injection ends with told
  injection told with told
  injection told with read
  obtain ⟨⟨q, deadline⟩, alive, rfl⟩ := Option.map_eq_some_iff.1 read
  exact h _ q deadline (Option.filter_eq_some_iff.1 alive).1

/-- A read in the middle of a run finds a payload that is in the record of what came before. -/
theorem of_answers (ops : List CacheOp) (h : Records last r.store)
    (noSave : ∀ op ∈ ops, op.isSave = false) {n : Nat} {slot : UInt64} {proposer : PublicKey}
    {hash : Hash} (asked : ops[n]? = some (.getByKey (.bytes slot proposer hash))) {p : Payload}
    (served : (answers (CacheOp.expected c) ops r)[n]? = some (.found (.ok (some p)))) :
    ∃ s, (ops.take n).foldl (CacheOp.submitted (.ofBytes slot proposer hash))
        (last (.ofBytes slot proposer hash)) = some s ∧
      s.triple = .ofBytes slot proposer hash ∧ s.payload = .ok p := by
  -- the record follows the table through the operations before the reading
  induction ops generalizing last r n with
  | nil => cases asked
  | cons op ops ih =>
    rw [answers] at served
    split at served
    · next a r' ends =>
      cases n with
      -- the reading itself: what the table holds is on record
      | zero =>
        rw [List.getElem?_cons_zero] at asked served
        cases asked
        cases served
        exact h.of_read ends
      | succ n =>
        rw [List.getElem?_cons_succ] at asked served
        have after := h.step (noSave op List.mem_cons_self) ends
        exact ih after (fun op hop => noSave op (List.mem_cons_of_mem _ hop)) asked served
    · cases served
    · cases served

end Records

/-! ### What proposers are served -/

/-- **A served payload is that of the last accepted submission.** In every run from an empty store
in which payloads come from submissions only, what is served for typed bytes is the body and the
fork of the submission accepted last for just these. It carries the block hash that was asked for
exactly when that submission is consistent, and hence if all submissions are. -/
theorem served_of_submitted (c : PayloadCache) (start : Span) {ops : List CacheOp}
    (noSave : ∀ op ∈ ops, op.isSave = false) {n : Nat} {slot : UInt64} {proposer : PublicKey}
    {hash : Hash} (asked : ops[n]? = some (.getByKey (.bytes slot proposer hash))) {p : Payload}
    (served : (answers (CacheOp.perform c) ops ⟨start, .empty⟩)[n]? =
      some (.found (.ok (some p)))) :
    (∃ s b, lastSubmitted? (.ofBytes slot proposer hash) (ops.take n) = some s ∧
      s.trace.slot = slot ∧ s.trace.proposer = proposer ∧ s.trace.blockHash = hash ∧
      s.body = some b ∧ p = ⟨s.fork, some b⟩ ∧ (p.blockHash? = some hash ↔ s.Consistent)) ∧
    ((∀ s, CacheOp.saveSubmission s ∈ ops.take n → s.Consistent) → p.blockHash? = some hash) := by
  have table : answers (CacheOp.perform c) ops ⟨start, .empty⟩ =
      answers (CacheOp.expected c) ops ⟨start, .empty⟩ :=
    answers_eq_of_matches (fun _ _ op h => h.step op) ops (Agrees.initial c start)
  rw [table] at served
  have nothing : Records (fun _ => none) PairTable.empty := fun t p d found => by cases found
  obtain ⟨s, last, triple, accepted⟩ := Records.of_answers ops nothing noSave asked served
  obtain ⟨b, body, rfl⟩ := s.eq_of_payload accepted
  -- the triple of the trace has the bytes that were asked for
  injection triple with slot_eq proposer_eq hash_eq
  have hash_eq : s.trace.blockHash = hash := FixedBytes.eq_of_toList hash_eq
  -- the payload served has the hash asked for if the body has that of the trace
  have carries : (⟨s.fork, some b⟩ : Payload).blockHash? = some hash ↔ s.Consistent := by
    rw [Payload.blockHash?, Option.map_some, Option.some_inj, Submission.Consistent, body]
    constructor
    · intro same b' hb'
      cases hb'
      exact same.trans hash_eq.symm
    · intro consistent
      exact (consistent b rfl).trans hash_eq
  refine ⟨⟨s, b, last, slot_eq, FixedBytes.eq_of_toList proposer_eq, hash_eq, body, rfl, carries⟩,
    ?_⟩
  intro consistent
  -- nothing had been submitted before the run
  rcases mem_of_foldl_submitted _ last with no | submitted
  · cases no
  · exact carries.2 (consistent s submitted)

/-- A submission of `bellatrixPayload` that is made out for a block hash. -/
def submissionFor (hash : Hash) : Submission where
  fork := .bellatrix
  trace := {
    slot := 100
    parentHash := .zero 32
    blockHash := hash
    builder := .zero 48
    proposer := ⟨List.replicate 48 3, List.length_replicate⟩
    feeRecipient := .zero 20
    gasLimit := 30000000
    gasUsed := 21000
    value := 1 }
  body := bellatrixPayload.body
  signature := .zero 96

/-- It is saved, and its proposer asks for the block hash of its trace. -/
def runFor (hash : Hash) : List CacheOp :=
  [.saveSubmission (submissionFor hash), .advance ⟨1⟩,
    .getByKey (.bytes 100 (submissionFor hash).trace.proposer hash)]

theorem noSave_runFor (hash : Hash) : ∀ op ∈ runFor hash, op.isSave = false := by
  simp [runFor, CacheOp.isSave]

/-- The payload is served, whatever the block hash is. -/
theorem answers_runFor (hash : Hash) :
    answers (CacheOp.perform .standard) (runFor hash) ⟨⟨0⟩, .empty⟩ =
      [.submitted (.ok bellatrixPayload), .quiet, .found (.ok (some bellatrixPayload))] := by
  -- the store answers as the table does, and the table can be computed
  have table : answers (CacheOp.perform .standard) (runFor hash) ⟨⟨0⟩, .empty⟩ =
      answers (CacheOp.expected .standard) (runFor hash) ⟨⟨0⟩, .empty⟩ :=
    answers_eq_of_matches (fun _ _ op h => h.step op) (runFor hash) (Agrees.initial .standard ⟨0⟩)
  have accepted : (submissionFor hash).payload = .ok bellatrixPayload := rfl
  have shown : deadline? ⟨0⟩ PayloadCache.standard.ttl = some ⟨45000000000⟩ := rfl
  have triple : PayloadTriple.ofBytes (submissionFor hash).trace.slot
      (submissionFor hash).trace.proposer (submissionFor hash).trace.blockHash =
      .ofBytes 100 (submissionFor hash).trace.proposer hash := rfl
  rw [table, runFor]
  simp only [answers, CacheOp.expected, accepted, StoreWorld.replacePair, shown,
    KeySource.triple?, PairTable.read, triple, PairTable.put_self]
  rfl

/-- With the block hash of the body in the trace, the proposer is served what it asked for. -/
theorem served_of_submitted_runFor :
    let hash : Hash := ⟨List.replicate 32 1, List.length_replicate⟩
    (∃ s, lastSubmitted? (.ofBytes 100 (submissionFor hash).trace.proposer hash)
        ((runFor hash).take 2) = some s ∧ s.Consistent) ∧
      bellatrixPayload.blockHash? = some hash := by
  intro hash
  -- the one submission names in its trace the hash of its body
  have consistent : ∀ s, CacheOp.saveSubmission s ∈ (runFor hash).take 2 → s.Consistent := by
    intro s hs
    have same : s = submissionFor hash := by simpa [runFor] using hs
    rw [same]
    intro b hb
    cases hb
    rfl
  have found : (answers (CacheOp.perform .standard) (runFor hash) ⟨⟨0⟩, .empty⟩)[2]? =
      some (.found (.ok (some bellatrixPayload))) := by
    rw [answers_runFor]
    rfl
  obtain ⟨⟨s, b, last, -, -, -, -, -, carries⟩, all⟩ :=
    served_of_submitted .standard ⟨0⟩ (noSave_runFor hash) rfl found
  have served := all consistent
  exact ⟨⟨s, last, carries.1 served⟩, served⟩

/-- **A proposer can be served another block than the one it committed to:** nothing compares the
block hash of the trace with that of the body. -/
theorem not_served_as_committed :
    let committed : Hash := ⟨List.replicate 32 9, List.length_replicate⟩
    (answers (CacheOp.perform .standard) (runFor committed) ⟨⟨0⟩, .empty⟩)[2]? =
        some (.found (.ok (some bellatrixPayload))) ∧
      bellatrixPayload.blockHash? ≠ some committed := by
  intro committed
  have found : (answers (CacheOp.perform .standard) (runFor committed) ⟨⟨0⟩, .empty⟩)[2]? =
      some (.found (.ok (some bellatrixPayload))) := by
    rw [answers_runFor]
    rfl
  have other : bellatrixPayload.blockHash? ≠ some committed := by decide
  exact ⟨found, other⟩

end BlockRelay
