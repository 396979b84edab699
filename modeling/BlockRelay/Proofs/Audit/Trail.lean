import BlockRelay.Proofs.Audit.Rows
import BlockRelay.Proofs.Cache.Calls
import BlockRelay.Proofs.Wire.Described

/-!
# What the row of a submission leads back to

The row of a submission says everything twice: in its columns, as numbers and texts, and in the
whole submission, a value whose fields have been sorted. The cache says a part of it a third time,
in the key under which the payload was saved. Whoever has the row can start from any of them.

* `SubmissionRow.ofJson?_payload` — the kept value is read as the submission, since readers find
  fields by their names (`Submission.ofJson?_sorted`).
* `BidColumns.TakenFrom` — what the columns say of a submission; of its body only a height and a
  number, which are zero if there is none.
* `SubmissionRow.leads_back` puts them together, with the key.
-/

namespace BlockRelay

namespace BidColumns

/-- **The columns say of a bid what its submission says.** -/
structure TakenFrom (s : Submission) (b : BidColumns) : Prop where
  slot : b.slot = s.trace.slot
  /-- The slot is one of the thirty-two of the epoch. -/
  epoch : 32 * b.epoch.toNat ≤ b.slot.toNat ∧ b.slot.toNat < 32 * b.epoch.toNat + 32
  builder : FixedBytes.parse 48 b.builder = .ok s.trace.builder
  proposer : FixedBytes.parse 48 b.proposer = .ok s.trace.proposer
  feeRecipient : FixedBytes.parse 20 b.feeRecipient = .ok s.trace.feeRecipient
  parentHash : FixedBytes.parse 32 b.parentHash = .ok s.trace.parentHash
  blockHash : FixedBytes.parse 32 b.blockHash = .ok s.trace.blockHash
  blockNumber : b.blockNumber = s.body.elim 0 fun body => body.blockNumber
  /-- The count has 64 bits. -/
  transactionCount :
    b.transactionCount.toNat = (s.body.elim 0 fun body => body.transactions.length) % UInt64.size
  value : b.value = s.trace.value
  gasUsed : b.gasUsed = s.trace.gasUsed
  gasLimit : b.gasLimit = s.trace.gasLimit

/-- A slot lies within its epoch of 32 slots. -/
theorem epoch_bounds (slot : UInt64) :
    32 * (slot / slotsPerEpoch).toNat ≤ slot.toNat ∧
      slot.toNat < 32 * (slot / slotsPerEpoch).toNat + 32 := by
  have quotient : (slot / slotsPerEpoch).toNat = slot.toNat / 32 := by
    rw [UInt64.toNat_div]
    rfl
  rw [quotient]
  omega

/-- The columns made for a submission are taken from it. -/
theorem takenFrom_ofSubmission (s : Submission) : (ofSubmission s).TakenFrom s where
  slot := rfl
  -- computed from the slot; the keys and hashes below are read back from their texts
  epoch := epoch_bounds s.trace.slot
  builder := s.trace.builder.parse_text
  proposer := s.trace.proposer.parse_text
  feeRecipient := s.trace.feeRecipient.parse_text
  parentHash := s.trace.parentHash.parse_text
  blockHash := s.trace.blockHash.parse_text
  blockNumber := rfl
  transactionCount := UInt64.toNat_ofNat'
  value := rfl
  gasUsed := rfl
  gasLimit := rfl

/-- The columns are the key of the cache, in texts. -/
theorem ofTexts_ofSubmission (s : Submission) :
    PayloadKey.ofTexts (ofSubmission s).slot (ofSubmission s).proposer (ofSubmission s).blockHash =
      .ok (.ofBytes s.trace.slot s.trace.proposer s.trace.blockHash) :=
  Hex.ofTexts_eq_ofBytes s.trace.slot s.trace.proposer.parse_text s.trace.blockHash.parse_text

end BidColumns

namespace SubmissionRow

/-- The value that a row keeps is read as the submission. -/
theorem ofJson?_payload (s : Submission) :
    Submission.ofJson? (ofSubmission s).payload = some s :=
  Submission.ofJson?_sorted s.ofJson?_toJson

theorem read?_payload (s : Submission) :
    Json.read? (ofSubmission s).payload.render = some (ofSubmission s).payload :=
  Json.read?_render (kept_ofSubmission s).plain

/-- **A row leads back to its submission and to the cache.** For every submission:

* the value in its row, or the text of that value, is read as the submission and as no other;
* the columns of the row are those of the submission that was read, and say what it says;
* the slot, the proposer and the block hash in the columns are texts of one key. Under this key
  every cache saves the payload of the submission, unless the payload is refused, and reads what
  the columns ask for. -/
theorem leads_back (s : Submission) :
    let row := ofSubmission s
    (Json.read? row.payload.render).bind Submission.ofJson? = some s ∧
    (∀ read, Submission.ofJson? row.payload = some read ↔ read = s) ∧
    (∀ read, Submission.ofJson? row.payload = some read →
      BidColumns.ofSubmission read = row.bid ∧ row.bid.TakenFrom read) ∧
    ∃ key, PayloadKey.ofTexts row.bid.slot row.bid.proposer row.bid.blockHash = .ok key ∧
      ∀ c : PayloadCache,
        (∀ e, (⟨s.fork, s.body⟩ : Payload).check = .error e →
          (c.saveSubmission s).Refuses (.payload e)) ∧
        (∀ b, (⟨s.fork, s.body⟩ : Payload).check = .ok b →
          (c.saveSubmission s).Asks
            (.set (key.inStore c.ns) (Payload.toBytes ⟨s.fork, s.body⟩) c.ttl)
            fun answer => (PayloadCache.acknowledged answer).map fun _ => ⟨s.fork, s.body⟩) ∧
        (c.get row.bid.slot row.bid.proposer row.bid.blockHash).Asks (.get (key.inStore c.ns))
          (PayloadCache.found (key.inStore c.ns)) := by
  intro row
  have decoded : Submission.ofJson? row.payload = some s := ofJson?_payload s
  -- the reader is a function, so what it reads is `s` and nothing else
  have same (read : Submission) : Submission.ofJson? row.payload = some read ↔ read = s := by
    rw [decoded, Option.some_inj, eq_comm]
  refine ⟨?_, same, ?_, _, BidColumns.ofTexts_ofSubmission s, ?_⟩
  · show (Json.read? (ofSubmission s).payload.render).bind Submission.ofJson? = some s
    rw [read?_payload, Option.bind_some]
    exact decoded
  · intro read h
    obtain rfl := (same read).1 h
    exact ⟨rfl, BidColumns.takenFrom_ofSubmission read⟩
  · -- saving and getting name the same key, since the columns spell the trace's
    intro c
    refine ⟨?_, ?_, ?_⟩
    · intro e refused
      exact c.saveSubmission_refuses refused
    · intro b accepted
      exact c.saveSubmission_asks accepted
    · exact c.get_asks (BidColumns.ofTexts_ofSubmission s)

/-- A bid for the last slot that there is, of the highest value. -/
def highestBid : Submission where
  fork := .bellatrix
  trace := {
    slot := 0xFFFFFFFFFFFFFFFF
    parentHash := .zero 32
    blockHash := .zero 32
    builder := .zero 48
    proposer := .zero 48
    feeRecipient := .zero 20
    gasLimit := 0xFFFFFFFFFFFFFFFF
    gasUsed := 0
    value := .allOnes 256 }
  body := bellatrixPayload.body
  signature := .zero 96

/-- With its body it is read back and saved under the key in its row; without one it is read back
just as well, with zeros in the row, and its payload is refused. -/
theorem leads_back_highestBid :
    let row := ofSubmission highestBid
    let bare : Submission := { highestBid with body := none }
    Submission.ofJson? row.payload = some highestBid ∧ row.bid.TakenFrom highestBid ∧
    row.bid.transactionCount = 1 ∧
    (∃ key told, PayloadKey.ofTexts row.bid.slot row.bid.proposer row.bid.blockHash = .ok key ∧
      (PayloadCache.standard.saveSubmission highestBid).Asks
        (.set (key.inStore "boost-relay") bellatrixPayload.toBytes ⟨45000000000⟩) told) ∧
    Submission.ofJson? (ofSubmission bare).payload = some bare ∧
    (ofSubmission bare).bid.transactionCount = 0 ∧ (ofSubmission bare).bid.blockNumber = 0 ∧
    (PayloadCache.standard.saveSubmission bare).Refuses (.payload .empty) := by
  intro row bare
  obtain ⟨-, reads, taken, key, named, caches⟩ := leads_back highestBid
  -- without a body the columns count nothing and the cache takes nothing
  obtain ⟨-, readsBare, -, key', -, cachesBare⟩ := leads_back bare
  have served : (⟨highestBid.fork, highestBid.body⟩ : Payload).check = .ok _ := rfl
  have refused : (⟨bare.fork, bare.body⟩ : Payload).check = .error .empty := rfl
  have back := (reads highestBid).2 rfl
  obtain ⟨-, columns⟩ := taken highestBid back
  exact ⟨back, columns, rfl, ⟨key, _, named, (caches .standard).2.1 _ served⟩,
    (readsBare bare).2 rfl, rfl, rfl, (cachesBare .standard).1 _ refused⟩

end SubmissionRow

end BlockRelay
