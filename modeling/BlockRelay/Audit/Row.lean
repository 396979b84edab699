import BlockRelay.Bid.Registration
import BlockRelay.Bid.Submission

/-!
# Audit rows

What the relay writes down for the record: registrations, submissions, the outcomes of
simulating them, and delivered payloads. Columns that are searched are plain numbers and texts;
whole objects are kept as free JSON values. Submissions and deliveries share the columns of the
bid (`BidColumns`), which stand in their JSON text at the same level as their own fields.
-/

namespace BlockRelay

/-- The number of slots in an epoch. -/
def slotsPerEpoch : UInt64 := 32

/-! ### Registrations -/

/-- The row of a registration. -/
structure RegistrationRow where
  pubkey : String
  feeRecipient : String
  timestamp : UInt64
  /-- The most gas that a block may use. -/
  gasLimit : UInt64
  signature : String
deriving DecidableEq

namespace RegistrationRow

/-- The row of a registration. -/
def ofRegistration (r : Registration) : RegistrationRow where
  pubkey := r.preferences.proposer.text
  feeRecipient := r.preferences.feeRecipient.text
  timestamp := r.preferences.timestamp
  gasLimit := r.preferences.gasLimit
  signature := r.signature.text

/-- The fields in declared order. -/
def names : List String := ["pubkey", "fee_recipient", "timestamp", "gas_limit", "signature"]

/-- Reads a row. -/
def ofJson? (j : Json) : Option RegistrationRow := do
  let [pubkey, feeRecipient, timestamp, gasLimit, signature] ← j.fields? names | none
  return {
    pubkey := ← Json.required? Json.text? pubkey
    feeRecipient := ← Json.required? Json.text? feeRecipient
    timestamp := ← Json.required? Json.uint64? timestamp
    gasLimit := ← Json.required? Json.uint64? gasLimit
    signature := ← Json.required? Json.text? signature }

/-- Writes a row. -/
def toJson (r : RegistrationRow) : Json :=
  .obj [
    ("pubkey", .str r.pubkey),
    ("fee_recipient", .str r.feeRecipient),
    ("timestamp", .ofUInt64 r.timestamp),
    ("gas_limit", .ofUInt64 r.gasLimit),
    ("signature", .str r.signature)]

end RegistrationRow

/-! ### Bids -/

/-- The columns that submissions and deliveries share. -/
structure BidColumns where
  epoch : UInt64
  slot : UInt64
  builder : String
  proposer : String
  feeRecipient : String
  /-- The hash of the block before. -/
  parentHash : String
  blockHash : String
  blockNumber : UInt64
  transactionCount : UInt64
  value : Word256
  /-- The gas that the block uses. -/
  gasUsed : UInt64
  /-- The most gas that the block may use. -/
  gasLimit : UInt64
deriving DecidableEq

namespace BidColumns

/-- The columns of a submission. -/
def ofSubmission (s : Submission) : BidColumns where
  epoch := s.trace.slot / slotsPerEpoch
  slot := s.trace.slot
  builder := s.trace.builder.text
  proposer := s.trace.proposer.text
  feeRecipient := s.trace.feeRecipient.text
  parentHash := s.trace.parentHash.text
  blockHash := s.trace.blockHash.text
  blockNumber := s.blockNumber
  transactionCount := UInt64.ofNat s.transactionCount
  value := s.trace.value
  gasUsed := s.trace.gasUsed
  gasLimit := s.trace.gasLimit

/-- The fields in declared order. -/
def names : List String :=
  ["epoch", "slot", "builder_pubkey", "proposer_pubkey", "proposer_fee_recipient", "parent_hash",
    "block_hash", "block_number", "num_tx", "value", "gas_used", "gas_limit"]

/-- Reads the columns. -/
def ofJson? (j : Json) : Option BidColumns := do
  let [epoch, slot, builder, proposer, feeRecipient, parentHash, blockHash, blockNumber,
    transactionCount, value, gasUsed, gasLimit] ← j.fields? names | none
  return {
    epoch := ← Json.required? Json.uint64? epoch
    slot := ← Json.required? Json.uint64? slot
    builder := ← Json.required? Json.text? builder
    proposer := ← Json.required? Json.text? proposer
    feeRecipient := ← Json.required? Json.text? feeRecipient
    parentHash := ← Json.required? Json.text? parentHash
    blockHash := ← Json.required? Json.text? blockHash
    blockNumber := ← Json.required? Json.uint64? blockNumber
    transactionCount := ← Json.required? Json.uint64? transactionCount
    value := ← Json.required? Json.word256? value
    gasUsed := ← Json.required? Json.uint64? gasUsed
    gasLimit := ← Json.required? Json.uint64? gasLimit }

/-- The written columns. -/
def toFields (b : BidColumns) : List (String × Json) := [
  ("epoch", .ofUInt64 b.epoch),
  ("slot", .ofUInt64 b.slot),
  ("builder_pubkey", .str b.builder),
  ("proposer_pubkey", .str b.proposer),
  ("proposer_fee_recipient", .str b.feeRecipient),
  ("parent_hash", .str b.parentHash),
  ("block_hash", .str b.blockHash),
  ("block_number", .ofUInt64 b.blockNumber),
  ("num_tx", .ofUInt64 b.transactionCount),
  ("value", .ofWord256 b.value),
  ("gas_used", .ofUInt64 b.gasUsed),
  ("gas_limit", .ofUInt64 b.gasLimit)]

/-- Writes the columns. -/
def toJson (b : BidColumns) : Json := .obj b.toFields

/-- **Splits an object** that holds a bid beside fields of its own: the own fields by name, and the
columns. Such a record is always an object, and what belongs to neither must have a value. -/
def split? (own : List String) : Json → Option (List (Option Json) × BidColumns)
  | .obj fields => do
    let others := fields.filter fun f => !own.contains f.1
    -- what nobody reads must be readable all the same, one level below the object
    guard (others.all fun f => f.2.readable && f.2.depth + 1 ≤ Json.maxDepth)
    let values ← (Json.obj fields).fields? own
    let bid ← ofJson? (.obj others)
    return (values, bid)
  | _ => none

end BidColumns

/-- The row of a submission: its columns and the whole signed submission. -/
structure SubmissionRow where
  bid : BidColumns
  payload : Json

namespace SubmissionRow

/-- The row of a submission. -/
def ofSubmission (s : Submission) : SubmissionRow where
  bid := .ofSubmission s
  payload := s.toJson.sorted

/-- The fields beside the bid. -/
def names : List String := ["payload"]

/-- Reads a row. -/
def ofJson? (j : Json) : Option SubmissionRow := do
  let ([payload], bid) ← BidColumns.split? names j | none
  return { bid, payload := ← Json.required? (Json.free? 1) payload }

/-- Writes a row. -/
def toJson (r : SubmissionRow) : Json := .obj (r.bid.toFields ++ [("payload", r.payload)])

end SubmissionRow

/-! ### Simulations -/

/-- The verdict of a simulation. -/
inductive Verdict where
  | valid
  | invalid (reason : String)
deriving DecidableEq, Repr

/-- The row of the outcome of simulating a submission. -/
structure SimulationRow where
  submissionId : Int64
  success : Bool
  /-- What is wrong with it; empty for a valid block. -/
  error : String
deriving DecidableEq

namespace SimulationRow

/-- The row of a verdict. -/
def ofVerdict (submissionId : Int64) : Verdict → SimulationRow
  | .valid => ⟨submissionId, true, ""⟩
  | .invalid reason => ⟨submissionId, false, reason⟩

/-- The fields in declared order. -/
def names : List String := ["block_submission_id", "success", "error"]

/-- Reads a row. -/
def ofJson? (j : Json) : Option SimulationRow := do
  let [submissionId, success, error] ← j.fields? names | none
  return {
    submissionId := ← Json.required? Json.int64? submissionId
    success := ← Json.required? Json.bool? success
    error := ← Json.required? Json.text? error }

/-- Writes a row. -/
def toJson (r : SimulationRow) : Json :=
  .obj [
    ("block_submission_id", .ofInt64 r.submissionId),
    ("success", .bool r.success),
    ("error", .str r.error)]

end SimulationRow

/-! ### Deliveries -/

/-- The row of a delivered payload. -/
structure DeliveryRow where
  bid : BidColumns
  payload : Json
  trace : Json
  /-- The builder's signature over the trace. -/
  traceSignature : String
  /-- The bid that the proposer saw. -/
  signedBid : Json
  /-- The block header that the proposer signed. -/
  signedBlock : Json

namespace DeliveryRow

/-- The row of a delivery. -/
def ofDelivery (s : Submission) (p : Payload) (signedBid signedBlock : Json) : DeliveryRow where
  bid := .ofSubmission s
  payload := p.toJson.sorted
  trace := s.trace.toJson.sorted
  traceSignature := s.signature.text
  signedBid
  signedBlock

/-- The fields beside the bid. -/
def names : List String :=
  ["execution_payload", "bid_trace", "bid_trace_builder_sig", "signed_builder_bid",
    "signed_blinded_beacon_block"]

/-- Reads a row. -/
def ofJson? (j : Json) : Option DeliveryRow := do
  let ([payload, trace, traceSignature, signedBid, signedBlock], bid) ←
    BidColumns.split? names j | none
  return {
    bid
    payload := ← Json.required? (Json.free? 1) payload
    trace := ← Json.required? (Json.free? 1) trace
    traceSignature := ← Json.required? Json.text? traceSignature
    signedBid := ← Json.required? (Json.free? 1) signedBid
    signedBlock := ← Json.required? (Json.free? 1) signedBlock }

/-- Writes a row. -/
def toJson (r : DeliveryRow) : Json :=
  .obj (r.bid.toFields ++ [
    ("execution_payload", r.payload),
    ("bid_trace", r.trace),
    ("bid_trace_builder_sig", .str r.traceSignature),
    ("signed_builder_bid", r.signedBid),
    ("signed_blinded_beacon_block", r.signedBlock)])

end DeliveryRow

end BlockRelay
