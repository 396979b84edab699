import BlockRelay.Payload.Json

/-!
# Block submissions

A builder submits a block with a signed trace: who built it, for which proposer, and how much it
pays. The payload that the proposer is handed later is made of the submission's body and its
fork (`Submission.payload`).
-/

namespace BlockRelay

/-- What a builder commits to. -/
structure BidTrace where
  /-- The slot that the block is for. -/
  slot : UInt64
  /-- The hash of the block before. -/
  parentHash : Hash
  blockHash : Hash
  builder : PublicKey
  proposer : PublicKey
  feeRecipient : Address
  /-- The most gas that the block may use. -/
  gasLimit : UInt64
  /-- The gas that the block uses. -/
  gasUsed : UInt64
  value : Word256
deriving DecidableEq

namespace BidTrace

/-- The fields in declared order. -/
def names : List String :=
  ["slot", "parent_hash", "block_hash", "builder_pubkey", "proposer_pubkey",
    "proposer_fee_recipient", "gas_limit", "gas_used", "value"]

/-- Reads a trace. -/
def ofJson? (j : Json) : Option BidTrace := do
  let [slot, parentHash, blockHash, builder, proposer, feeRecipient, gasLimit, gasUsed, value] ←
    j.fields? names | none
  return {
    slot := ← Json.required? Json.uint64? slot
    parentHash := ← Json.required? (Json.fixed? 32) parentHash
    blockHash := ← Json.required? (Json.fixed? 32) blockHash
    builder := ← Json.required? (Json.looseFixed? 48) builder
    proposer := ← Json.required? (Json.looseFixed? 48) proposer
    feeRecipient := ← Json.required? (Json.fixed? 20) feeRecipient
    gasLimit := ← Json.required? Json.uint64? gasLimit
    gasUsed := ← Json.required? Json.uint64? gasUsed
    value := ← Json.required? Json.word256? value }

/-- Writes a trace. -/
def toJson (t : BidTrace) : Json :=
  .obj [
    ("slot", .ofUInt64 t.slot),
    ("parent_hash", .ofFixed t.parentHash),
    ("block_hash", .ofFixed t.blockHash),
    ("builder_pubkey", .ofFixed t.builder),
    ("proposer_pubkey", .ofFixed t.proposer),
    ("proposer_fee_recipient", .ofFixed t.feeRecipient),
    ("gas_limit", .ofUInt64 t.gasLimit),
    ("gas_used", .ofUInt64 t.gasUsed),
    ("value", .ofWord256 t.value)]

end BidTrace

/-- A submitted block. -/
structure Submission where
  fork : Fork
  trace : BidTrace
  body : Option PayloadBody
  /-- The builder's signature over the trace. -/
  signature : Signature
deriving DecidableEq

namespace Submission

/-- The fields in declared order. -/
def names : List String := ["version", "message", "execution_payload", "signature"]

/-- Reads a submission. -/
def ofJson? (j : Json) : Option Submission := do
  let [fork, trace, body, signature] ← j.fields? names | none
  return {
    fork := ← Json.required? Fork.ofJson? fork
    trace := ← Json.required? BidTrace.ofJson? trace
    body := ← Json.optional? PayloadBody.ofJson? body
    signature := ← Json.required? (Json.looseFixed? 96) signature }

/-- Writes a submission. -/
def toJson (s : Submission) : Json :=
  .obj ([("version", s.fork.toJson), ("message", s.trace.toJson)] ++
    (s.body.map fun b => ("execution_payload", b.toJson)).toList ++
    [("signature", .ofFixed s.signature)])

/-- Reads the text of a submission. -/
def ofText? (s : String) : Option Submission := (Json.read? s).bind ofJson?

/-- The text of a submission. -/
def toText (s : Submission) : String := s.toJson.render

/-- **The payload that a proposer receives** once it signs the header of the block. -/
def payload (s : Submission) : Except PayloadError Payload :=
  let p : Payload := ⟨s.fork, s.body⟩
  match p.check with
  | .ok _ => .ok p
  | .error e => .error e

/-- The number of transactions; none without a body. -/
def transactionCount (s : Submission) : Nat := s.body.elim 0 fun b => b.transactions.length

/-- The height of the block; zero without a body. -/
def blockNumber (s : Submission) : UInt64 := s.body.elim 0 (·.blockNumber)

end Submission

end BlockRelay
