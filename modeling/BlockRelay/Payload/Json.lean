import BlockRelay.Json.Reader
import BlockRelay.Json.Printer
import BlockRelay.Json.Fields
import BlockRelay.Payload.Basic

/-!
# Payloads in JSON

The form in which payloads are cached and served: an object with the name of the fork and the
body. Optional parts that are absent are left out when written; when read they may be absent or
null.
-/

namespace BlockRelay

namespace Fork

/-- A fork is its name, or an object with that name and null. -/
def ofJson? : Json → Option Fork := Json.named? ofName?

/-- A written fork. -/
def toJson (f : Fork) : Json := .str f.name

@[simp] theorem ofJson?_toJson (f : Fork) : ofJson? f.toJson = some f := ofName?_name f

end Fork

namespace Withdrawal

/-- The fields in declared order. -/
def names : List String := ["index", "validator_index", "address", "amount"]

/-- Reads a withdrawal. -/
def ofJson? (j : Json) : Option Withdrawal := do
  let [index, validatorIndex, address, amount] ← j.fields? names | none
  return {
    index := ← Json.required? Json.uint64? index
    validatorIndex := ← Json.required? Json.uint64? validatorIndex
    address := ← Json.required? (Json.fixed? 20) address
    amount := ← Json.required? Json.uint64? amount }

/-- Writes a withdrawal. -/
def toJson (w : Withdrawal) : Json :=
  .obj [
    ("index", .ofUInt64 w.index),
    ("validator_index", .ofUInt64 w.validatorIndex),
    ("address", .ofFixed w.address),
    ("amount", .ofUInt64 w.amount)]

end Withdrawal

namespace PayloadBody

/-- The fields in declared order. -/
def names : List String :=
  ["parent_hash", "fee_recipient", "state_root", "receipts_root", "logs_bloom", "prev_randao",
    "block_number", "gas_limit", "gas_used", "timestamp", "extra_data", "base_fee_per_gas",
    "block_hash", "transactions", "withdrawals", "blob_gas_used", "excess_blob_gas"]

/-- Reads a body. -/
def ofJson? (j : Json) : Option PayloadBody := do
  let [parentHash, feeRecipient, stateRoot, receiptsRoot, logsBloom, prevRandao, blockNumber,
    gasLimit, gasUsed, timestamp, extraData, baseFeePerGas, blockHash, transactions, withdrawals,
    blobGasUsed, excessBlobGas] ← j.fields? names | none
  return {
    parentHash := ← Json.required? (Json.fixed? 32) parentHash
    feeRecipient := ← Json.required? (Json.fixed? 20) feeRecipient
    stateRoot := ← Json.required? (Json.fixed? 32) stateRoot
    receiptsRoot := ← Json.required? (Json.fixed? 32) receiptsRoot
    logsBloom := ← Json.required? (Json.fixed? 256) logsBloom
    prevRandao := ← Json.required? (Json.fixed? 32) prevRandao
    blockNumber := ← Json.required? Json.uint64? blockNumber
    gasLimit := ← Json.required? Json.uint64? gasLimit
    gasUsed := ← Json.required? Json.uint64? gasUsed
    timestamp := ← Json.required? Json.uint64? timestamp
    extraData := ← Json.required? Json.bytes? extraData
    baseFeePerGas := ← Json.required? Json.word256? baseFeePerGas
    blockHash := ← Json.required? (Json.fixed? 32) blockHash
    transactions := ← Json.required? (Json.list? Json.bytes?) transactions
    withdrawals := ← Json.optional? (Json.list? Withdrawal.ofJson?) withdrawals
    blobGasUsed := ← Json.optional? Json.uint64? blobGasUsed
    excessBlobGas := ← Json.optional? Json.uint64? excessBlobGas }

/-- Writes a body. -/
def toJson (b : PayloadBody) : Json :=
  .obj ([
    ("parent_hash", .ofFixed b.parentHash),
    ("fee_recipient", .ofFixed b.feeRecipient),
    ("state_root", .ofFixed b.stateRoot),
    ("receipts_root", .ofFixed b.receiptsRoot),
    ("logs_bloom", .ofFixed b.logsBloom),
    ("prev_randao", .ofFixed b.prevRandao),
    ("block_number", .ofUInt64 b.blockNumber),
    ("gas_limit", .ofUInt64 b.gasLimit),
    ("gas_used", .ofUInt64 b.gasUsed),
    ("timestamp", .ofUInt64 b.timestamp),
    ("extra_data", .ofBytes b.extraData),
    ("base_fee_per_gas", .ofWord256 b.baseFeePerGas),
    ("block_hash", .ofFixed b.blockHash),
    ("transactions", .arr (b.transactions.map .ofBytes))] ++
    (b.withdrawals.map fun ws => ("withdrawals", .arr (ws.map Withdrawal.toJson))).toList ++
    (b.blobGasUsed.map fun n => ("blob_gas_used", .ofUInt64 n)).toList ++
    (b.excessBlobGas.map fun n => ("excess_blob_gas", .ofUInt64 n)).toList)

end PayloadBody

namespace Payload

/-- The fields in declared order. -/
def names : List String := ["version", "data"]

/-- Reads a payload. -/
def ofJson? (j : Json) : Option Payload := do
  let [fork, body] ← j.fields? names | none
  return {
    fork := ← Json.required? Fork.ofJson? fork
    body := ← Json.optional? PayloadBody.ofJson? body }

/-- Writes a payload. -/
def toJson (p : Payload) : Json :=
  .obj (("version", p.fork.toJson) :: (p.body.map fun b => ("data", b.toJson)).toList)

/-- Reads the text of a payload. -/
def ofText? (s : String) : Option Payload := (Json.read? s).bind ofJson?

/-- Reads the bytes of a payload. -/
def ofBytes? (bs : Bytes) : Option Payload := (Json.readBytes? bs).bind ofJson?

/-- The text of a payload. -/
def toText (p : Payload) : String := p.toJson.render

/-- The bytes of a payload. -/
def toBytes (p : Payload) : Bytes := p.toJson.renderBytes

end Payload

end BlockRelay
