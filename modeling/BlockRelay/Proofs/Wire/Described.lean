import BlockRelay.Proofs.Json.Meanings
import BlockRelay.Proofs.Wire.RoundTrip

/-!
# Values that describe a record

The round trip (`wire_round_trip`) is about the one value that a payload or a submission is written
as. Others can be read too: fields stand in any order or in an array, fields of other names stand
beside them, an optional field is absent or null. Here all of them are characterised. A value
describes a record if it holds, under the name of each field, a value that describes that field.

* `reads` — a value is read as a record exactly if it describes it. So whoever wrote the value,
  there is one record at most that it describes.
* `steady` — it goes on describing a submission, and the records inside, when the fields of all
  objects in it are sorted (`Submission.ofJson?_sorted`).
-/

namespace BlockRelay

/-! ### Payloads -/

namespace Fork

/-- The values that name a fork: its name, or an object of the name and null. -/
inductive Named : Json → Fork → Prop
  | text (f : Fork) : Named (.str f.name) f
  | tagged (f : Fork) : Named (.obj [(f.name, .null)]) f

/-- A text is taken for a fork exactly if it is that fork's name, in its own letters. -/
theorem ofName?_eq_some_iff {s : String} {f : Fork} : ofName? s = some f ↔ s = f.name := by
  constructor
  · -- the reader searches the forks in turn, so what it finds has the name
    intro h
    rw [ofName?] at h
    exact (of_decide_eq_true (List.find?_some (p := fun f : Fork => decide (f.name = s)) h)).symm
  · rintro rfl
    exact f.ofName?_name

/-- A fork is read from its name or from its name as a tag, and from nothing else. -/
theorem reads : Json.Reads ofJson? Named := by
  intro j f
  constructor
  · intro h
    unfold ofJson? Json.named? at h
    -- the bare name, the tagged one, and any other value
    split at h
    · rw [ofName?_eq_some_iff.1 h]
      exact .text f
    · rw [ofName?_eq_some_iff.1 h]
      exact .tagged f
    · cases h
  · rintro (_ | _)
    · exact f.ofName?_name
    · exact f.ofName?_name

/-- Neither form of a fork has a second field that could change places. -/
theorem steady : Json.Steady Named := by
  rintro _ f (_ | _)
  · exact .text f
  · exact .tagged f

end Fork

namespace Withdrawal

/-- The values that describe a withdrawal. -/
structure Described (j : Json) (w : Withdrawal) : Prop where
  declared : Json.Declares names j
  index : Json.Gives names j "index" (· = .ofUInt64 ·) w.index
  validatorIndex : Json.Gives names j "validator_index" (· = .ofUInt64 ·) w.validatorIndex
  address : Json.Gives names j "address" (Json.fixed? 20 · = some ·) w.address
  amount : Json.Gives names j "amount" (· = .ofUInt64 ·) w.amount

/-- A withdrawal is read exactly from the values that describe it. -/
theorem reads : Json.Reads ofJson? Described := by
  intro j w
  rw [ofJson?, Option.bind_eq_bind, Json.fields?_bind_eq_some_iff nodup_names]
  -- each `given` turns the reader of one field into what the record gives under its name
  refine Iff.trans (and_congr_right fun record =>
    record.given .uint64 fun index =>
    record.given .uint64 fun validatorIndex =>
    record.given (.self _) fun address =>
    record.given .uint64 fun amount => Option.some_inj) ?_
  constructor
  · rintro ⟨record, _, index, _, validatorIndex, _, address, _, amount, rfl⟩
    exact ⟨record.declared, index, validatorIndex, address, amount⟩
  · intro h
    exact ⟨⟨nodup_names, h.declared⟩, _, h.index, _, h.validatorIndex, _, h.address,
      _, h.amount, rfl⟩

theorem steady : Json.Steady Described := by
  intro j w h
  exact {
    declared := h.declared.sorted
    index := h.index.sorted .uint64 h.declared
    validatorIndex := h.validatorIndex.sorted .uint64 h.declared
    address := h.address.sorted (.fixed 20) h.declared
    amount := h.amount.sorted .uint64 h.declared }

end Withdrawal

namespace PayloadBody

/-- The values that describe a body. -/
structure Described (j : Json) (b : PayloadBody) : Prop where
  declared : Json.Declares names j
  parentHash : Json.Gives names j "parent_hash" (Json.fixed? 32 · = some ·) b.parentHash
  feeRecipient : Json.Gives names j "fee_recipient" (Json.fixed? 20 · = some ·) b.feeRecipient
  stateRoot : Json.Gives names j "state_root" (Json.fixed? 32 · = some ·) b.stateRoot
  receiptsRoot : Json.Gives names j "receipts_root" (Json.fixed? 32 · = some ·) b.receiptsRoot
  logsBloom : Json.Gives names j "logs_bloom" (Json.fixed? 256 · = some ·) b.logsBloom
  prevRandao : Json.Gives names j "prev_randao" (Json.fixed? 32 · = some ·) b.prevRandao
  blockNumber : Json.Gives names j "block_number" (· = .ofUInt64 ·) b.blockNumber
  gasLimit : Json.Gives names j "gas_limit" (· = .ofUInt64 ·) b.gasLimit
  gasUsed : Json.Gives names j "gas_used" (· = .ofUInt64 ·) b.gasUsed
  timestamp : Json.Gives names j "timestamp" (· = .ofUInt64 ·) b.timestamp
  extraData : Json.Gives names j "extra_data" (Json.bytes? · = some ·) b.extraData
  baseFeePerGas : Json.Gives names j "base_fee_per_gas" (Json.word256? · = some ·) b.baseFeePerGas
  blockHash : Json.Gives names j "block_hash" (Json.fixed? 32 · = some ·) b.blockHash
  transactions : Json.Gives names j "transactions" (Json.Lists (Json.bytes? · = some ·))
    b.transactions
  withdrawals : Json.MayGive names j "withdrawals" (Json.Lists Withdrawal.Described) b.withdrawals
  blobGasUsed : Json.MayGive names j "blob_gas_used" (· = .ofUInt64 ·) b.blobGasUsed
  excessBlobGas : Json.MayGive names j "excess_blob_gas" (· = .ofUInt64 ·) b.excessBlobGas

/-- A body is read exactly from the values that describe it: fourteen fields are demanded, and the
last three may be absent or null. -/
theorem reads : Json.Reads ofJson? Described := by
  intro j b
  rw [ofJson?, Option.bind_eq_bind, Json.fields?_bind_eq_some_iff nodup_names]
  -- one step a field, in the order of the reader; `mayGive` needs the name to be a declared one
  refine Iff.trans (and_congr_right fun record =>
    record.given (.self _) fun parentHash =>
    record.given (.self _) fun feeRecipient =>
    record.given (.self _) fun stateRoot =>
    record.given (.self _) fun receiptsRoot =>
    record.given (.self _) fun logsBloom =>
    record.given (.self _) fun prevRandao =>
    record.given .uint64 fun blockNumber =>
    record.given .uint64 fun gasLimit =>
    record.given .uint64 fun gasUsed =>
    record.given .uint64 fun timestamp =>
    record.given (.self _) fun extraData =>
    record.given (.self _) fun baseFeePerGas =>
    record.given (.self _) fun blockHash =>
    record.given (.list (.self _)) fun transactions =>
    record.mayGive (.list Withdrawal.reads) (by decide) fun withdrawals =>
    record.mayGive .uint64 (by decide) fun blobGasUsed =>
    record.mayGive .uint64 (by decide) fun excessBlobGas => Option.some_inj) ?_
  constructor
  · -- the reader has found every field, so each of them is described
    rintro ⟨record, _, parentHash, _, feeRecipient, _, stateRoot, _, receiptsRoot, _, logsBloom,
      _, prevRandao, _, blockNumber, _, gasLimit, _, gasUsed, _, timestamp, _, extraData,
      _, baseFeePerGas, _, blockHash, _, transactions, _, withdrawals, _, blobGasUsed,
      _, excessBlobGas, rfl⟩
    exact ⟨record.declared, parentHash, feeRecipient, stateRoot, receiptsRoot, logsBloom,
      prevRandao, blockNumber, gasLimit, gasUsed, timestamp, extraData, baseFeePerGas, blockHash,
      transactions, withdrawals, blobGasUsed, excessBlobGas⟩
  · -- and if each is described, the reader finds it and puts the body together
    intro h
    exact ⟨⟨nodup_names, h.declared⟩, _, h.parentHash, _, h.feeRecipient, _, h.stateRoot,
      _, h.receiptsRoot, _, h.logsBloom, _, h.prevRandao, _, h.blockNumber, _, h.gasLimit,
      _, h.gasUsed, _, h.timestamp, _, h.extraData, _, h.baseFeePerGas, _, h.blockHash,
      _, h.transactions, _, h.withdrawals, _, h.blobGasUsed, _, h.excessBlobGas, rfl⟩

/-- Sorting the fields of a body does not change what it describes, down to its withdrawals. -/
theorem steady : Json.Steady Described := by
  intro j b h
  exact {
    declared := h.declared.sorted
    parentHash := h.parentHash.sorted (.fixed 32) h.declared
    feeRecipient := h.feeRecipient.sorted (.fixed 20) h.declared
    stateRoot := h.stateRoot.sorted (.fixed 32) h.declared
    receiptsRoot := h.receiptsRoot.sorted (.fixed 32) h.declared
    logsBloom := h.logsBloom.sorted (.fixed 256) h.declared
    prevRandao := h.prevRandao.sorted (.fixed 32) h.declared
    blockNumber := h.blockNumber.sorted .uint64 h.declared
    gasLimit := h.gasLimit.sorted .uint64 h.declared
    gasUsed := h.gasUsed.sorted .uint64 h.declared
    timestamp := h.timestamp.sorted .uint64 h.declared
    extraData := h.extraData.sorted .bytes h.declared
    baseFeePerGas := h.baseFeePerGas.sorted .word256 h.declared
    blockHash := h.blockHash.sorted (.fixed 32) h.declared
    transactions := h.transactions.sorted (.lists .bytes) h.declared
    -- the only field with records inside
    withdrawals := h.withdrawals.sorted (.lists Withdrawal.steady) h.declared
    blobGasUsed := h.blobGasUsed.sorted .uint64 h.declared
    excessBlobGas := h.excessBlobGas.sorted .uint64 h.declared }

end PayloadBody

namespace Payload

/-- **The values that describe a payload.** -/
structure Described (j : Json) (p : Payload) : Prop where
  declared : Json.Declares names j
  fork : Json.Gives names j "version" Fork.Named p.fork
  body : Json.MayGive names j "data" PayloadBody.Described p.body

/-- A payload is read exactly from the values that describe it. -/
theorem reads : Json.Reads ofJson? Described := by
  intro j p
  rw [ofJson?, Option.bind_eq_bind, Json.fields?_bind_eq_some_iff nodup_names]
  refine Iff.trans (and_congr_right fun record =>
    record.given Fork.reads fun fork =>
    -- the body has its own `reads`, and may be absent
    record.mayGive PayloadBody.reads (by decide) fun body => Option.some_inj) ?_
  constructor
  · rintro ⟨record, _, fork, _, body, rfl⟩
    exact ⟨record.declared, fork, body⟩
  · intro h
    exact ⟨⟨nodup_names, h.declared⟩, _, h.fork, _, h.body, rfl⟩

end Payload

/-! ### Submissions -/

namespace BidTrace

/-- The values that describe a trace. -/
structure Described (j : Json) (t : BidTrace) : Prop where
  declared : Json.Declares names j
  slot : Json.Gives names j "slot" (· = .ofUInt64 ·) t.slot
  parentHash : Json.Gives names j "parent_hash" (Json.fixed? 32 · = some ·) t.parentHash
  blockHash : Json.Gives names j "block_hash" (Json.fixed? 32 · = some ·) t.blockHash
  builder : Json.Gives names j "builder_pubkey" (Json.looseFixed? 48 · = some ·) t.builder
  proposer : Json.Gives names j "proposer_pubkey" (Json.looseFixed? 48 · = some ·) t.proposer
  feeRecipient : Json.Gives names j "proposer_fee_recipient" (Json.fixed? 20 · = some ·)
    t.feeRecipient
  gasLimit : Json.Gives names j "gas_limit" (· = .ofUInt64 ·) t.gasLimit
  gasUsed : Json.Gives names j "gas_used" (· = .ofUInt64 ·) t.gasUsed
  value : Json.Gives names j "value" (Json.word256? · = some ·) t.value

/-- A trace is read exactly from the values that describe it. -/
theorem reads : Json.Reads ofJson? Described := by
  intro j t
  rw [ofJson?, Option.bind_eq_bind, Json.fields?_bind_eq_some_iff nodup_names]
  -- one step a field, in the order of the reader
  refine Iff.trans (and_congr_right fun record =>
    record.given .uint64 fun slot =>
    record.given (.self _) fun parentHash =>
    record.given (.self _) fun blockHash =>
    record.given (.self _) fun builder =>
    record.given (.self _) fun proposer =>
    record.given (.self _) fun feeRecipient =>
    record.given .uint64 fun gasLimit =>
    record.given .uint64 fun gasUsed =>
    record.given (.self _) fun value => Option.some_inj) ?_
  constructor
  · rintro ⟨record, _, slot, _, parentHash, _, blockHash, _, builder, _, proposer,
      _, feeRecipient, _, gasLimit, _, gasUsed, _, value, rfl⟩
    exact ⟨record.declared, slot, parentHash, blockHash, builder, proposer, feeRecipient, gasLimit,
      gasUsed, value⟩
  · -- the record has what each field asks for, so every reader finds its value
    intro h
    exact ⟨⟨nodup_names, h.declared⟩, _, h.slot, _, h.parentHash, _, h.blockHash, _, h.builder,
      _, h.proposer, _, h.feeRecipient, _, h.gasLimit, _, h.gasUsed, _, h.value, rfl⟩

/-- Sorting the fields of a trace does not change what it describes. -/
theorem steady : Json.Steady Described := by
  intro j t h
  exact {
    declared := h.declared.sorted
    slot := h.slot.sorted .uint64 h.declared
    parentHash := h.parentHash.sorted (.fixed 32) h.declared
    blockHash := h.blockHash.sorted (.fixed 32) h.declared
    -- the keys are read loosely, which sorting does not see: a text has no fields
    builder := h.builder.sorted (.looseFixed 48) h.declared
    proposer := h.proposer.sorted (.looseFixed 48) h.declared
    feeRecipient := h.feeRecipient.sorted (.fixed 20) h.declared
    gasLimit := h.gasLimit.sorted .uint64 h.declared
    gasUsed := h.gasUsed.sorted .uint64 h.declared
    value := h.value.sorted .word256 h.declared }

end BidTrace

namespace Submission

/-- **The values that describe a submission.** -/
structure Described (j : Json) (s : Submission) : Prop where
  declared : Json.Declares names j
  fork : Json.Gives names j "version" Fork.Named s.fork
  trace : Json.Gives names j "message" BidTrace.Described s.trace
  body : Json.MayGive names j "execution_payload" PayloadBody.Described s.body
  signature : Json.Gives names j "signature" (Json.looseFixed? 96 · = some ·) s.signature

/-- A submission is read exactly from the values that describe it. -/
theorem reads : Json.Reads ofJson? Described := by
  intro j s
  rw [ofJson?, Option.bind_eq_bind, Json.fields?_bind_eq_some_iff nodup_names]
  refine Iff.trans (and_congr_right fun record =>
    -- the records inside have their own `reads`
    record.given Fork.reads fun fork =>
    record.given BidTrace.reads fun trace =>
    record.mayGive PayloadBody.reads (by decide) fun body =>
    record.given (.self _) fun signature => Option.some_inj) ?_
  constructor
  · rintro ⟨record, _, fork, _, trace, _, body, _, signature, rfl⟩
    exact ⟨record.declared, fork, trace, body, signature⟩
  · intro h
    exact ⟨⟨nodup_names, h.declared⟩, _, h.fork, _, h.trace, _, h.body, _, h.signature, rfl⟩

/-- Sorting the fields of a submission does not change what it describes, down to its trace and its
body. -/
theorem steady : Json.Steady Described := by
  intro j s h
  exact {
    declared := h.declared.sorted
    fork := h.fork.sorted Fork.steady h.declared
    trace := h.trace.sorted BidTrace.steady h.declared
    body := h.body.sorted PayloadBody.steady h.declared
    signature := h.signature.sorted (.looseFixed 96) h.declared }

/-- **A submission is read from its fields in any order,** so it is read when they are sorted. -/
theorem ofJson?_sorted {j : Json} {s : Submission} (h : ofJson? j = some s) :
    ofJson? j.sorted = some s :=
  (reads _ s).2 (steady j s ((reads j s).1 h))

end Submission

end BlockRelay
