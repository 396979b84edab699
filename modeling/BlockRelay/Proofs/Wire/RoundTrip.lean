import BlockRelay.Bid.Registration
import BlockRelay.Bid.Submission
import BlockRelay.Proofs.Json.Records

/-!
# Round trip of the wire formats

Payloads, submissions and registrations travel as JSON. Each of them, and each record inside them,
has two facts here: what is written is plain (`plain_toJson`), so its text and its bytes read as
the written value, and the reader takes that value back to the record (`ofJson?_toJson`). Both come
from the list of entries of the record, one for each declared field: a field that is left out when
it is absent is an entry without a value, and the readers of optional fields take it as absent
again, which keeps an empty list of withdrawals apart from none.

* `wire_round_trip` — every value is read back from its text.
-/

namespace BlockRelay

/-! ### Payloads -/

namespace Fork

@[simp] theorem plain_toJson (f : Fork) : f.toJson.plain = true := rfl

end Fork

namespace Withdrawal

/-- The entries of a written withdrawal. -/
def entries (w : Withdrawal) : List (String × Option Json) :=
  [("index", some (.ofUInt64 w.index)), ("validator_index", some (.ofUInt64 w.validatorIndex)),
    ("address", some (.ofFixed w.address)), ("amount", some (.ofUInt64 w.amount))]

theorem nodup_names : names.Nodup := by simp [names]

theorem toJson_eq (w : Withdrawal) : w.toJson = .obj (Json.present w.entries) := rfl

theorem plain_toJson (w : Withdrawal) : w.toJson.plain = true := by
  rw [toJson_eq]
  exact Json.plain_present (by simp [entries])

theorem ofJson?_toJson (w : Withdrawal) : ofJson? w.toJson = some w := by
  have fields : w.toJson.fields? names = some (w.entries.map (·.2)) :=
    Json.fields?_present w.entries nodup_names
  rw [ofJson?, fields, Option.bind_eq_bind, Option.bind_some]
  simp only [entries, List.map_cons, List.map_nil]
  -- every entry has a value, so no reader can fail
  simp only [Json.required?_some, Json.uint64?_ofUInt64, Json.fixed?_ofFixed]
  rfl

end Withdrawal

namespace PayloadBody

/-- The entries of a written body; the last three may be without a value. -/
def entries (b : PayloadBody) : List (String × Option Json) :=
  [("parent_hash", some (.ofFixed b.parentHash)), ("fee_recipient", some (.ofFixed b.feeRecipient)),
    ("state_root", some (.ofFixed b.stateRoot)), ("receipts_root", some (.ofFixed b.receiptsRoot)),
    ("logs_bloom", some (.ofFixed b.logsBloom)), ("prev_randao", some (.ofFixed b.prevRandao)),
    ("block_number", some (.ofUInt64 b.blockNumber)), ("gas_limit", some (.ofUInt64 b.gasLimit)),
    ("gas_used", some (.ofUInt64 b.gasUsed)), ("timestamp", some (.ofUInt64 b.timestamp)),
    ("extra_data", some (.ofBytes b.extraData)),
    ("base_fee_per_gas", some (.ofWord256 b.baseFeePerGas)),
    ("block_hash", some (.ofFixed b.blockHash)),
    ("transactions", some (.arr (b.transactions.map .ofBytes))),
    ("withdrawals", b.withdrawals.map fun ws => .arr (ws.map Withdrawal.toJson)),
    ("blob_gas_used", b.blobGasUsed.map .ofUInt64),
    ("excess_blob_gas", b.excessBlobGas.map .ofUInt64)]

theorem nodup_names : names.Nodup := by simp [names]

/-- A body is written as its entries that have a value. -/
theorem toJson_eq (b : PayloadBody) : b.toJson = .obj (Json.present b.entries) := by
  -- an absent field is not written, whichever of the three it is
  unfold toJson entries
  cases b.withdrawals <;> cases b.blobGasUsed <;> cases b.excessBlobGas <;> rfl

theorem plain_withdrawals (ws : List Withdrawal) :
    Json.plain (.arr (ws.map Withdrawal.toJson)) = true :=
  Json.plain_arr_map Withdrawal.plain_toJson ws

theorem plain_transactions (ts : List Bytes) : Json.plain (.arr (ts.map .ofBytes)) = true :=
  Json.plain_arr_map Json.plain_ofBytes ts

/-- A body is written plainly, whichever of its last three fields it has. -/
theorem plain_toJson (b : PayloadBody) : b.toJson.plain = true := by
  rw [toJson_eq]
  refine Json.plain_present ?_
  simp only [entries, List.forall_mem_cons, Option.some.injEq, forall_eq', Option.map_eq_some_iff,
    Json.plain_ofFixed, Json.plain_ofUInt64, Json.plain_ofBytes, Json.plain_ofWord256,
    plain_transactions, true_and]
  -- the three that may be without a value
  refine ⟨?_, ?_, ?_, by simp⟩
  · rintro x ⟨ws, -, rfl⟩
    exact plain_withdrawals ws
  · rintro x ⟨n, -, rfl⟩
    exact Json.plain_ofUInt64 n
  · rintro x ⟨n, -, rfl⟩
    exact Json.plain_ofUInt64 n

/-- A body is written as an object, so it is not mistaken for an absent one. -/
theorem toJson_ne_null (b : PayloadBody) : b.toJson ≠ .null := by
  rw [toJson_eq]
  intro h
  cases h

/-- A body is read back from the value it is written as, with the absent fields absent. -/
theorem ofJson?_toJson (b : PayloadBody) : ofJson? b.toJson = some b := by
  have fields : b.toJson.fields? names = some (b.entries.map (·.2)) := by
    rw [toJson_eq]
    exact Json.fields?_present b.entries nodup_names
  have transactions := Json.list?_map Json.bytes?_ofBytes b.transactions
  -- a list is never null, so no withdrawals and an empty list of them stay apart
  have withdrawals : Json.optional? (Json.list? Withdrawal.ofJson?)
      (b.withdrawals.map fun ws => .arr (ws.map Withdrawal.toJson)) = some b.withdrawals :=
    Json.optional?_map (Json.list?_map Withdrawal.ofJson?_toJson) (fun _ => by simp) b.withdrawals
  have numbers := Json.optional?_map Json.uint64?_ofUInt64 (fun _ => by simp [Json.ofUInt64])
  rw [ofJson?, fields, Option.bind_eq_bind, Option.bind_some]
  simp only [entries, List.map_cons, List.map_nil]
  -- every reader finds its value first, and only then they are put together
  simp only [Json.required?_some, Json.fixed?_ofFixed, Json.uint64?_ofUInt64, Json.bytes?_ofBytes,
    Json.word256?_ofWord256, transactions, withdrawals, numbers]
  rfl

end PayloadBody

namespace Payload

/-- The entries of a written payload. -/
def entries (p : Payload) : List (String × Option Json) :=
  [("version", some p.fork.toJson), ("data", p.body.map PayloadBody.toJson)]

theorem nodup_names : names.Nodup := by simp [names]

theorem toJson_eq (p : Payload) : p.toJson = .obj (Json.present p.entries) := by
  unfold toJson entries
  cases p.body <;> rfl

theorem plain_toJson (p : Payload) : p.toJson.plain = true := by
  rw [toJson_eq]
  refine Json.plain_present ?_
  simp only [entries, List.forall_mem_cons, Option.some.injEq, forall_eq', Option.map_eq_some_iff,
    Fork.plain_toJson, true_and]
  refine ⟨?_, by simp⟩
  rintro x ⟨b, -, rfl⟩
  exact b.plain_toJson

/-- A payload is read back from the value it is written as, with a body or without. -/
theorem ofJson?_toJson (p : Payload) : ofJson? p.toJson = some p := by
  have fields : p.toJson.fields? names = some (p.entries.map (·.2)) := by
    rw [toJson_eq]
    exact Json.fields?_present p.entries nodup_names
  -- a body is an object, so it is never taken for an absent one
  have body := Json.optional?_map PayloadBody.ofJson?_toJson PayloadBody.toJson_ne_null p.body
  simp only [ofJson?, fields, entries, List.map_cons, List.map_nil, Option.pure_def,
    Option.bind_eq_bind, Option.bind_some, Json.required?_some, Fork.ofJson?_toJson, body]

/-- A payload is read back from its text. -/
theorem ofText?_toText (p : Payload) : ofText? p.toText = some p := by
  rw [ofText?, toText, Json.read?_render p.plain_toJson, Option.bind_some, ofJson?_toJson]

/-- A payload is read back from its bytes. -/
theorem ofBytes?_toBytes (p : Payload) : ofBytes? p.toBytes = some p := by
  rw [ofBytes?, toBytes, Json.readBytes?_renderBytes p.plain_toJson, Option.bind_some,
    ofJson?_toJson]

end Payload

/-! ### Submissions -/

namespace BidTrace

/-- The entries of a written trace. -/
def entries (t : BidTrace) : List (String × Option Json) :=
  [("slot", some (.ofUInt64 t.slot)), ("parent_hash", some (.ofFixed t.parentHash)),
    ("block_hash", some (.ofFixed t.blockHash)), ("builder_pubkey", some (.ofFixed t.builder)),
    ("proposer_pubkey", some (.ofFixed t.proposer)),
    ("proposer_fee_recipient", some (.ofFixed t.feeRecipient)),
    ("gas_limit", some (.ofUInt64 t.gasLimit)), ("gas_used", some (.ofUInt64 t.gasUsed)),
    ("value", some (.ofWord256 t.value))]

theorem nodup_names : names.Nodup := by simp [names]

theorem toJson_eq (t : BidTrace) : t.toJson = .obj (Json.present t.entries) := rfl

theorem plain_toJson (t : BidTrace) : t.toJson.plain = true := by
  rw [toJson_eq]
  exact Json.plain_present (by simp [entries])

/-- A trace is read back from the value it is written as. The keys are read loosely, which takes the
strict spelling too. -/
theorem ofJson?_toJson (t : BidTrace) : ofJson? t.toJson = some t := by
  have fields : t.toJson.fields? names = some (t.entries.map (·.2)) :=
    Json.fields?_present t.entries nodup_names
  rw [ofJson?, fields, Option.bind_eq_bind, Option.bind_some]
  simp only [entries, List.map_cons, List.map_nil]
  simp only [Json.required?_some, Json.uint64?_ofUInt64, Json.fixed?_ofFixed,
    Json.looseFixed?_ofFixed, Json.word256?_ofWord256]
  rfl

end BidTrace

namespace Submission

/-- The entries of a written submission. -/
def entries (s : Submission) : List (String × Option Json) :=
  [("version", some s.fork.toJson), ("message", some s.trace.toJson),
    ("execution_payload", s.body.map PayloadBody.toJson),
    ("signature", some (.ofFixed s.signature))]

theorem nodup_names : names.Nodup := by simp [names]

theorem toJson_eq (s : Submission) : s.toJson = .obj (Json.present s.entries) := by
  unfold toJson entries
  cases s.body <;> rfl

theorem plain_toJson (s : Submission) : s.toJson.plain = true := by
  rw [toJson_eq]
  refine Json.plain_present ?_
  simp only [entries, List.forall_mem_cons, Option.some.injEq, forall_eq', Option.map_eq_some_iff,
    Fork.plain_toJson, BidTrace.plain_toJson, Json.plain_ofFixed, true_and]
  refine ⟨?_, by simp⟩
  rintro x ⟨b, -, rfl⟩
  exact b.plain_toJson

/-- A submission is read back from the value it is written as, with a body or without. -/
theorem ofJson?_toJson (s : Submission) : ofJson? s.toJson = some s := by
  have fields : s.toJson.fields? names = some (s.entries.map (·.2)) := by
    rw [toJson_eq]
    exact Json.fields?_present s.entries nodup_names
  -- as for a payload, the body is an object and never null
  have body := Json.optional?_map PayloadBody.ofJson?_toJson PayloadBody.toJson_ne_null s.body
  simp only [ofJson?, fields, entries, List.map_cons, List.map_nil, Option.pure_def,
    Option.bind_eq_bind, Option.bind_some, Json.required?_some, Fork.ofJson?_toJson,
    BidTrace.ofJson?_toJson, body, Json.looseFixed?_ofFixed]

/-- A submission is read back from its text. -/
theorem ofText?_toText (s : Submission) : ofText? s.toText = some s := by
  rw [ofText?, toText, Json.read?_render s.plain_toJson, Option.bind_some, ofJson?_toJson]

end Submission

/-! ### Registrations -/

namespace Preferences

/-- The entries of written preferences. -/
def entries (p : Preferences) : List (String × Option Json) :=
  [("fee_recipient", some (.ofFixed p.feeRecipient)), ("gas_limit", some (.ofUInt64 p.gasLimit)),
    ("timestamp", some (.ofUInt64 p.timestamp)), ("pubkey", some (.ofFixed p.proposer))]

theorem nodup_names : names.Nodup := by simp [names]

theorem toJson_eq (p : Preferences) : p.toJson = .obj (Json.present p.entries) := rfl

theorem plain_toJson (p : Preferences) : p.toJson.plain = true := by
  rw [toJson_eq]
  exact Json.plain_present (by simp [entries])

theorem ofJson?_toJson (p : Preferences) : ofJson? p.toJson = some p := by
  have fields : p.toJson.fields? names = some (p.entries.map (·.2)) :=
    Json.fields?_present p.entries nodup_names
  simp only [ofJson?, fields, entries, List.map_cons, List.map_nil, Option.pure_def,
    Option.bind_eq_bind, Option.bind_some, Json.required?_some, Json.fixed?_ofFixed,
    Json.uint64?_ofUInt64, Json.looseFixed?_ofFixed]

end Preferences

namespace Registration

/-- The entries of a written registration. -/
def entries (r : Registration) : List (String × Option Json) :=
  [("message", some r.preferences.toJson), ("signature", some (.ofFixed r.signature))]

theorem nodup_names : names.Nodup := by simp [names]

theorem toJson_eq (r : Registration) : r.toJson = .obj (Json.present r.entries) := rfl

theorem plain_toJson (r : Registration) : r.toJson.plain = true := by
  rw [toJson_eq]
  exact Json.plain_present (by simp [entries, Preferences.plain_toJson])

theorem ofJson?_toJson (r : Registration) : ofJson? r.toJson = some r := by
  have fields : r.toJson.fields? names = some (r.entries.map (·.2)) :=
    Json.fields?_present r.entries nodup_names
  simp only [ofJson?, fields, entries, List.map_cons, List.map_nil, Option.pure_def,
    Option.bind_eq_bind, Option.bind_some, Json.required?_some, Preferences.ofJson?_toJson,
    Json.looseFixed?_ofFixed]

/-- A registration is read back from its text. -/
theorem ofText?_toText (r : Registration) : ofText? r.toText = some r := by
  rw [ofText?, toText, Json.read?_render r.plain_toJson, Option.bind_some, ofJson?_toJson]

end Registration

/-! ### Keys and signatures -/

namespace FixedBytes

variable {n : Nat}

/-- The JSON text of a key or a signature. -/
def toJsonText (b : FixedBytes n) : String := (Json.ofFixed b).render

/-- Reads the JSON text of a key or a signature. -/
def ofJsonText? (n : Nat) (s : String) : Option (FixedBytes n) :=
  (Json.read? s).bind (Json.looseFixed? n)

/-- A key or a signature is read back from its JSON text. -/
theorem ofJsonText?_toJsonText (b : FixedBytes n) : ofJsonText? n b.toJsonText = some b := by
  rw [ofJsonText?, toJsonText, Json.read?_render (Json.plain_ofFixed b), Option.bind_some,
    Json.looseFixed?_ofFixed]

end FixedBytes

/-- **The wire formats lose nothing:** whatever payload, submission, registration, public key or
signature is written, reading the text gives the same value again. -/
theorem wire_round_trip :
    (∀ p : Payload, Payload.ofText? p.toText = some p) ∧
      (∀ s : Submission, Submission.ofText? s.toText = some s) ∧
      (∀ r : Registration, Registration.ofText? r.toText = some r) ∧
      (∀ k : PublicKey, FixedBytes.ofJsonText? 48 k.toJsonText = some k) ∧
      (∀ s : Signature, FixedBytes.ofJsonText? 96 s.toJsonText = some s) :=
  ⟨Payload.ofText?_toText, Submission.ofText?_toText, Registration.ofText?_toText,
    FixedBytes.ofJsonText?_toJsonText, FixedBytes.ofJsonText?_toJsonText⟩

end BlockRelay
