import BlockRelay.Audit.Row
import BlockRelay.Proofs.Json.Kept
import BlockRelay.Proofs.Json.Records
import BlockRelay.Proofs.Wire.RoundTrip

/-!
# Round trip of audit rows

Rows are kept as JSON and read back later. Three of the five kinds of rows are records like those
on the wire. The rows of submissions and deliveries are put together: the columns of the bid stand
at the level of the object itself, beside fields of the row's own, some of which hold free values.

The reader has to take that apart again. It gives every field that it does not know to the bid,
so it matters that the two sets of names are disjoint; `BidColumns.split?_append` is the one
statement about this, for any own fields that keep clear of the bid's names. A free value comes
back as it was because it is kept (`Json.Kept`).

`row_round_trip` is the law for all five kinds.
-/

namespace BlockRelay

namespace RegistrationRow

/-- The entries of a written row. -/
def entries (r : RegistrationRow) : List (String × Option Json) :=
  [("pubkey", some (.str r.pubkey)), ("fee_recipient", some (.str r.feeRecipient)),
    ("timestamp", some (.ofUInt64 r.timestamp)), ("gas_limit", some (.ofUInt64 r.gasLimit)),
    ("signature", some (.str r.signature))]

theorem plain_toJson (r : RegistrationRow) : r.toJson.plain = true := by
  have written : r.toJson = .obj (Json.present r.entries) := rfl
  rw [written]
  exact Json.plain_present (by simp [entries])

/-- A registration's row is read back from the value it is written as. -/
theorem ofJson?_toJson (r : RegistrationRow) : ofJson? r.toJson = some r := by
  have fields : r.toJson.fields? names = some (r.entries.map (·.2)) :=
    Json.fields?_present r.entries (show names.Nodup by decide)
  rw [ofJson?, fields, Option.bind_eq_bind, Option.bind_some]
  simp only [entries, List.map_cons, List.map_nil]
  simp only [Json.required?_some, Json.uint64?_ofUInt64, Json.text?]
  rfl

end RegistrationRow

namespace SimulationRow

/-- The entries of a written row. -/
def entries (r : SimulationRow) : List (String × Option Json) :=
  [("block_submission_id", some (.ofInt64 r.submissionId)), ("success", some (.bool r.success)),
    ("error", some (.str r.error))]

theorem plain_toJson (r : SimulationRow) : r.toJson.plain = true := by
  have written : r.toJson = .obj (Json.present r.entries) := rfl
  rw [written]
  exact Json.plain_present (by simp [entries, Json.plain])

/-- A simulation's row is read back from the value it is written as, a negative id included. -/
theorem ofJson?_toJson (r : SimulationRow) : ofJson? r.toJson = some r := by
  have fields : r.toJson.fields? names = some (r.entries.map (·.2)) :=
    Json.fields?_present r.entries (show names.Nodup by decide)
  rw [ofJson?, fields, Option.bind_eq_bind, Option.bind_some]
  simp only [entries, List.map_cons, List.map_nil]
  simp only [Json.required?_some, Json.int64?_ofInt64, Json.text?, Json.bool?]
  rfl

end SimulationRow

/-! ### Bids -/

namespace BidColumns

theorem names_toFields (b : BidColumns) : b.toFields.map (·.1) = names := rfl

theorem nodup_names : names.Nodup := by decide

/-- The columns are scalars: nothing in them is lost in writing, and none lies deeper. -/
theorem scalar_of_mem {b : BidColumns} {f : String × Json} (h : f ∈ b.toFields) :
    f.2.plain = true ∧ f.2.depth = 0 := by
  have number : ∀ n : UInt64, (Json.ofUInt64 n).depth = 0 := fun _ => rfl
  have amount : ∀ w : Word256, (Json.ofWord256 w).depth = 0 := fun _ => rfl
  have text : ∀ s : String, (Json.str s).depth = 0 := fun _ => rfl
  have all : ∀ f ∈ b.toFields, f.2.plain = true ∧ f.2.depth = 0 := by
    simp [toFields, number, amount, text]
  exact all f h

/-- Own fields beside the columns leave the object plain if they are plain themselves. -/
theorem plain_append {b : BidColumns} {mine : List (String × Json)}
    (h : ∀ f ∈ mine, f.2.plain = true) : Json.plain (.obj (b.toFields ++ mine)) = true := by
  rw [Json.plain_obj, List.all_eq_true]
  intro f hf
  rcases List.mem_append.1 hf with hf | hf
  · exact (scalar_of_mem hf).1
  · exact h f hf

theorem ofJson?_toFields (b : BidColumns) : ofJson? (.obj b.toFields) = some b := by
  have fields : Json.fields? names (.obj b.toFields) = some (b.toFields.map fun f => some f.2) :=
    Json.fields?_self b.toFields nodup_names
  rw [ofJson?, fields, Option.bind_eq_bind, Option.bind_some]
  simp only [toFields, List.map_cons, List.map_nil]
  simp only [Json.required?_some, Json.uint64?_ofUInt64, Json.word256?_ofWord256, Json.text?]
  rfl

/-- **What was put together is taken apart again,** for any own fields whose names are not among
those of the bid. -/
theorem split?_append (b : BidColumns) (mine : List (String × Json))
    (nodup : (mine.map (·.1)).Nodup) (apart : ∀ n ∈ mine.map (·.1), n ∉ names) :
    split? (mine.map (·.1)) (.obj (b.toFields ++ mine)) =
      some (mine.map fun f => some f.2, b) := by
  have foreign : ∀ f ∈ b.toFields, f.1 ∉ mine.map (·.1) := by
    intro f hf own
    have bids : f.1 ∈ names := by
      rw [← names_toFields b]
      exact List.mem_map_of_mem hf
    exact apart f.1 own bids
  -- what goes to the bid: all its fields, and no own one
  have others : (b.toFields ++ mine).filter (fun f => !(mine.map (·.1)).contains f.1) =
      b.toFields := by
    have kept : b.toFields.filter (fun f => !(mine.map (·.1)).contains f.1) = b.toFields :=
      List.filter_eq_self.2 fun f hf => by
        rw [Bool.not_eq_true', List.contains_eq_mem, decide_eq_false_iff_not]
        exact foreign f hf
    have gone : mine.filter (fun f => !(mine.map (·.1)).contains f.1) = [] :=
      List.filter_eq_nil_iff.2 fun f hf => by
        rw [Bool.not_eq_true', List.contains_eq_mem, decide_eq_false_iff_not, not_not]
        exact List.mem_map_of_mem hf
    rw [List.filter_append, kept, gone, List.append_nil]
  -- the limits on foreign fields are no obstacle, as columns are scalars
  have readable :
      (b.toFields.all fun f => f.2.readable && f.2.depth + 1 ≤ Json.maxDepth) = true := by
    rw [List.all_eq_true]
    intro f hf
    obtain ⟨plain, depth⟩ := scalar_of_mem hf
    rw [Json.readable_of_plain _ plain, depth]
    decide
  have values := (Json.fields?_append mine foreign).trans (Json.fields?_self mine nodup)
  have passed : (guard ((b.toFields.all fun f =>
      f.2.readable && f.2.depth + 1 ≤ Json.maxDepth) = true) : Option Unit) = some () :=
    if_pos readable
  rw [split?, others, passed, values, ofJson?_toFields]
  rfl

end BidColumns

namespace SubmissionRow

theorem toJson_eq (r : SubmissionRow) :
    r.toJson = .obj (r.bid.toFields ++ [("payload", r.payload)]) := rfl

/-- The rows that are made of submissions hold kept values. -/
theorem kept_ofSubmission (s : Submission) : (ofSubmission s).payload.Kept :=
  Json.kept_sorted s.plain_toJson

theorem plain_toJson {r : SubmissionRow} (h : r.payload.plain = true) : r.toJson.plain = true := by
  rw [toJson_eq]
  exact BidColumns.plain_append (by simpa using h)

/-- The row of a submission is read back if its payload is kept and lies within the reader's depth.
-/
theorem ofJson?_toJson {r : SubmissionRow} (h : r.payload.Kept) (fits : r.toJson.depth < 128) :
    ofJson? r.toJson = some r := by
  have taken : BidColumns.split? names r.toJson = some ([some r.payload], r.bid) :=
    r.bid.split?_append [("payload", r.payload)] (by simp) (by simp [BidColumns.names])
  -- the payload lies deeper than the row, so the row's bound covers it
  have below : r.payload.depth < r.toJson.depth :=
    Json.depth_lt_of_mem (f := ("payload", r.payload))
      (List.mem_append_right _ (List.mem_singleton_self _))
  have payload : Json.free? 1 r.payload = some r.payload :=
    Json.free?_of_kept h (by rw [Json.maxDepth]; omega)
  rw [ofJson?, taken, Option.bind_eq_bind, Option.bind_some]
  simp only [Json.required?_some, payload]
  rfl

end SubmissionRow

namespace DeliveryRow

/-- The fields of a written row that are not the bid's. -/
def own (r : DeliveryRow) : List (String × Json) :=
  [("execution_payload", r.payload), ("bid_trace", r.trace),
    ("bid_trace_builder_sig", .str r.traceSignature), ("signed_builder_bid", r.signedBid),
    ("signed_blinded_beacon_block", r.signedBlock)]

theorem toJson_eq (r : DeliveryRow) : r.toJson = .obj (r.bid.toFields ++ r.own) := rfl

theorem names_own (r : DeliveryRow) : r.own.map (·.1) = names := rfl

/-- The free values of a delivery are kept. -/
structure Kept (r : DeliveryRow) : Prop where
  payload : r.payload.Kept
  trace : r.trace.Kept
  signedBid : r.signedBid.Kept
  signedBlock : r.signedBlock.Kept

theorem plain_toJson {r : DeliveryRow} (h : r.Kept) : r.toJson.plain = true := by
  rw [toJson_eq]
  refine BidColumns.plain_append ?_
  simp [own, h.payload.plain, h.trace.plain, h.signedBid.plain, h.signedBlock.plain]

/-- The row of a delivery is read back if its four free values are kept and it lies within the
reader's depth. -/
theorem ofJson?_toJson {r : DeliveryRow} (h : r.Kept) (fits : r.toJson.depth < 128) :
    ofJson? r.toJson = some r := by
  -- once the bid's columns are split off, every own field is in place
  have taken : BidColumns.split? names r.toJson = some (r.own.map fun f => some f.2, r.bid) :=
    r.bid.split?_append r.own (by rw [names_own]; decide) (by rw [names_own]; decide)
  -- a free value lies deeper than the row, so the row's bound covers it
  have read : ∀ f ∈ r.own, f.2.Kept → Json.free? 1 f.2 = some f.2 := by
    intro f hf kept
    have below : f.2.depth < r.toJson.depth :=
      Json.depth_lt_of_mem (List.mem_append_right _ hf)
    exact Json.free?_of_kept kept (by rw [Json.maxDepth]; omega)
  have payload := read ("execution_payload", r.payload) (by simp [own]) h.payload
  have trace := read ("bid_trace", r.trace) (by simp [own]) h.trace
  have signedBid := read ("signed_builder_bid", r.signedBid) (by simp [own]) h.signedBid
  have signedBlock := read ("signed_blinded_beacon_block", r.signedBlock) (by simp [own])
    h.signedBlock
  rw [ofJson?, taken, Option.bind_eq_bind, Option.bind_some]
  simp only [own, List.map_cons, List.map_nil]
  simp only [Json.required?_some, Json.text?, payload, trace, signedBid, signedBlock]
  rfl

end DeliveryRow

/-! ### All rows -/

/-- **Rows are read back as they were written:** registrations, bids and simulations whatever they
hold, submissions and deliveries if their free values are kept and their text is not nested too
deep to be read. In the text of the latter every column of the bid and every field of the row's
own has its name once, so none takes the place of another. -/
theorem row_round_trip :
    (∀ r : RegistrationRow, (Json.read? r.toJson.render).bind RegistrationRow.ofJson? = some r) ∧
    (∀ b : BidColumns, (Json.read? b.toJson.render).bind BidColumns.ofJson? = some b) ∧
    (∀ r : SimulationRow, (Json.read? r.toJson.render).bind SimulationRow.ofJson? = some r) ∧
    (∀ r : SubmissionRow, r.payload.Kept → r.toJson.depth < 128 →
      (Json.read? r.toJson.render).bind SubmissionRow.ofJson? = some r ∧
      ∃ fields, r.toJson = .obj fields ∧
        fields.map (·.1) = BidColumns.names ++ SubmissionRow.names ∧ (fields.map (·.1)).Nodup) ∧
    ∀ r : DeliveryRow, r.Kept → r.toJson.depth < 128 →
      (Json.read? r.toJson.render).bind DeliveryRow.ofJson? = some r ∧
      ∃ fields, r.toJson = .obj fields ∧
        fields.map (·.1) = BidColumns.names ++ DeliveryRow.names ∧ (fields.map (·.1)).Nodup := by
  refine ⟨fun r => ?_, fun b => ?_, fun r => ?_, fun r kept fits => ⟨?_, ?_⟩,
    fun r kept fits => ⟨?_, ?_⟩⟩
  · exact Json.read_render r.plain_toJson r.ofJson?_toJson
  · -- a bid alone is a bid with no own fields
    have plain : b.toJson.plain = true := by
      have alone : b.toJson = .obj (b.toFields ++ []) := by rw [List.append_nil]; rfl
      rw [alone]
      exact BidColumns.plain_append (by simp)
    exact Json.read_render plain b.ofJson?_toFields
  · exact Json.read_render r.plain_toJson r.ofJson?_toJson
  · exact Json.read_render (SubmissionRow.plain_toJson kept.plain)
      (SubmissionRow.ofJson?_toJson kept fits)
  · refine ⟨_, r.toJson_eq, rfl, ?_⟩
    -- `toJson_eq` lists the fields, so the names are a fixed list
    show (BidColumns.names ++ SubmissionRow.names).Nodup
    decide
  · exact Json.read_render (DeliveryRow.plain_toJson kept) (DeliveryRow.ofJson?_toJson kept fits)
  · refine ⟨_, r.toJson_eq, rfl, ?_⟩
    show (BidColumns.names ++ DeliveryRow.names).Nodup
    decide

/-- A bid with texts that need escapes, numbers at both ends of their ranges, and free values that
hold names of columns themselves. -/
theorem row_round_trip_escapes :
    ∃ (s : SubmissionRow) (d : DeliveryRow), s.payload.Kept ∧ s.toJson.depth < 128 ∧ d.Kept ∧
      d.toJson.depth < 128 ∧ d.bid = s.bid ∧ s.bid.slot = 0xffffffffffffffff ∧
      s.bid.builder = "a\"b\\c\u0001\n" ∧
      s.payload =
        .obj [("slot", .int (-1)), ("value", .arr [.null, .obj [("payload", .str "é")]])] ∧
      (Json.read? s.toJson.render).bind SubmissionRow.ofJson? = some s ∧
      (Json.read? d.toJson.render).bind DeliveryRow.ofJson? = some d := by
  -- quotes, controls, the largest numbers, and a payload that reuses the bid's names
  let bid : BidColumns := ⟨0, 0xffffffffffffffff, "a\"b\\c\u0001\n", "", "é", "", "\u007f", 0, 1,
    BitVec.allOnes 256, 2, 3⟩
  let payload : Json :=
    .obj [("slot", .int (-1)), ("value", .arr [.null, .obj [("payload", .str "é")]])]
  let s : SubmissionRow := ⟨bid, payload⟩
  let d : DeliveryRow := ⟨bid, payload, .arr [], "sig", .obj [], .bool true⟩
  have payloadKept : payload.Kept := ⟨by decide, by decide⟩
  have dKept : d.Kept := ⟨payloadKept, ⟨rfl, rfl⟩, ⟨rfl, rfl⟩, ⟨rfl, rfl⟩⟩
  have sFits : s.toJson.depth < 128 := by decide
  have dFits : d.toJson.depth < 128 := by decide
  exact ⟨s, d, payloadKept, sFits, dKept, dFits, rfl, rfl, rfl, rfl,
    (row_round_trip.2.2.2.1 s payloadKept sFits).1, (row_round_trip.2.2.2.2 d dKept dFits).1⟩

end BlockRelay
