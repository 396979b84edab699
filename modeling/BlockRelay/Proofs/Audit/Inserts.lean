import BlockRelay.Audit.Database
import Mathlib.Data.List.Forall2

/-!
# What is inserted, column by column

The text of an insert names its columns and then its placeholders, and the parameters are listed
beside it: three orders that nothing but care keeps together. Here every row is given its fields
once more, as a list of names and values (`fields`), and each insert is shown to be the one that
this list makes: the `i`-th name stands in the `i`-th column, the `i`-th placeholder is the
parameter with that number under the cast that the value needs, and the `i`-th parameter is the
value (`Statement.Inserts`).

A value may not fit its column. `RowValue.param` is what is bound for a single value, and
`RowFields.params_of_fits` and `RowFields.params_of_unfit` follow it along a list of fields: every
value is bound, or the first that does not fit gives the failure. `rows_saved_by_name` is the law
for the programs that save rows.
-/

namespace BlockRelay

/-! ### Values of rows -/

/-- The value of a field of a row. -/
inductive RowValue where
  | number (n : UInt64)
  /-- A number of transactions; its column is narrower than that of other numbers. -/
  | count (n : UInt64)
  /-- The number that the database gave to a row. -/
  | id (n : Int64)
  | flag (b : Bool)
  | text (s : String)
  | amount (w : Word256)
  | json (j : Json)

/-- The fields of a row by name. -/
abbrev RowFields := List (String × RowValue)

namespace RowValue

/-- The value as a record in JSON has it. -/
def toJson : RowValue → Json
  | .number n => .ofUInt64 n
  | .count n => .ofUInt64 n
  | .id n => .ofInt64 n
  | .flag b => .bool b
  | .text s => .str s
  | .amount w => .ofWord256 w
  | .json j => j

/-- Numbers fit if there is an integer with a sign for them. -/
def Fits : RowValue → Prop
  | .number n => n.toNat < 0x8000000000000000
  | .count n => n.toNat < 0x80000000
  | _ => True

/-- The cast behind a placeholder. -/
def cast : RowValue → String
  | .amount _ => "::numeric"
  | .json _ => "::json"
  | _ => ""

/-- The parameter is this value: an integer of the same value, an amount as decimal text, and
everything else as it is. -/
def BoundAs : RowValue → SqlValue → Prop
  | .number n, .bigint m => m.toInt = n.toNat
  | .count n, .int m => m.toInt = n.toNat
  | .id n, .bigint m => m = n
  | .flag b, .boolean c => c = b
  | .text s, .text t => t = s
  | .amount w, .text t => t = Text.Decimal.text w.toNat
  | .json j, .json k => k = j
  | _, _ => False

/-- The parameter for a value under the name of its column. -/
def param (name : String) : RowValue → Except RowError SqlValue
  | .number n => SqlValue.ofUInt64 name n
  | .count n => SqlValue.ofCount n
  | .id n => .ok (.bigint n)
  | .flag b => .ok (.boolean b)
  | .text s => .ok (.text s)
  | .amount w => .ok (SqlValue.ofWord256 w)
  | .json j => .ok (.json j)

variable {name : String} {v : RowValue}

/-- A value that fits is bound. -/
theorem param_of_fits (h : v.Fits) : ∃ p, v.param name = .ok p ∧ v.BoundAs p := by
  cases v with
  | number n =>
    have fits : n.toNat < 0x8000000000000000 := h
    refine ⟨_, if_pos fits, ?_⟩
    exact Int64.toInt_ofNat_of_lt fits
  -- the number of transactions has a narrower column
  | count n =>
    have fits : n.toNat < 0x80000000 := h
    refine ⟨_, if_pos fits, ?_⟩
    exact Int32.toInt_ofNat_of_lt fits
  | _ => exact ⟨_, rfl, rfl⟩

/-- A value that does not fit is refused, and the message begins with the name of its column. -/
theorem param_of_not_fits (h : ¬ v.Fits) (named : ∀ n, v = .count n → name = "num_tx") :
    ∃ e rest, v.param name = .error e ∧ e.message = name ++ " " ++ rest := by
  cases v with
  | number n =>
    have large : ¬ n.toNat < 0x8000000000000000 := h
    refine ⟨_, Text.Decimal.text n.toNat ++ " does not fit in bigint", if_neg large, ?_⟩
    simp only [RowError.message, String.append_assoc]
  -- this message has the column's name in it, whatever the column: hence `named`
  | count n =>
    have large : ¬ n.toNat < 0x80000000 := h
    refine ⟨_, "does not fit in int", if_neg large, ?_⟩
    rw [named n rfl]
    decide
  | _ => exact absurd trivial h

end RowValue

/-! ### Fields in a row -/

namespace RowFields

/-- The parameters of a row, if every value fits. -/
def params (fields : RowFields) : Except RowError (List SqlValue) :=
  fields.mapM fun f => f.2.param f.1

/-- Each parameter is the value of the field in its place. -/
def BoundAs (fields : RowFields) (params : List SqlValue) : Prop :=
  List.Forall₂ (fun f p => f.2.BoundAs p) fields params

variable {fields before after : RowFields} {f : String × RowValue} {e : RowError}

/-- **Where every value fits, every value is bound,** each in its place. -/
theorem params_of_fits (h : ∀ f ∈ fields, f.2.Fits) :
    ∃ ps, fields.params = .ok ps ∧ fields.BoundAs ps := by
  induction fields with
  | nil => exact ⟨[], rfl, .nil⟩
  | cons f fields ih =>
    have first : ∃ p, f.2.param f.1 = .ok p ∧ f.2.BoundAs p :=
      RowValue.param_of_fits (h f List.mem_cons_self)
    obtain ⟨p, hp, bound⟩ := first
    -- the fields are bound in order, the first before the rest
    obtain ⟨ps, hps, rest⟩ := ih fun g hg => h g (List.mem_cons_of_mem f hg)
    rw [params] at hps
    refine ⟨p :: ps, ?_, .cons bound rest⟩
    rw [params, List.mapM_cons, hp, hps]
    rfl

/-- **The first value that does not fit gives the failure.** -/
theorem params_of_unfit (h : ∀ g ∈ before, g.2.Fits) (unfit : f.2.param f.1 = .error e) :
    params (before ++ f :: after) = .error e := by
  obtain ⟨ps, bound, -⟩ := params_of_fits h
  rw [params] at bound
  rw [params, List.mapM_append, bound, List.mapM_cons, unfit]
  rfl

end RowFields

/-! ### Statements -/

/-- Columns by name, then their placeholders: one number after the other, each under its cast. -/
def columnsText (names casts : List String) : String :=
  " (" ++ ", ".intercalate names ++ ") VALUES (" ++
    ", ".intercalate ((casts.zipIdx 1).map fun (c, k) => "$" ++ toString k ++ c) ++ ")"

/-- The text of the insert that puts these fields into a table. -/
def insertText (table : String) (fields : RowFields) (ending : String) : String :=
  "INSERT INTO " ++ table ++ columnsText (fields.map (·.1)) (fields.map (·.2.cast)) ++ ending

/-- **The statement inserts these fields into this table:** the columns are the names, the
placeholders are the parameters in their order, and every parameter is the value of its field. -/
structure Statement.Inserts (s : Statement) (table : String) (fields : RowFields)
    (ending : String) : Prop where
  sql : s.sql = insertText table fields ending
  params : fields.BoundAs s.params

/-- The insert that a row comes to: that of its fields, if they fit. -/
def insertOf (table : String) (fields : RowFields) (ending : String) :
    Except RowError Statement :=
  fields.params >>= fun ps => pure ⟨insertText table fields ending, ps⟩

/-- The insert, where the text of its columns is known. -/
theorem insertOf_of_columns {fields : RowFields} {text : String}
    (h : columnsText (fields.map (·.1)) (fields.map (·.2.cast)) = text) (table ending : String) :
    insertOf table fields ending =
      fields.params >>= fun ps => pure ⟨"INSERT INTO " ++ table ++ text ++ ending, ps⟩ := by
  subst h
  rfl

namespace RegistrationRow

/-- The fields of a row. -/
def fields (r : RegistrationRow) : RowFields :=
  [("pubkey", .text r.pubkey), ("fee_recipient", .text r.feeRecipient),
    ("timestamp", .number r.timestamp), ("gas_limit", .number r.gasLimit),
    ("signature", .text r.signature)]

/-- The JSON keys of the row are the names of its fields, in the same order. -/
theorem toJson_eq_fields (r : RegistrationRow) :
    r.toJson = .obj (r.fields.map fun f => (f.1, f.2.toJson)) := rfl

/-- The statement of a registration is made of its fields, with the ending that replaces older rows.
-/
theorem insert_eq (t : Tables) (r : RegistrationRow) :
    r.insert t = insertOf t.registration r.fields (replaceOlder t.registration) := by
  -- the names and casts are fixed text, so the front of the statement is computed
  have columns : columnsText (r.fields.map (·.1)) (r.fields.map (·.2.cast)) =
      " (pubkey, fee_recipient, timestamp, gas_limit, signature) VALUES ($1, $2, $3, $4, $5)" := by
    show columnsText ["pubkey", "fee_recipient", "timestamp", "gas_limit", "signature"]
      ["", "", "", "", ""] = _
    decide
  rw [insertOf_of_columns columns, RowFields.params, fields]
  simp only [List.mapM_cons, bind_assoc]
  rfl

end RegistrationRow

namespace BidColumns

/-- The fields of a bid. -/
def fields (b : BidColumns) : RowFields :=
  [("epoch", .number b.epoch), ("slot", .number b.slot), ("builder_pubkey", .text b.builder),
    ("proposer_pubkey", .text b.proposer), ("proposer_fee_recipient", .text b.feeRecipient),
    ("parent_hash", .text b.parentHash), ("block_hash", .text b.blockHash),
    ("block_number", .number b.blockNumber), ("num_tx", .count b.transactionCount),
    ("value", .amount b.value), ("gas_used", .number b.gasUsed),
    ("gas_limit", .number b.gasLimit)]

theorem params_eq_fields (b : BidColumns) : b.params = b.fields.params := rfl

/-- The parameters of a bid with fields of a row's own behind it, all of which fit. -/
theorem params_append (b : BidColumns) {own : RowFields} {ps : List SqlValue}
    (h : own.params = .ok ps) :
    RowFields.params (b.fields ++ own) = b.params >>= fun bid => pure (bid ++ ps) := by
  have joined : RowFields.params (b.fields ++ own) =
      b.fields.params >>= fun bid => own.params >>= fun ps => pure (bid ++ ps) := List.mapM_append
  rw [joined, h, ← params_eq_fields]
  rfl

end BidColumns

namespace SubmissionRow

/-- The fields of a row. -/
def fields (r : SubmissionRow) : RowFields := r.bid.fields ++ [("payload", .json r.payload)]

theorem toJson_eq_fields (r : SubmissionRow) :
    r.toJson = .obj (r.fields.map fun f => (f.1, f.2.toJson)) := rfl

/-- The statement of a submission asks for the id of the new row. -/
theorem insert_eq (t : Tables) (r : SubmissionRow) :
    r.insert t = insertOf t.submission r.fields " RETURNING id" := by
  have columns : columnsText (r.fields.map (·.1)) (r.fields.map (·.2.cast)) =
      submissionColumns := by
    show columnsText (BidColumns.names ++ names)
      ["", "", "", "", "", "", "", "", "", "::numeric", "", "", "::json"] = _
    decide +kernel
  rw [insertOf_of_columns columns, fields, r.bid.params_append rfl, bind_assoc]
  rfl

end SubmissionRow

namespace SimulationRow

/-- The fields of a row. -/
def fields (r : SimulationRow) : RowFields :=
  [("block_submission_id", .id r.submissionId), ("success", .flag r.success),
    ("error", .text r.error)]

theorem toJson_eq_fields (r : SimulationRow) :
    r.toJson = .obj (r.fields.map fun f => (f.1, f.2.toJson)) := rfl

/-- The statement of a simulation cannot fail: no value of its row is unsigned. -/
theorem insert_eq (t : Tables) (r : SimulationRow) :
    .ok (r.insert t) = insertOf t.simulation r.fields "" := by
  have columns : columnsText (r.fields.map (·.1)) (r.fields.map (·.2.cast)) =
      " (block_submission_id, success, error) VALUES ($1, $2, $3)" := by
    show columnsText names ["", "", ""] = _
    decide
  rw [insertOf_of_columns columns, String.append_empty]
  rfl

end SimulationRow

namespace DeliveryRow

/-- The fields of a row. -/
def fields (r : DeliveryRow) : RowFields :=
  r.bid.fields ++
    [("execution_payload", .json r.payload), ("bid_trace", .json r.trace),
      ("bid_trace_builder_sig", .text r.traceSignature), ("signed_builder_bid", .json r.signedBid),
      ("signed_blinded_beacon_block", .json r.signedBlock)]

theorem toJson_eq_fields (r : DeliveryRow) :
    r.toJson = .obj (r.fields.map fun f => (f.1, f.2.toJson)) := rfl

/-- The statement of a delivery has all columns of the bid and five of its own. -/
theorem insert_eq (t : Tables) (r : DeliveryRow) :
    r.insert t = insertOf t.delivery r.fields "" := by
  -- the bid's columns, of which only the value is cast, and then the own ones
  have columns : columnsText (r.fields.map (·.1)) (r.fields.map (·.2.cast)) = deliveryColumns := by
    show columnsText (BidColumns.names ++ names)
      ["", "", "", "", "", "", "", "", "", "::numeric", "", "", "::json", "::json", "", "::json",
        "::json"] = _
    decide +kernel
  rw [insertOf_of_columns columns, fields, r.bid.params_append rfl, bind_assoc,
    String.append_empty]
  rfl

end DeliveryRow

/-! ### Programs -/

namespace DbProgram

variable {α β σ : Type} {serve : σ → DbCall → DbAnswer × σ}

/-- The calls that a program makes of a server, in order. -/
def calls (serve : σ → DbCall → DbAnswer × σ) : DbProgram α → σ → List DbCall
  | .done _, _ => []
  | .call c next, s => c :: (next (serve s c).1).calls serve (serve s c).2

/-- One program after another makes the calls of both. -/
theorem calls_bind (p : DbProgram α) (f : α → DbProgram β) (s : σ) :
    (p.bind f).calls serve s =
      p.calls serve s ++ (f (p.run serve s).1).calls serve (p.run serve s).2 := by
  induction p generalizing s with
  | done a => rfl
  | call c next ih =>
    show c :: ((next (serve s c).1).bind f).calls serve (serve s c).2 = _
    rw [ih]
    rfl

theorem run_ask (c : DbCall) (s : σ) : (ask c).run serve s = serve s c := rfl

/-- What is done with a result without a call adds no call. -/
theorem calls_bind_of_done (p : DbProgram α) {f : α → DbProgram β} (h : ∀ a, ∃ b, f a = .done b)
    (s : σ) : (p.bind f).calls serve s = p.calls serve s := by
  obtain ⟨b, hb⟩ := h (p.run serve s).1
  rw [calls_bind, hb]
  exact List.append_nil _

/-- A continuation that calls nobody adds no call. -/
theorem calls_andThen_of_done (p : DbProgram (Except DbError α))
    {f : α → DbProgram (Except DbError β)} (h : ∀ a, ∃ b, f a = .done b) (s : σ) :
    (p.andThen f).calls serve s = p.calls serve s := by
  refine calls_bind_of_done p (fun r => ?_) s
  cases r with
  | ok a => exact h a
  | error e => exact ⟨_, rfl⟩

/-- A statement is sent over a connection, if there is one. -/
theorem calls_sendStatement (st : Statement) (s : σ) :
    (sendStatement st).calls serve s =
      match (serve s .acquire).1 with
      | .ok _ => [.acquire, .execute st]
      | .error _ => [.acquire] := by
  rw [sendStatement, andThen, calls_bind, run_ask]
  cases (serve s .acquire).1 with
  | ok a => rfl
  | error e => rfl

end DbProgram

/-- **The program saves a row by name.** If every value fits, one insert of the row's fields is
sent, over a connection if there is one, and nothing else. Otherwise the failure names the first
field whose value does not fit, and nothing is sent. -/
structure SavesByName {α : Type} (p : DbProgram (Except DbError α)) (table : String)
    (fields : RowFields) (ending : String) : Prop where
  nodup : (fields.map (·.1)).Nodup
  sent : (∀ f ∈ fields, f.2.Fits) → ∃ st : Statement, st.Inserts table fields ending ∧
    ∀ (σ : Type) (serve : σ → DbCall → DbAnswer × σ) (s : σ), p.calls serve s =
      match (serve s .acquire).1 with
      | .ok _ => [.acquire, .execute st]
      | .error _ => [.acquire]
  refused : ∀ before f after, fields = before ++ f :: after → (∀ g ∈ before, g.2.Fits) →
    ¬ f.2.Fits → ∃ e rest, e.message = f.1 ++ " " ++ rest ∧
      ∀ (σ : Type) (serve : σ → DbCall → DbAnswer × σ) (s : σ),
        p.run serve s = (.error (.row e), s) ∧ p.calls serve s = []

/-- The inserts of fields save them by name, whatever is made of the server's answer. -/
theorem savesByName_sendInsert {α : Type} {table ending : String} {fields : RowFields}
    {insert : Except RowError Statement} {finish : Option Int64 → DbProgram (Except DbError α)}
    (eq : insert = insertOf table fields ending) (nodup : (fields.map (·.1)).Nodup)
    (named : ∀ f ∈ fields, ∀ n, f.2 = .count n → f.1 = "num_tx")
    (silent : ∀ a, ∃ b, finish a = .done b) :
    SavesByName ((sendInsert insert).andThen finish) table fields ending where
  nodup := nodup
  sent := by
    intro fits
    -- every value fits: the statement exists, and it is all that is sent
    obtain ⟨ps, hps, bound⟩ := RowFields.params_of_fits fits
    have made : insert = .ok ⟨insertText table fields ending, ps⟩ := by
      rw [eq, insertOf, hps]
      rfl
    refine ⟨⟨insertText table fields ending, ps⟩, ⟨rfl, bound⟩, fun σ serve s => ?_⟩
    rw [DbProgram.calls_andThen_of_done _ silent, made]
    exact DbProgram.calls_sendStatement _ s
  refused := by
    intro before f after split_ fits unfit
    have mem : f ∈ fields := by
      rw [split_]
      exact List.mem_append_right _ List.mem_cons_self
    -- the first value that does not fit stops the binding before anything is sent
    obtain ⟨e, rest, he, message⟩ := RowValue.param_of_not_fits unfit (named f mem)
    have failed : insert = .error e := by
      rw [eq, insertOf, split_, RowFields.params_of_unfit fits he]
      rfl
    refine ⟨e, rest, message, fun σ serve s => ?_⟩
    rw [failed]
    exact ⟨rfl, rfl⟩

/-- **Rows are saved by name.** The fields of every row are those of its JSON text, and what
saves a row puts each of them into the column of its name in the row's own table. -/
theorem rows_saved_by_name (t : Tables) :
    (∀ r : RegistrationRow, r.toJson = .obj (r.fields.map fun f => (f.1, f.2.toJson)) ∧
      SavesByName (saveRegistration t r) t.registration r.fields (replaceOlder t.registration)) ∧
    (∀ r : SubmissionRow, r.toJson = .obj (r.fields.map fun f => (f.1, f.2.toJson)) ∧
      SavesByName (saveSubmission t r) t.submission r.fields " RETURNING id") ∧
    (∀ r : SimulationRow, r.toJson = .obj (r.fields.map fun f => (f.1, f.2.toJson)) ∧
      SavesByName (saveSimulation t r) t.simulation r.fields "") ∧
    ∀ r : DeliveryRow, r.toJson = .obj (r.fields.map fun f => (f.1, f.2.toJson)) ∧
      SavesByName (saveDelivery t r) t.delivery r.fields "" := by
  -- three of the four programs drop the answer; only a submission's looks at the id
  have forgotten (a : Option Int64) :
      ∃ b : Except DbError Unit, DbProgram.done (.ok ()) = DbProgram.done b := ⟨_, rfl⟩
  refine ⟨fun r => ⟨r.toJson_eq_fields, ?_⟩, fun r => ⟨r.toJson_eq_fields, ?_⟩,
    fun r => ⟨r.toJson_eq_fields, ?_⟩, fun r => ⟨r.toJson_eq_fields, ?_⟩⟩
  · exact savesByName_sendInsert (r.insert_eq t) (show RegistrationRow.names.Nodup by decide)
      (by simp [RegistrationRow.fields]) forgotten
  · exact savesByName_sendInsert (r.insert_eq t)
      (show (BidColumns.names ++ SubmissionRow.names).Nodup by decide)
      (by simp [SubmissionRow.fields, BidColumns.fields]) fun a => by cases a <;> exact ⟨_, rfl⟩
  · exact savesByName_sendInsert (r.insert_eq t) (show SimulationRow.names.Nodup by decide)
      (by simp [SimulationRow.fields]) forgotten
  · exact savesByName_sendInsert (r.insert_eq t)
      (show (BidColumns.names ++ DeliveryRow.names).Nodup by decide)
      (by simp [DeliveryRow.fields, BidColumns.fields]) forgotten

/-- A submission with as many transactions as an integer of 32 bits can count is sent, and one with
one more is refused for that column, although the gas behind it does not fit either. -/
theorem rows_saved_by_name_num_tx :
    (∃ st : Statement, st.params.length = 13 ∧
      st.sql = "INSERT INTO holesky_builder_block_submission" ++ submissionColumns ++
        " RETURNING id" ∧
      (saveSubmission (.of "holesky")
        ⟨⟨1, 32, "b", "p", "f", "h", "i", 7, 0x7fffffff, 5, 21000, 30000⟩, .null⟩).calls
        DrillServer.serve ⟨none, [], 1, []⟩ = [.acquire, .execute st]) ∧
    ∃ e rest, e.message = "num_tx" ++ " " ++ rest ∧
      (saveSubmission (.of "holesky")
        ⟨⟨1, 32, "b", "p", "f", "h", "i", 7, 0x80000000, 5, 0xffffffffffffffff, 30000⟩, .null⟩).run
        DrillServer.serve ⟨none, [], 1, []⟩ = (.error (.row e), ⟨none, [], 1, []⟩) := by
  let fits : SubmissionRow :=
    ⟨⟨1, 32, "b", "p", "f", "h", "i", 7, 0x7fffffff, 5, 21000, 30000⟩, .null⟩
  let tooMany : SubmissionRow :=
    ⟨⟨1, 32, "b", "p", "f", "h", "i", 7, 0x80000000, 5, 0xffffffffffffffff, 30000⟩, .null⟩
  constructor
  · have allFit : ∀ f ∈ fits.fields, f.2.Fits := by
      simp [fits, SubmissionRow.fields, BidColumns.fields, RowValue.Fits]
    obtain ⟨st, inserts, calls⟩ := ((rows_saved_by_name (.of "holesky")).2.1 fits).2.sent allFit
    refine ⟨st, ?_, ?_, calls _ _ _⟩
    · exact inserts.params.length_eq.symm
    · rw [inserts.sql]
      decide +kernel
  · -- the first eight fields fit; `gas_used` does not either, but stands behind `num_tx`
    have before : ∀ g ∈ tooMany.fields.take 8, g.2.Fits := by
      simp [tooMany, SubmissionRow.fields, BidColumns.fields, RowValue.Fits]
    have unfit : ¬ (RowValue.count 0x80000000).Fits := by simp [RowValue.Fits]
    obtain ⟨e, rest, message, run⟩ := ((rows_saved_by_name (.of "holesky")).2.1 tooMany).2.refused
      (tooMany.fields.take 8) ("num_tx", .count 0x80000000) (tooMany.fields.drop 9) rfl before unfit
    exact ⟨e, rest, message, (run _ _ _).1⟩

end BlockRelay
