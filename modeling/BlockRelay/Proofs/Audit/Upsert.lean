import BlockRelay.Proofs.Audit.Verdicts

/-!
# Inserts that replace older rows

An insert may say what is to happen to a row that is there already under the same key: the row takes
over some columns of the new one, if one of its columns is below that of the new one. `Upsert` is
such an insert, `Upsert.text` its wording and `Upsert.apply` its meaning for the rows of a table.

Saving a registration sends one (`registrations`), which replaces every column but the key. On a
table of registrations it comes to `keepNewer` (`apply_stored`), so a run of saves can be followed
on registrations (`run_saveAll_registrations`).
-/

namespace BlockRelay

/-! ### Rows of a table -/

/-- A row of a table: the values of its columns by name, but for those that the database fills in
itself. -/
abbrev StoredRow := List (String × SqlValue)

namespace SqlValue

/-- Whether two values are equal. Values of different types are not compared, and JSON is not
compared at all. -/
def same : SqlValue → SqlValue → Bool
  | .bigint a, .bigint b => a = b
  | .int a, .int b => a = b
  | .boolean a, .boolean b => a = b
  | .text a, .text b => a = b
  | _, _ => false

/-- Whether a number is below another. -/
def below : SqlValue → SqlValue → Bool
  | .bigint a, .bigint b => a < b
  | .int a, .int b => a < b
  | _, _ => false

end SqlValue

/-- Whether two rows have values in a column that compare in a certain way. -/
def StoredRow.compare (test : SqlValue → SqlValue → Bool) (column : String) (row new : StoredRow) :
    Bool :=
  match row.lookup column, new.lookup column with
  | some a, some b => test a b
  | _, _ => false

/-- **An insert that replaces older rows.** -/
structure Upsert where
  table : String
  columns : List String
  /-- The column under whose values there is one row at most. -/
  key : String
  /-- The columns that a row takes over from the new one of the same key. -/
  replaced : List String
  /-- The column that must be below that of the new row. -/
  newer : String

namespace Upsert

/-- The wording of an insert, with a placeholder for every column. -/
def text (u : Upsert) : String :=
  "INSERT INTO " ++ u.table ++ columnsText u.columns (u.columns.map fun _ => "") ++
    (" ON CONFLICT (" ++ u.key ++ ") DO UPDATE SET " ++
      ", ".intercalate (u.replaced.map fun c => c ++ " = EXCLUDED." ++ c) ++
      " WHERE " ++ u.table ++ ("." ++ u.newer ++ " < EXCLUDED." ++ u.newer))

/-- A row that takes over the columns of a new one. -/
def replace (u : Upsert) (new row : StoredRow) : StoredRow :=
  row.map fun (c, v) => (c, if c ∈ u.replaced then (new.lookup c).getD v else v)

/-- **The meaning of an insert:** a row under a new key is added; where the key is known, its row
takes over the replaced columns, all at once, if it is older, and stays as it is otherwise. -/
def apply (u : Upsert) (new : StoredRow) (rows : List StoredRow) : List StoredRow :=
  if rows.any fun row => row.compare SqlValue.same u.key new then
    rows.map fun row =>
      if row.compare SqlValue.same u.key new && row.compare SqlValue.below u.newer new then
        u.replace new row
      else row
  else rows ++ [new]

/-- A server that has the table and knows the insert. -/
def serve (u : Upsert) (rows : List StoredRow) : DbCall → DbAnswer × List StoredRow
  | .execute st =>
    if st.sql = u.text then (.ok none, u.apply (u.columns.zip st.params) rows)
    else (.error (.refused "unknown statement"), rows)
  | _ => (.ok none, rows)

end Upsert

/-- **The insert of registrations.** It replaces every column but the key. -/
def registrations (t : Tables) : Upsert where
  table := t.registration
  columns := ["pubkey", "fee_recipient", "timestamp", "gas_limit", "signature"]
  key := "pubkey"
  replaced := ["fee_recipient", "timestamp", "gas_limit", "signature"]
  newer := "timestamp"

namespace RegistrationRow

/-- A row fits if there are integers with a sign for its numbers. -/
def Fits (r : RegistrationRow) : Prop :=
  r.timestamp.toNat < 0x8000000000000000 ∧ r.gasLimit.toNat < 0x8000000000000000

instance (r : RegistrationRow) : Decidable r.Fits := inferInstanceAs (Decidable (_ ∧ _))

/-- The row as the database has it. -/
def stored (r : RegistrationRow) : StoredRow :=
  [("pubkey", .text r.pubkey), ("fee_recipient", .text r.feeRecipient),
    ("timestamp", .bigint (Int64.ofNat r.timestamp.toNat)),
    ("gas_limit", .bigint (Int64.ofNat r.gasLimit.toNat)), ("signature", .text r.signature)]

variable {r k : RegistrationRow} {t : Tables}

/-- The wording of the statement for a registration. -/
theorem text_registrations (t : Tables) :
    (registrations t).text = "INSERT INTO " ++ t.registration ++
      " (pubkey, fee_recipient, timestamp, gas_limit, signature) VALUES ($1, $2, $3, $4, $5)" ++
      replaceOlder t.registration := by
  have columns : columnsText (registrations t).columns ((registrations t).columns.map fun _ => "") =
      " (pubkey, fee_recipient, timestamp, gas_limit, signature) VALUES ($1, $2, $3, $4, $5)" := by
    show columnsText ["pubkey", "fee_recipient", "timestamp", "gas_limit", "signature"]
      ["", "", "", "", ""] = _
    decide
  -- the table's name is a variable, so the fixed text before and after it is computed apart
  have front : " ON CONFLICT (" ++ "pubkey" ++ ") DO UPDATE SET " ++
        ", ".intercalate (["fee_recipient", "timestamp", "gas_limit", "signature"].map
          fun c => c ++ " = EXCLUDED." ++ c) ++ " WHERE " =
      " ON CONFLICT (pubkey) DO UPDATE SET fee_recipient = EXCLUDED.fee_recipient, " ++
        "timestamp = EXCLUDED.timestamp, gas_limit = EXCLUDED.gas_limit, " ++
        "signature = EXCLUDED.signature WHERE " := by
    decide +kernel
  have back : "." ++ "timestamp" ++ " < EXCLUDED." ++ "timestamp" =
      ".timestamp < EXCLUDED.timestamp" := by
    decide
  have ending := congrArg₂ (fun front back => front ++ t.registration ++ back) front back
  exact congrArg₂ (fun columns ending => "INSERT INTO " ++ t.registration ++ columns ++ ending)
    columns ending

/-- The statement of a row that fits is the insert of registrations with the row for parameters. -/
theorem insert_of_fits (h : r.Fits) :
    r.insert t = .ok ⟨(registrations t).text, r.stored.map (·.2)⟩ := by
  rw [RegistrationRow.insert, SqlValue.ofUInt64, if_pos h.1, SqlValue.ofUInt64, if_pos h.2,
    text_registrations]
  rfl

/-- There is no statement for a row that does not fit. -/
theorem insert_of_not_fits (h : ¬ r.Fits) : ∃ e, r.insert t = .error e := by
  by_cases timestamp : r.timestamp.toNat < 0x8000000000000000
  · have gasLimit : ¬ r.gasLimit.toNat < 0x8000000000000000 := fun fits => h ⟨timestamp, fits⟩
    rw [RegistrationRow.insert, SqlValue.ofUInt64, if_pos timestamp, SqlValue.ofUInt64,
      if_neg gasLimit]
    exact ⟨_, rfl⟩
  · rw [RegistrationRow.insert, SqlValue.ofUInt64, if_neg timestamp]
    exact ⟨_, rfl⟩

/-! ### The insert on registrations -/

/-- What becomes of a row when a registration is saved. -/
def replacedBy (r k : RegistrationRow) : RegistrationRow :=
  if k.pubkey = r.pubkey ∧ k.timestamp < r.timestamp then r else k

/-- What becomes of the rows of a table when a registration is saved. -/
def keepNewer (r : RegistrationRow) (kept : List RegistrationRow) : List RegistrationRow :=
  if ∃ k ∈ kept, k.pubkey = r.pubkey then kept.map r.replacedBy else kept ++ [r]

theorem replacedBy_of_older (h : k.pubkey = r.pubkey ∧ k.timestamp < r.timestamp) :
    r.replacedBy k = r := if_pos h

theorem replacedBy_of_not_older (h : ¬ (k.pubkey = r.pubkey ∧ k.timestamp < r.timestamp)) :
    r.replacedBy k = k := if_neg h

theorem pubkey_replacedBy (r k : RegistrationRow) : (r.replacedBy k).pubkey = k.pubkey := by
  by_cases older : k.pubkey = r.pubkey ∧ k.timestamp < r.timestamp
  · rw [replacedBy_of_older older, older.1]
  · rw [replacedBy_of_not_older older]

/-- Among rows that fit, the table compares the times as the rows do: as `bigint` they are not
negative. -/
theorem compare_timestamp (hk : k.Fits) (hr : r.Fits) :
    k.stored.compare SqlValue.below "timestamp" r.stored = decide (k.timestamp < r.timestamp) := by
  show decide (Int64.ofNat k.timestamp.toNat < Int64.ofNat r.timestamp.toNat) = _
  rw [decide_eq_decide, Int64.lt_iff_toInt_lt, Int64.toInt_ofNat_of_lt hk.1,
    Int64.toInt_ofNat_of_lt hr.1, UInt64.lt_iff_toNat_lt, Int.ofNat_lt]

/-- A row that takes over every column but the key is the new row, if the key is the same. -/
theorem replace_stored (t : Tables) (h : k.pubkey = r.pubkey) :
    (registrations t).replace r.stored k.stored = r.stored := by
  show ("pubkey", SqlValue.text k.pubkey) :: r.stored.tail = r.stored
  rw [h]
  rfl

/-- **On a table of registrations the insert keeps the newer one of each key.** -/
theorem apply_stored (t : Tables) (hr : r.Fits) {kept : List RegistrationRow}
    (fits : ∀ k ∈ kept, k.Fits) :
    (registrations t).apply r.stored (kept.map stored) = (keepNewer r kept).map stored := by
  -- a conflict in the table is a row with the key
  have known : ((kept.map stored).any fun row =>
      row.compare SqlValue.same (registrations t).key r.stored) = true ↔
      ∃ k ∈ kept, k.pubkey = r.pubkey := by
    rw [List.any_map, List.any_eq_true]
    exact exists_congr fun k => and_congr_right fun _ => decide_eq_true_iff
  by_cases h : ∃ k ∈ kept, k.pubkey = r.pubkey
  · rw [Upsert.apply, if_pos (known.2 h), keepNewer, if_pos h, List.map_map, List.map_map]
    refine List.map_congr_left fun k hk => ?_
    -- and its `WHERE` holds of the rows that give way
    have older : (k.stored.compare SqlValue.same (registrations t).key r.stored &&
        k.stored.compare SqlValue.below (registrations t).newer r.stored) = true ↔
        k.pubkey = r.pubkey ∧ k.timestamp < r.timestamp := by
      rw [Bool.and_eq_true]
      exact and_congr decide_eq_true_iff
        ((compare_timestamp (fits k hk) hr) ▸ decide_eq_true_iff)
    rw [Function.comp_apply, Function.comp_apply]
    by_cases newer : k.pubkey = r.pubkey ∧ k.timestamp < r.timestamp
    · rw [if_pos (older.2 newer), replacedBy_of_older newer, replace_stored t newer.1]
    · rw [if_neg fun h => newer (older.1 h), replacedBy_of_not_older newer]
  · rw [Upsert.apply, if_neg fun any => h (known.1 any), keepNewer, if_neg h, List.map_append,
      List.map_singleton]

/-! ### Runs of saves -/

/-- What becomes of the rows of a table when a registration is saved that may not fit. -/
def keep (kept : List RegistrationRow) (r : RegistrationRow) : List RegistrationRow :=
  if r.Fits then keepNewer r kept else kept

/-- What is kept fits if what was kept before does. -/
theorem fits_of_mem_keep {kept : List RegistrationRow} (fits : ∀ k ∈ kept, k.Fits) :
    ∀ k ∈ keep kept r, k.Fits := by
  intro k hk
  rw [keep] at hk
  split at hk
  · -- only a row that fits gets in, in place of another or at the end
    next hr =>
    rw [keepNewer] at hk
    split at hk
    · obtain ⟨k', hk', rfl⟩ := List.mem_map.1 hk
      rw [replacedBy]
      split
      · exact hr
      · exact fits k' hk'
    · rcases List.mem_append.1 hk with hk | hk
      · exact fits k hk
      · cases List.mem_singleton.1 hk
        exact hr
  · exact fits k hk

/-- A registration is saved if it fits, and refused without any effect if it does not. -/
theorem run_saveRegistration (t : Tables) (r : RegistrationRow) {kept : List RegistrationRow}
    (fits : ∀ k ∈ kept, k.Fits) :
    ∃ result, (saveRegistration t r).run (registrations t).serve (kept.map stored) =
        (result, (keep kept r).map stored) ∧
      (r.Fits ∧ result = .ok () ∨ ¬ r.Fits ∧ ∃ e, result = .error (.row e)) := by
  by_cases hr : r.Fits
  · refine ⟨.ok (), ?_, .inl ⟨hr, rfl⟩⟩
    -- the server takes the one statement it knows, and `apply_stored` says what that does
    have executed : (sendInsert (r.insert t)).run (registrations t).serve (kept.map stored) =
        (.ok none, (registrations t).apply r.stored (kept.map stored)) := by
      rw [insert_of_fits hr]
      exact (DbProgram.andThen_of_ok (a := none) rfl).2.trans (if_pos rfl)
    rw [keep, if_pos hr, ← apply_stored t hr fits, saveRegistration, discard,
      (DbProgram.andThen_of_ok (congrArg Prod.fst executed)).2, executed]
    rfl
  · obtain ⟨e, refused⟩ := insert_of_not_fits (t := t) hr
    refine ⟨.error (.row e), ?_, .inr ⟨hr, e, rfl⟩⟩
    rw [keep, if_neg hr, saveRegistration, refused]
    rfl

/-- **A run of saves on a table of registrations,** and what comes of each. -/
theorem run_saveAll_registrations (t : Tables) (rs : List RegistrationRow)
    {kept : List RegistrationRow} (fits : ∀ k ∈ kept, k.Fits) :
    ∃ results, (saveAll t (rs.map .registration)).run (registrations t).serve (kept.map stored) =
        (results, (rs.foldl keep kept).map stored) ∧
      List.Forall₂ (fun r result => r.Fits ∧ result = .ok () ∨
        ¬ r.Fits ∧ ∃ e, result = .error (.row e)) rs results := by
  -- each save starts from the table that the last one left
  induction rs generalizing kept with
  | nil => exact ⟨[], rfl, .nil⟩
  | cons r rs ih =>
    obtain ⟨result, saved, outcome⟩ := run_saveRegistration t r fits
    obtain ⟨results, rest, outcomes⟩ := ih (fits_of_mem_keep fits)
    refine ⟨result :: results, ?_, .cons outcome outcomes⟩
    rw [List.map_cons, saveAll, DbProgram.run_bind, AuditRecord.save, saved, DbProgram.run_bind,
      rest]
    rfl

end RegistrationRow

end BlockRelay
