import BlockRelay.Json.Fields
import BlockRelay.Proofs.Hex.Digits
import BlockRelay.Proofs.Json.Values

/-!
# Reading written records

A record is written as an object of those declared fields that have a value, in declared order.
`present` is that object, made of one entry for each declared field, and `fields?_present` says
once and for all that the reader of fields finds the entries again, absent ones as absent, as long
as no name is declared twice.

Beside it stands one statement for each kind of value that a field can have: what its writer wrote
is plain, and its reader reads it back.
-/

namespace BlockRelay

namespace Json

/-! ### Fields -/

/-- The fields of a record of which some may be absent. -/
def present (entries : List (String × Option Json)) : List (String × Json) :=
  entries.filterMap fun e => e.2.map fun x => (e.1, x)

@[simp] theorem present_nil : present [] = [] := rfl

@[simp] theorem present_cons_some (name : String) (x : Json)
    (entries : List (String × Option Json)) :
    present ((name, some x) :: entries) = (name, x) :: present entries := rfl

@[simp] theorem present_cons_none (name : String) (entries : List (String × Option Json)) :
    present ((name, none) :: entries) = present entries := rfl

theorem mem_present {entries : List (String × Option Json)} {f : String × Json}
    (h : f ∈ present entries) : (f.1, some f.2) ∈ entries := by
  obtain ⟨⟨name, x⟩, he, hf⟩ := List.mem_filterMap.1 h
  obtain ⟨y, hy, rfl⟩ := Option.map_eq_some_iff.1 hf
  rw [← hy]
  exact he

/-- Names of present fields are declared names, in their order. -/
theorem map_fst_present_sublist (entries : List (String × Option Json)) :
    ((present entries).map (·.1)).Sublist (entries.map (·.1)) := by
  induction entries with
  | nil => exact List.Sublist.slnil
  | cons e entries ih =>
    obtain ⟨name, x⟩ := e
    -- the name is passed over or taken along
    cases x with
    | none => exact ih.cons name
    | some x => exact ih.cons_cons name

/-- A name that occurs once at most is the name of one field at most. -/
theorem length_filter_name_le {fields : List (String × Json)} (h : (fields.map (·.1)).Nodup)
    (name : String) : (fields.filter fun f => f.1 = name).length ≤ 1 := by
  -- a field with the name leaves none for the rest; any other one does not count
  induction fields with
  | nil => exact Nat.zero_le 1
  | cons f fields ih =>
    rw [List.map_cons, List.nodup_cons] at h
    by_cases hf : f.1 = name
    · -- the rest has no field of this name
      have others : (fields.filter fun f => f.1 = name) = [] := by
        rw [List.filter_eq_nil_iff]
        intro g hg hname
        rw [decide_eq_true_eq] at hname
        exact h.1 (List.mem_map.2 ⟨g, hg, by rw [hname, hf]⟩)
      rw [List.filter_cons_of_pos (by simpa using hf), others]
      exact Nat.le_refl 1
    · rw [List.filter_cons_of_neg (by simpa using hf)]
      exact ih h.2

/-- Among present fields the one of a declared name is that entry's, if it has a value. -/
theorem find?_present {entries : List (String × Option Json)} (h : (entries.map (·.1)).Nodup)
    {e : String × Option Json} (he : e ∈ entries) :
    ((present entries).find? fun f => f.1 = e.1).map (·.2) = e.2 := by
  induction entries with
  | nil => exact absurd he List.not_mem_nil
  | cons e' entries ih =>
    rw [List.map_cons, List.nodup_cons] at h
    obtain ⟨name, x⟩ := e'
    -- the entry is the first one, or it is among the rest and has another name
    rcases List.mem_cons.1 he with rfl | hmem
    · cases x with
      | some x => simp
      | none =>
        -- no other entry has this name, so nothing is found
        have absent : (present entries).find? (fun f => f.1 = name) = none := by
          rw [List.find?_eq_none]
          intro f hf hname
          rw [decide_eq_true_eq] at hname
          exact h.1 (List.mem_map.2 ⟨_, mem_present hf, hname⟩)
        rw [present_cons_none]
        simp only [absent, Option.map_none]
    · have other : name ≠ e.1 := fun hname => h.1 (List.mem_map.2 ⟨e, hmem, hname.symm⟩)
      cases x with
      | some x =>
        rw [present_cons_some, List.find?_cons_of_neg (by simpa using other)]
        exact ih h.2 hmem
      | none => exact ih h.2 hmem

/-- **The reader of fields finds the entries of a record again.** -/
theorem fields?_present (entries : List (String × Option Json))
    (h : (entries.map (·.1)).Nodup) :
    fields? (entries.map (·.1)) (.obj (present entries)) = some (entries.map (·.2)) := by
  -- the reader refuses a name that is written twice, and none is
  have once : ((entries.map (·.1)).all fun n =>
      ((present entries).filter fun f => f.1 = n).length ≤ 1) = true := by
    rw [List.all_eq_true]
    intro n _
    rw [decide_eq_true_eq]
    exact length_filter_name_le (h.sublist (map_fst_present_sublist entries)) n
  rw [fields?, if_pos once, List.map_map]
  congr 1
  exact List.map_congr_left fun e he => find?_present h he

/-- Fields that are not asked for do not matter. -/
theorem fields?_append {names : List String} {others : List (String × Json)}
    (mine : List (String × Json)) (apart : ∀ f ∈ others, f.1 ∉ names) :
    fields? names (.obj (others ++ mine)) = fields? names (.obj mine) := by
  have none_ : ∀ n ∈ names, ∀ f ∈ others, ¬ f.1 = n := by
    intro n hn f hf same
    exact apart f hf (same ▸ hn)
  -- neither of the two searches of the reader finds anything among the others: not the count of
  -- fields with a name, and not the value
  have filtered : ∀ n ∈ names,
      (others ++ mine).filter (fun f => f.1 = n) = mine.filter fun f => f.1 = n := by
    intro n hn
    have gone : others.filter (fun f => f.1 = n) = [] :=
      List.filter_eq_nil_iff.2 fun f hf => by simpa using none_ n hn f hf
    rw [List.filter_append, gone, List.nil_append]
  have found : ∀ n ∈ names,
      (others ++ mine).find? (fun f => f.1 = n) = mine.find? fun f => f.1 = n := by
    intro n hn
    have gone : others.find? (fun f => f.1 = n) = none :=
      List.find?_eq_none.2 fun f hf => by simpa using none_ n hn f hf
    rw [List.find?_append, gone, Option.none_or]
  have once : (names.all fun n => ((others ++ mine).filter fun f => f.1 = n).length ≤ 1) =
      names.all fun n => (mine.filter fun f => f.1 = n).length ≤ 1 := by
    rw [Bool.eq_iff_iff, List.all_eq_true, List.all_eq_true]
    refine forall₂_congr fun n hn => ?_
    rw [filtered n hn]
  have values : names.map (fun n => ((others ++ mine).find? fun f => f.1 = n).map (·.2)) =
      names.map fun n => (mine.find? fun f => f.1 = n).map (·.2) :=
    List.map_congr_left fun n hn => by rw [found n hn]
  rw [fields?, fields?, once, values]

/-- All fields of an object, asked for by their own names. -/
theorem fields?_self (mine : List (String × Json)) (h : (mine.map (·.1)).Nodup) :
    fields? (mine.map (·.1)) (.obj mine) = some (mine.map fun f => some f.2) := by
  -- the general lemma is about fields that may be left out, and here none is
  have entries : ∀ fields : List (String × Json),
      present (fields.map fun f => (f.1, some f.2)) = fields := by
    intro fields
    induction fields with
    | nil => rfl
    | cons f fields ih => rw [List.map_cons, present_cons_some, ih]
  have names : (mine.map fun f => (f.1, some f.2)).map (·.1) = mine.map (·.1) := by
    rw [List.map_map]
    rfl
  have found := fields?_present (mine.map fun f => (f.1, some f.2)) (by rw [names]; exact h)
  rw [names, entries, List.map_map] at found
  exact found

/-- A record is plain if the values of its fields are. -/
theorem plain_present {entries : List (String × Option Json)}
    (h : ∀ e ∈ entries, ∀ x, e.2 = some x → plain x = true) :
    plain (.obj (present entries)) = true := by
  rw [plain_obj, List.all_eq_true]
  intro f hf
  exact h _ (mem_present hf) f.2 rfl

/-- A written record reads back from its text, if it reads back as a value. -/
theorem read_render {α : Type} {read : Json → Option α} {j : Json} {a : α}
    (hj : j.plain = true) (h : read j = some a) : (read? j.render).bind read = some a := by
  rw [read?_render hj, Option.bind_some, h]

/-! ### Presence -/

@[simp] theorem required?_some {α : Type} (read : Json → Option α) (j : Json) :
    required? read (some j) = read j := by
  rw [required?, Option.bind_some]

/-- An optional field is read back if its values are, none of which is written as null. -/
theorem optional?_map {α : Type} {read : Json → Option α} {write : α → Json}
    (h : ∀ a, read (write a) = some a) (hnull : ∀ a, write a ≠ .null) (o : Option α) :
    optional? read (o.map write) = some o := by
  cases o with
  | none => rfl
  | some a =>
    rw [Option.map_some, optional?, h, Option.map_some]
    exact hnull a

/-- A list is read back if its items are. -/
theorem list?_map {α : Type} {read : Json → Option α} {write : α → Json}
    (h : ∀ a, read (write a) = some a) (as : List α) :
    list? read (.arr (as.map write)) = some as := by
  rw [list?]
  induction as with
  | nil => rfl
  | cons a as ih =>
    rw [List.map_cons, List.mapM_cons, h, ih]
    rfl

/-- A list of written items is plain if every item is. -/
theorem plain_arr_map {α : Type} {write : α → Json} (h : ∀ a, plain (write a) = true)
    (as : List α) : plain (.arr (as.map write)) = true := by
  rw [plain_arr, List.all_eq_true]
  intro x hx
  obtain ⟨a, -, rfl⟩ := List.mem_map.1 hx
  exact h a

/-! ### Values of fields -/

/-- Sixty-four bits are within the range of whole numbers that are kept. -/
@[simp] theorem plain_ofUInt64 (n : UInt64) : plain (ofUInt64 n) = true := by
  have h : n.toNat < 2 ^ 64 := n.toNat_lt
  rw [ofUInt64, plain, Bool.and_eq_true, decide_eq_true_eq, decide_eq_true_eq]
  omega

@[simp] theorem plain_ofInt64 (n : Int64) : plain (ofInt64 n) = true := by
  have low := n.le_toInt
  have high := n.toInt_lt
  rw [ofInt64, plain, Bool.and_eq_true, decide_eq_true_eq, decide_eq_true_eq]
  omega

@[simp] theorem int64?_ofInt64 (n : Int64) : int64? (ofInt64 n) = some n := by
  have low := n.le_toInt
  have high := n.toInt_lt
  have range : -0x8000000000000000 ≤ n.toInt ∧ n.toInt < 0x8000000000000000 := by omega
  rw [ofInt64, int64?, if_pos range, Int64.ofInt_toInt]

@[simp] theorem plain_ofFixed {n : Nat} (b : FixedBytes n) : plain (ofFixed b) = true := rfl

@[simp] theorem plain_ofBytes (bs : Bytes) : plain (ofBytes bs) = true := rfl

@[simp] theorem plain_ofWord256 (w : Word256) : plain (ofWord256 w) = true := rfl

/-- Fixed bytes are read back by the reader that takes a mark in lower case only. -/
@[simp] theorem fixed?_ofFixed {n : Nat} (b : FixedBytes n) : fixed? n (ofFixed b) = some b := by
  -- the digits are found, and there are exactly two for each byte
  obtain ⟨ds, hds, hpairs⟩ := Option.map_eq_some_iff.1 (Hex.pairedDigits?_encode b.toList)
  have length : (Hex.encode b.toList).length = 2 * n := by rw [Hex.length_encode, b.length_eq]
  rw [ofFixed, FixedBytes.text, fixed?, String.toList_ofList, Hex.dropLowerMark,
    if_pos length, hds, Option.map_some, hpairs, b.padded_toList]

/-- Fixed bytes are read back by the reader of keys and signatures. -/
@[simp] theorem looseFixed?_ofFixed {n : Nat} (b : FixedBytes n) :
    looseFixed? n (ofFixed b) = some b := by
  rw [ofFixed, looseFixed?, b.parse_text]
  rfl

/-- A number of 256 bits is read back: it has a digit, and no more than sixty-four. -/
@[simp] theorem word256?_ofWord256 (w : Word256) : word256? (ofWord256 w) = some w := by
  obtain ⟨ds, hds, hn⟩ := Option.map_eq_some_iff.1 (Hex.pairedDigits?_ofNat w.toNat)
  have bound : w.toNat < Nat.pow 16 64 := Nat.lt_of_lt_of_eq w.isLt (by decide)
  -- a number of 256 bits has 64 digits at most
  have length := Hex.length_ofNat_le (by decide) bound
  have fits : ¬ ((Hex.ofNat w.toNat).isEmpty = true ∨ 64 < (Hex.ofNat w.toNat).length) := by
    rintro (h | h)
    · exact Hex.ofNat_ne_nil w.toNat (List.isEmpty_iff.1 h)
    · omega
  rw [ofWord256, word256?, String.toList_ofList, Hex.dropLowerMark,
    if_neg fits, hds, Option.map_some, hn, BitVec.ofNat_toNat, BitVec.setWidth_eq]

end Json

end BlockRelay
