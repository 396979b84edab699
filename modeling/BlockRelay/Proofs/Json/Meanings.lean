import BlockRelay.Proofs.Json.Declared
import BlockRelay.Proofs.Json.Kept
import BlockRelay.Proofs.Json.Records

/-!
# What the fields of a record mean

`Declares` and `Holds` say which fields a value has as a record. Here a meaning is given to them: a
relation between values and what they stand for (`Json → α → Prop`). A field that must be there
gives what its value means (`Gives`); one that may be absent or null gives nothing then (`MayGive`).

* `Reads` — a reader answers just what a value means. `fields?_bind_eq_some_iff` leads from a reader
  of records to the fields of a record (`IsRecord`), and `IsRecord.given` and `IsRecord.mayGive`
  from one field to the next.
* `Steady` — a meaning that a value keeps when the fields of all objects in it are sorted.
  `Declares.sorted`, `Gives.sorted` and `MayGive.sorted` carry it from fields to records: a declared
  field comes once, so no field of the same name replaces it.
-/

namespace BlockRelay

namespace Json

variable {α : Type} {names : List String} {j x : Json} {name : String}

/-- In a record with the given fields, the value under one of the names stands for `a`. -/
structure Gives (names : List String) (j : Json) (name : String) (means : Json → α → Prop)
    (a : α) : Prop where
  field : name ∈ names
  value : ∃ x, Holds names j name x ∧ means x a

/-- The same for a field that may be absent or null, and stands for nothing then. -/
structure MayGive (names : List String) (j : Json) (name : String) (means : Json → α → Prop)
    (o : Option α) : Prop where
  field : name ∈ names
  absent : o = none → ∀ x, Holds names j name x → x = .null
  present : ∀ a, o = some a → ∃ x, Holds names j name x ∧ x ≠ .null ∧ means x a

/-- An array whose items stand for those of a list, one by one. -/
def Lists (means : Json → α → Prop) (x : Json) (as : List α) : Prop :=
  ∃ xs, x = .arr xs ∧ List.Forall₂ means xs as

/-! ### Readers -/

/-- A reader answers a value exactly if the value has this meaning. -/
def Reads (read : Json → Option α) (means : Json → α → Prop) : Prop :=
  ∀ x a, read x = some a ↔ means x a

/-- A value that can be read as a record with these fields, no two of the same name. -/
structure IsRecord (names : List String) (j : Json) : Prop where
  nodup : names.Nodup
  declared : Declares names j

/-- What the reader of fields finds under a name. -/
def held (names : List String) (j : Json) (name : String) : Option Json :=
  (fields? names j).bind fun values => (values[names.idxOf name]?).join

namespace IsRecord

variable {β : Type} {read : Json → Option α} {means : Json → α → Prop} {b : β}

/-- What is found is what the record holds. -/
theorem held_eq_some_iff (record : IsRecord names j) :
    held names j name = some x ↔ name ∈ names ∧ Holds names j name x := by
  -- a record has a value for each of its names, in their order
  obtain ⟨values, fields⟩ := exists_fields?_iff.2 record.declared
  rw [held, fields, Option.bind_some, Option.join_eq_some_iff]
  by_cases field : name ∈ names
  · have place : names[names.idxOf name]? = some name := List.getElem?_idxOf field
    rw [getElem?_fields?_iff record.nodup fields place]
    exact (and_iff_right field).symm
  · -- there is no value behind the last one
    have beyond : values[names.idxOf name]? = none := by
      rw [List.idxOf_of_notMem field, ← length_fields? fields]
      exact List.getElem?_length values
    rw [beyond]
    exact iff_of_false nofun fun h => field h.1

/-- The values are found one by one. -/
theorem fields?_eq (record : IsRecord names j) :
    fields? names j = some (names.map (held names j)) := by
  obtain ⟨values, fields⟩ := exists_fields?_iff.2 record.declared
  have length := length_fields? fields
  rw [fields, Option.some_inj]
  -- place by place: the names are different, so each has its own place
  apply List.ext_getElem
  · rw [length, List.length_map]
  · intro i hi hi'
    rw [List.getElem_map, held, fields, Option.bind_some, record.nodup.idxOf_getElem,
      List.getElem?_eq_getElem hi, Option.join_some]

/-- A required field is read exactly if the record holds a value that means it. -/
theorem required?_eq_some_iff (record : IsRecord names j) (reads : Reads read means) {a : α} :
    required? read (held names j name) = some a ↔ Gives names j name means a := by
  rw [required?, Option.bind_eq_some_iff]
  constructor
  · rintro ⟨x, found, ha⟩
    obtain ⟨field, held⟩ := record.held_eq_some_iff.1 found
    exact ⟨field, x, held, (reads x a).1 ha⟩
  · rintro ⟨field, x, held, ha⟩
    exact ⟨x, record.held_eq_some_iff.2 ⟨field, held⟩, (reads x a).2 ha⟩

/-- An optional field is read as nothing where it is missing or null, and otherwise by what it
holds. -/
theorem optional?_eq_some_iff (record : IsRecord names j) (reads : Reads read means)
    (field : name ∈ names) {o : Option α} :
    optional? read (held names j name) = some o ↔ MayGive names j name means o := by
  have holds (x : Json) : held names j name = some x ↔ Holds names j name x :=
    record.held_eq_some_iff.trans (and_iff_right field)
  constructor
  · intro h
    refine ⟨field, ?_, ?_⟩
    · -- read as nothing: whatever is held is null, or it would have been read
      rintro rfl x held
      rw [(holds x).2 held] at h
      by_contra present
      rw [optional?] at h
      · obtain ⟨_, -, ⟨⟩⟩ := Option.map_eq_some_iff.1 h
      · exact present
    · -- read as something: a value is held, and it is not null
      rintro a rfl
      cases found : held names j name with
      -- conversely, nothing is held, or null
      | none =>
        rw [found] at h
        cases h
      | some x =>
        have present : x ≠ .null := by
          rintro rfl
          rw [found] at h
          cases h
        rw [found, optional?, Option.map_eq_some_iff] at h
        · obtain ⟨_, ha, ⟨⟩⟩ := h
          exact ⟨x, (holds x).1 found, present, (reads x a).1 ha⟩
        · exact present
  · rintro ⟨-, absent, present⟩
    cases o with
    | none =>
      cases found : held names j name with
      | none => rfl
      | some x =>
        rw [absent rfl x ((holds x).1 found)]
        rfl
    | some a =>
      obtain ⟨x, held, notNull, ha⟩ := present a rfl
      rw [(holds x).2 held, optional?, (reads x a).2 ha, Option.map_some]
      exact notNull

/-! A reader of records reads one field after the other. -/

/-- A reader that goes on with a required field gives a result exactly if what the field means has
one. -/
theorem given (record : IsRecord names j) (reads : Reads read means) {next : α → Option β}
    {rest : α → Prop} (goes : ∀ a, next a = some b ↔ rest a) :
    (required? read (held names j name)).bind next = some b ↔
      ∃ a, Gives names j name means a ∧ rest a := by
  rw [Option.bind_eq_some_iff]
  refine exists_congr fun a => ?_
  rw [record.required?_eq_some_iff reads, goes]

/-- A reader that goes on with an optional field gives a result exactly if what the field means, or
its absence, has one. -/
theorem mayGive (record : IsRecord names j) (reads : Reads read means) (field : name ∈ names)
    {next : Option α → Option β} {rest : Option α → Prop} (goes : ∀ o, next o = some b ↔ rest o) :
    (optional? read (held names j name)).bind next = some b ↔
      ∃ o, MayGive names j name means o ∧ rest o := by
  rw [Option.bind_eq_some_iff]
  refine exists_congr fun o => ?_
  rw [record.optional?_eq_some_iff reads field, goes]

end IsRecord

/-- **A reader of records needs a record,** and works on what is found under the names. -/
theorem fields?_bind_eq_some_iff (nodup : names.Nodup) {f : List (Option Json) → Option α}
    {a : α} : (fields? names j).bind f = some a ↔
      IsRecord names j ∧ f (names.map (held names j)) = some a := by
  constructor
  · intro h
    obtain ⟨values, fields, h⟩ := Option.bind_eq_some_iff.1 h
    -- only records get past the reader
    have record : IsRecord names j := ⟨nodup, declares_of_fields? fields⟩
    rw [record.fields?_eq, Option.some_inj] at fields
    rw [fields]
    exact ⟨record, h⟩
  · rintro ⟨record, h⟩
    rw [record.fields?_eq, Option.bind_some, h]

namespace Reads

variable {read : Json → Option α} {means : Json → α → Prop}

/-- What has no other meaning means what it is read as. -/
theorem self (read : Json → Option α) : Reads read (read · = some ·) := fun _ _ => Iff.rfl

/-- A reader of lists reads what its items mean. -/
theorem list (reads : Reads read means) : Reads (list? read) (Lists means) := by
  have same : (fun x a => read x = some a) = means := by
    funext x a
    exact propext (reads x a)
  -- only an array has items
  intro x as
  cases x with
  | arr xs =>
    rw [list?_eq_some_iff, same]
    constructor
    · intro all
      exact ⟨xs, rfl, all⟩
    · rintro ⟨_, ⟨⟩, all⟩
      exact all
  | _ =>
    refine iff_of_false nofun ?_
    rintro ⟨_, ⟨⟩, -⟩

/-- A number of 64 bits is read off its own literal and off no other value. -/
theorem uint64 : Reads uint64? (· = .ofUInt64 ·) := by
  intro x n
  constructor
  · intro h
    cases x with
    | int m =>
      rw [uint64?, Option.ite_none_right_eq_some, Option.some_inj] at h
      -- the bounds of the reader are those of the type, so nothing wraps
      obtain ⟨⟨lower, upper⟩, rfl⟩ := h
      have bound : m.toNat < 2 ^ 64 := by omega
      rw [ofUInt64, UInt64.toNat_ofNat_of_lt' bound, Int.toNat_of_nonneg lower]
    | _ => cases h
  · rintro rfl
    exact uint64?_ofUInt64 n

end Reads

/-! ### Sorted values -/

theorem sortedItems_eq_map (xs : List Json) : sortedItems xs = xs.map sorted := by
  induction xs with
  | nil => rfl
  | cons x xs ih => rw [sortedItems, ih, List.map_cons]

/-- Fields in order have different names. -/
theorem nodup_of_orderedFields {fields : List (String × Json)} (h : orderedFields fields = true) :
    (fields.map (·.1)).Nodup := by
  induction fields with
  | nil => exact List.nodup_nil
  | cons f fields ih =>
    obtain ⟨-, least, rest⟩ := orderedFields_cons.1 h
    refine List.nodup_cons.2 ⟨?_, ih rest⟩
    intro again
    obtain ⟨g, hg, same⟩ := List.mem_map.1 again
    -- a name that came again would be less than itself
    have before := least g hg
    rw [same] at before
    exact String.lt_irrefl _ before

section Fields

variable {fields done : List (String × Json)} {f : String × Json}

theorem mem_insertField_self (name : String) (x : Json) (fields : List (String × Json)) :
    (name, x) ∈ insertField name x fields := by
  induction fields with
  | nil => exact List.mem_cons_self
  | cons g fields ih =>
    unfold insertField
    split
    · exact List.mem_cons_self
    split
    · exact List.mem_cons_self
    · exact List.mem_cons_of_mem g ih

/-- A field of another name stays. -/
theorem mem_insertField_of_ne (h : f ∈ fields) (other : f.1 ≠ name) :
    f ∈ insertField name x fields := by
  induction fields with
  | nil => cases h
  | cons g fields ih =>
    obtain ⟨n, y⟩ := g
    unfold insertField
    -- only the field of the same name is replaced
    split
    · next same =>
      rcases List.mem_cons.1 h with rfl | h
      · exact absurd same.symm other
      · exact List.mem_cons_of_mem _ h
    split
    · exact List.mem_cons_of_mem _ h
    · rcases List.mem_cons.1 h with rfl | h
      · exact List.mem_cons_self
      · exact List.mem_cons_of_mem _ (ih h)

/-- Nothing is there that was not there before. -/
theorem mem_of_mem_sortedFields (h : f ∈ sortedFields fields done) :
    f ∈ done ∨ ∃ g ∈ fields, f = (g.1, g.2.sorted) := by
  induction fields generalizing done with
  | nil => exact .inl h
  | cons g fields ih =>
    rw [sortedFields] at h
    -- done before the first field was inserted, that field, or a later one
    rcases ih h with h | ⟨g', hg', rfl⟩
    · rcases mem_insertField h with rfl | h
      · exact .inr ⟨g, List.mem_cons_self, rfl⟩
      · exact .inl h
    · exact .inr ⟨g', List.mem_cons_of_mem g hg', rfl⟩

/-- A field that is done stays, if none of those to come has its name. -/
theorem mem_sortedFields_of_done (h : f ∈ done) (others : ∀ g ∈ fields, f.1 ≠ g.1) :
    f ∈ sortedFields fields done := by
  induction fields generalizing done with
  | nil => exact h
  | cons g fields ih =>
    rw [sortedFields]
    -- the first field has another name, so it does not replace what is done
    apply ih
    · exact mem_insertField_of_ne h (others g List.mem_cons_self)
    · intro g' hg'
      exact others g' (List.mem_cons_of_mem g hg')

/-- A field whose name comes once is still there, with its value sorted. -/
theorem mem_sortedFields (h : f ∈ fields)
    (once : (fields.filter fun g => g.1 = f.1).length ≤ 1) :
    (f.1, f.2.sorted) ∈ sortedFields fields done := by
  -- the fields done may be any, as the first field of the name replaces an earlier one
  induction fields generalizing done with
  | nil => cases h
  | cons g fields ih =>
    rw [sortedFields]
    by_cases same : g.1 = f.1
    · -- the first field has the name, so no later one has it
      rw [List.filter_cons_of_pos (by exact decide_eq_true same), List.length_cons] at once
      have none_ : fields.filter (fun g => g.1 = f.1) = [] :=
        List.eq_nil_of_length_eq_zero (by omega)
      have others : ∀ g' ∈ fields, f.1 ≠ g'.1 := by
        intro g' hg' eq
        exact List.filter_eq_nil_iff.1 none_ g' hg' (decide_eq_true eq.symm)
      rcases List.mem_cons.1 h with rfl | later
      · exact mem_sortedFields_of_done (mem_insertField_self ..) others
      · exact absurd rfl (others f later)
    · rw [List.filter_cons_of_neg (by simpa using same)] at once
      rcases List.mem_cons.1 h with rfl | later
      · exact absurd rfl same
      · exact ih later once

end Fields

/-- Sorting leaves a record a record. -/
theorem Declares.sorted (h : Declares names j) : Declares names j.sorted := by
  cases h with
  -- sorted fields have different names
  | @object fields once =>
    refine .object fun n _ => ?_
    exact length_filter_name_le (nodup_of_orderedFields (orderedFields_sortedFields fields rfl)) n
  -- sorting keeps the number of items
  | @array xs bound =>
    refine .array ?_
    rw [sortedItems_eq_map, List.length_map]
    exact bound

/-- **Sorting keeps what a record holds.** -/
theorem Holds.sorted (h : Holds names j name x) (declared : Declares names j)
    (field : name ∈ names) : Holds names j.sorted name x.sorted := by
  cases h with
  | object mem =>
    cases declared with
    | object once => exact .object (mem_sortedFields mem (once name field))
  | @array xs i _ _ place item =>
    refine .array place ?_
    rw [sortedItems_eq_map, List.getElem?_map, item, Option.map_some]

/-- What a sorted record holds is the sorted form of what it held before. -/
theorem exists_holds_of_sorted {y : Json} (h : Holds names j.sorted name y) :
    ∃ x, Holds names j name x ∧ y = x.sorted := by
  -- only objects and arrays hold anything
  cases j with
  | obj fields =>
    rw [Json.sorted] at h
    cases h with
    | object mem =>
      rcases mem_of_mem_sortedFields mem with nowhere | ⟨g, hg, same⟩
      · cases nowhere
      · cases same
        exact ⟨g.2, .object hg, rfl⟩
  | arr xs =>
    rw [Json.sorted, sortedItems_eq_map] at h
    cases h with
    | array place item =>
      rw [List.getElem?_map] at item
      obtain ⟨x, hx, rfl⟩ := Option.map_eq_some_iff.1 item
      exact ⟨x, .array place hx, rfl⟩
  | _ => cases h

/-- A meaning that does not depend on the order of fields. -/
def Steady (means : Json → α → Prop) : Prop := ∀ x a, means x a → means x.sorted a

section Steady

variable {means : Json → α → Prop}

/-- A field means the same in the sorted record, if its meaning is steady. -/
theorem Gives.sorted {a : α} (h : Gives names j name means a) (steady : Steady means)
    (declared : Declares names j) : Gives names j.sorted name means a := by
  obtain ⟨field, x, held, ha⟩ := h
  exact ⟨field, x.sorted, held.sorted declared field, steady x a ha⟩

theorem MayGive.sorted {o : Option α} (h : MayGive names j name means o) (steady : Steady means)
    (declared : Declares names j) : MayGive names j.sorted name means o := by
  refine ⟨h.field, ?_, ?_⟩
  · intro nothing y held
    obtain ⟨x, before, rfl⟩ := exists_holds_of_sorted held
    rw [h.absent nothing x before]
    rfl
  · intro a some_
    obtain ⟨x, held, present, ha⟩ := h.present a some_
    refine ⟨x.sorted, held.sorted declared h.field, ?_, steady x a ha⟩
    -- only null sorts to null
    intro null
    cases x with
    | null => exact present rfl
    | _ => cases null

/-- A list means the same when its items are sorted, if they do. -/
theorem Steady.lists (steady : Steady means) : Steady (Lists means) := by
  rintro _ as ⟨xs, rfl, all⟩
  refine ⟨xs.map Json.sorted, by rw [Json.sorted, sortedItems_eq_map], ?_⟩
  rw [List.forall₂_map_left_iff]
  exact all.imp steady

theorem Steady.uint64 : Steady (· = .ofUInt64 ·) := by
  rintro _ n rfl
  rfl

/-- A string has no fields, so what is read from strings alone is steady. -/
theorem Steady.text {read : Json → Option α}
    (texts : ∀ x, read x = (text? x).bind fun s => read (.str s)) : Steady (read · = some ·) := by
  intro x a h
  rw [texts] at h
  obtain ⟨s, hs, -⟩ := Option.bind_eq_some_iff.1 h
  rw [text?_eq_some_iff.1 hs] at h ⊢
  exact h

theorem Steady.fixed (n : Nat) : Steady (fixed? n · = some ·) :=
  .text fun x => by cases x <;> rfl

theorem Steady.looseFixed (n : Nat) : Steady (looseFixed? n · = some ·) :=
  .text fun x => by cases x <;> rfl

/-- The readers of bytes read a text, which has nothing in it to be sorted. -/
theorem Steady.bytes : Steady (bytes? · = some ·) := .text fun x => by cases x <;> rfl

theorem Steady.word256 : Steady (word256? · = some ·) := .text fun x => by cases x <;> rfl

end Steady

end Json

end BlockRelay
