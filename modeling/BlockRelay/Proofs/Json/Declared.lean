import BlockRelay.Json.Fields
import BlockRelay.Json.Reader
import Mathlib.Data.List.Forall2

/-!
# What a record declares

The reader of fields (`fields?`) answers a list in declared order. Here its answers are stated
about the value itself, for any value and not only for written ones:

* `Declares names j` — `j` can be read as a record with these fields: an object that has each of
  them once at most, or an array with no more items than there are fields;
* `Holds names j name x` — in `j` the field `name` is `x`, found by its name in an object and by
  its place in an array.

The reader answers exactly where the first holds (`exists_fields?_iff`), and the value that it
answers for a name is the one of the second (`getElem?_fields?_iff`).
-/

namespace BlockRelay.Json

/-- A value that can be read as a record with the given fields. -/
inductive Declares (names : List String) : Json → Prop
  | object {fields : List (String × Json)}
      (once : ∀ n ∈ names, (fields.filter fun f => f.1 = n).length ≤ 1) :
      Declares names (.obj fields)
  | array {xs : List Json} (bound : xs.length ≤ names.length) : Declares names (.arr xs)

/-- In a record with the given fields, the field of this name is `x`. -/
inductive Holds (names : List String) : Json → String → Json → Prop
  | object {fields : List (String × Json)} {name : String} {x : Json}
      (field : (name, x) ∈ fields) : Holds names (.obj fields) name x
  | array {xs : List Json} {i : Nat} {name : String} {x : Json} (place : names[i]? = some name)
      (item : xs[i]? = some x) : Holds names (.arr xs) name x

section Fields

variable {names : List String} {j : Json} {values : List (Option Json)}

/-- Every record the field reader takes declares its names; `exists_fields?_iff` has the converse.
-/
theorem declares_of_fields? (h : fields? names j = some values) : Declares names j := by
  cases j with
  | obj fields =>
    rw [fields?, Option.ite_none_right_eq_some, List.all_eq_true] at h
    exact .object fun n hn => of_decide_eq_true (h.1 n hn)
  -- an array has no names, and is taken by places
  | arr xs =>
    rw [fields?, Option.ite_none_right_eq_some] at h
    exact .array h.1
  | _ => cases h

/-- The field reader takes a value exactly if it declares the names, whatever the fields hold. -/
theorem exists_fields?_iff : (∃ values, fields? names j = some values) ↔ Declares names j := by
  constructor
  · rintro ⟨values, h⟩
    exact declares_of_fields? h
  · rintro (⟨once⟩ | ⟨bound⟩)
    · have all := List.all_eq_true.2 fun n hn => decide_eq_true (once n hn)
      exact ⟨_, by rw [fields?, if_pos all]⟩
    · exact ⟨_, by rw [fields?, if_pos bound]⟩

/-- The field reader gives one place, filled or not, for each name asked for. -/
theorem length_fields? (h : fields? names j = some values) : values.length = names.length := by
  cases j with
  | obj fields =>
    rw [fields?, Option.ite_none_right_eq_some] at h
    rw [← Option.some.inj h.2, List.length_map]
  -- an array that is too short is filled up with absent fields
  | arr xs =>
    rw [fields?, Option.ite_none_right_eq_some] at h
    rw [← Option.some.inj h.2, List.length_append, List.length_map, List.length_replicate]
    omega
  | _ => cases h

/-- Where a name comes once at most, what is found under it is what stands there. -/
theorem find?_name_eq_some_iff {fields : List (String × Json)} {name : String} {x : Json}
    (once : (fields.filter fun f => f.1 = name).length ≤ 1) :
    ((fields.find? fun f => f.1 = name).map (·.2)) = some x ↔ (name, x) ∈ fields := by
  rw [Option.map_eq_some_iff]
  constructor
  · rintro ⟨⟨n, y⟩, found, rfl⟩
    have same : n = name := by simpa using List.find?_some found
    rw [← same]
    exact List.mem_of_find?_eq_some found
  · intro field
    -- both the field and what is found are the only field of this name
    have mem : (name, x) ∈ fields.filter fun f => f.1 = name := by simpa using field
    obtain ⟨f, only⟩ := List.length_eq_one_iff.1
      (Nat.le_antisymm once (List.length_pos_of_mem mem))
    rw [only, List.mem_singleton] at mem
    exact ⟨f, by rw [← List.head?_filter, only, List.head?_cons], by rw [← mem]⟩

/-- **The value of a field is what the record holds under its name.** -/
theorem getElem?_fields?_iff (nodup : names.Nodup) (h : fields? names j = some values) {i : Nat}
    {name : String} (place : names[i]? = some name) {x : Json} :
    values[i]? = some (some x) ↔ Holds names j name x := by
  cases j with
  | obj fields =>
    rw [fields?, Option.ite_none_right_eq_some, List.all_eq_true] at h
    -- the reader has checked that the name occurs once at most
    have once := of_decide_eq_true (h.1 name (List.mem_of_getElem? place))
    rw [← Option.some.inj h.2, List.getElem?_map, place, Option.map_some, Option.some.injEq,
      find?_name_eq_some_iff once]
    constructor
    · exact .object
    · rintro ⟨field⟩
      exact field
  | arr xs =>
    rw [fields?, Option.ite_none_right_eq_some] at h
    -- behind its items an array is filled up with absent fields
    have items : values[i]? = some (some x) ↔ xs[i]? = some x := by
      rw [← Option.some.inj h.2, List.getElem?_append, List.length_map]
      split
      · rw [List.getElem?_map]
        simp
      · next behind =>
        have none_ : xs[i]? = none := List.getElem?_eq_none (by omega)
        rw [List.getElem?_replicate, none_]
        split <;> simp
    rw [items]
    constructor
    · exact .array place
    · intro held
      cases held with
      | @array _ i' _ _ place' item =>
        -- a name has one place only
        have bound : i < names.length := (List.getElem?_eq_some_iff.1 place).1
        have same : i = i' := (List.getElem?_inj bound nodup).1 (place.trans place'.symm)
        rw [same]
        exact item
  | _ => cases h

end Fields

/-! ### Lists and scalars -/

/-- Items are read one by one, and all of them. -/
theorem list?_eq_some_iff {α : Type} {read : Json → Option α} {xs : List Json} {as : List α} :
    list? read (.arr xs) = some as ↔ List.Forall₂ (fun x a => read x = some a) xs as := by
  rw [list?]
  -- `mapM` reads from the front, so the list is taken apart there
  induction xs generalizing as with
  | nil =>
    rw [List.mapM_nil, List.forall₂_nil_left_iff]
    exact Option.some_inj.trans eq_comm
  | cons x xs ih =>
    rw [List.mapM_cons, List.forall₂_cons_left_iff, Option.bind_eq_bind, Option.bind_eq_some_iff]
    constructor
    · rintro ⟨a, ha, rest⟩
      obtain ⟨bs, hbs, eq⟩ := Option.bind_eq_some_iff.1 rest
      exact ⟨a, bs, ha, ih.1 hbs, (Option.some.inj eq).symm⟩
    · rintro ⟨a, bs, ha, hbs, rfl⟩
      exact ⟨a, ha, by rw [ih.2 hbs]; rfl⟩

theorem text?_eq_some_iff {j : Json} {s : String} : text? j = some s ↔ j = .str s := by
  cases j with
  | str t => rw [text?, Option.some.injEq, Json.str.injEq]
  | _ => exact iff_of_false nofun nofun

/-- An integer is read as 64 bits exactly if it is some `Int64` written out: the bounds the reader
tests are those of the type. -/
theorem int64?_eq_some_iff {j : Json} {n : Int64} : int64? j = some n ↔ j = .ofInt64 n := by
  rw [ofInt64]
  cases j with
  | int m =>
    have low := n.le_toInt
    have high := n.toInt_lt
    -- within the bounds `ofInt` and `toInt` undo each other
    rw [int64?, Option.ite_none_right_eq_some, Option.some.injEq, Json.int.injEq]
    constructor
    · rintro ⟨⟨lower, upper⟩, rfl⟩
      exact (Int64.toInt_ofInt_of_le lower upper).symm
    · rintro rfl
      exact ⟨⟨low, high⟩, Int64.ofInt_toInt n⟩
  | _ => exact iff_of_false nofun nofun

end BlockRelay.Json
