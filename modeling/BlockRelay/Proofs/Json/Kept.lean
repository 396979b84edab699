import BlockRelay.Proofs.Json.Values

/-!
# Values that are kept as they are

A free value stands for a map from names to values at every level, and a map has no order. The
library keeps it as a list of fields, so one order has to be chosen: `ordered` says that every
object lists its fields by increasing name, which also leaves no room for a name that comes twice.
`sorted` puts any value into that form (`ordered_sorted`) and leaves a value alone that has it
(`sorted_eq_self`). `Kept` is a free value without fractions in that form, and sorting makes one of
every value that is written without loss (`kept_sorted`).

`free?_of_kept` is what readers of records need: such a value passes through the reader of free
values unchanged, as long as it does not lie too deep.
-/

namespace BlockRelay.Json

mutual

/-- Whether every object lists its fields by increasing name. -/
def ordered : Json → Bool
  | .arr xs => orderedItems xs
  | .obj fields => orderedFields fields
  | _ => true

/-- Whether every item is ordered. -/
def orderedItems : List Json → Bool
  | [] => true
  | x :: xs => ordered x && orderedItems xs

/-- Whether the names increase, and every field's value is ordered. -/
def orderedFields : List (String × Json) → Bool
  | [] => true
  | (n, x) :: fields => ordered x && fields.all (fun f => n < f.1) && orderedFields fields

end

/-- **A value that is kept as it is:** no part of it is lost in writing, and its fields stand in
the one order that its text can have. -/
structure Kept (j : Json) : Prop where
  plain : j.plain = true
  ordered : j.ordered = true

/-! ### Putting fields in order -/

/-- Fields are in order if the first name is less than all others and the rest is in order. -/
theorem orderedFields_cons {n : String} {x : Json} {fields : List (String × Json)} :
    orderedFields ((n, x) :: fields) = true ↔
      x.ordered = true ∧ (∀ f ∈ fields, n < f.1) ∧ orderedFields fields = true := by
  simp [orderedFields, and_assoc]

/-- A field behind all others in the order takes its place at the end. -/
theorem insertField_of_forall_lt {name : String} {x : Json} {done : List (String × Json)}
    (h : ∀ f ∈ done, f.1 < name) : insertField name x done = done ++ [(name, x)] := by
  induction done with
  | nil => rfl
  | cons f done ih =>
    obtain ⟨n, y⟩ := f
    have before : n < name := h _ List.mem_cons_self
    -- the name is greater than all that are done, so it is none of them
    have other : name ≠ n := by
      rintro rfl
      exact String.lt_irrefl name before
    have rest := ih fun f hf => h f (List.mem_cons_of_mem _ hf)
    rw [insertField, if_neg other, if_neg (String.lt_asymm before), rest, List.cons_append]

/-- What is there after inserting a field is that field or was there before. -/
theorem mem_insertField {name : String} {x : Json} {fields : List (String × Json)}
    {f : String × Json} (h : f ∈ insertField name x fields) : f = (name, x) ∨ f ∈ fields := by
  induction fields with
  | nil =>
    rw [insertField, List.mem_singleton] at h
    exact .inl h
  | cons g fields ih =>
    obtain ⟨n, y⟩ := g
    -- the field replaces one of its name, goes in front of a later one, or goes on to the rest
    unfold insertField at h
    split at h
    · rcases List.mem_cons.1 h with rfl | h
      · exact .inl rfl
      · exact .inr (List.mem_cons_of_mem _ h)
    split at h
    · rcases List.mem_cons.1 h with rfl | h
      · exact .inl rfl
      · exact .inr h
    · rcases List.mem_cons.1 h with rfl | h
      · exact .inr List.mem_cons_self
      · exact (ih h).imp_right (List.mem_cons_of_mem _)

theorem orderedFields_insertField {name : String} {x : Json} {fields : List (String × Json)}
    (hx : x.ordered = true) (h : orderedFields fields = true) :
    orderedFields (insertField name x fields) = true := by
  induction fields with
  | nil => simp [insertField, orderedFields, hx]
  | cons f fields ih =>
    obtain ⟨n, y⟩ := f
    obtain ⟨hy, least, rest⟩ := orderedFields_cons.1 h
    unfold insertField
    split
    · -- the field of this name is replaced
      next same =>
      subst same
      exact orderedFields_cons.2 ⟨hx, least, rest⟩
    split
    · -- it comes first, in front of the least name so far
      next before =>
      refine orderedFields_cons.2 ⟨hx, ?_, h⟩
      intro f hf
      rcases List.mem_cons.1 hf with rfl | hf
      · exact before
      · exact String.lt_trans before (least f hf)
    · next other notBefore =>
      -- names are in a linear order, so what is neither equal nor in front is behind
      have after : n < name := by
        by_contra hnot
        exact other (String.le_antisymm (String.not_lt.1 hnot) (String.not_lt.1 notBefore))
      refine orderedFields_cons.2 ⟨hy, ?_, ih rest⟩
      intro f hf
      rcases mem_insertField hf with rfl | hf
      · exact after
      · exact least f hf

mutual

/-- **Sorting puts a value in order.** -/
theorem ordered_sorted : ∀ j : Json, j.sorted.ordered = true
  | .null => rfl
  | .bool _ => rfl
  | .int _ => rfl
  | .real _ => rfl
  | .str _ => rfl
  | .unreadable => rfl
  -- scalars have nothing to be sorted
  | .arr xs => orderedItems_sortedItems xs
  | .obj fields => orderedFields_sortedFields fields rfl

theorem orderedItems_sortedItems : ∀ xs : List Json, orderedItems (sortedItems xs) = true
  | [] => rfl
  | x :: xs => by
    rw [sortedItems, orderedItems, ordered_sorted x, orderedItems_sortedItems xs]
    rfl

/-- The fields of a sorted object are in order, by insertion of one after the other. -/
theorem orderedFields_sortedFields : ∀ (fields : List (String × Json))
    {done : List (String × Json)}, orderedFields done = true →
    orderedFields (sortedFields fields done) = true
  | [], _, h => h
  | (_, x) :: fields, _, h =>
    orderedFields_sortedFields fields (orderedFields_insertField (ordered_sorted x) h)

end

mutual

/-- **A value in order stays as it is.** -/
theorem sorted_eq_self : ∀ j : Json, j.ordered = true → j.sorted = j
  | .null, _ => rfl
  | .bool _, _ => rfl
  | .int _, _ => rfl
  | .real _, _ => rfl
  | .str _, _ => rfl
  | .unreadable, _ => rfl
  -- scalars are as they were
  | .arr xs, h => by rw [sorted, sortedItems_eq_self xs h]
  | .obj fields, h => by
    rw [sorted, sortedFields_eq_append fields h fun f hf => absurd hf List.not_mem_nil]
    rfl

theorem sortedItems_eq_self : ∀ xs : List Json, orderedItems xs = true → sortedItems xs = xs
  | [], _ => rfl
  | x :: xs, h => by
    rw [orderedItems, Bool.and_eq_true] at h
    rw [sortedItems, sorted_eq_self x h.1, sortedItems_eq_self xs h.2]

/-- Fields in order that belong behind those that are done come behind them. -/
theorem sortedFields_eq_append : ∀ (fields : List (String × Json)) {done : List (String × Json)},
    orderedFields fields = true → (∀ f ∈ done, ∀ g ∈ fields, f.1 < g.1) →
    sortedFields fields done = done ++ fields
  | [], done, _, _ => by rw [sortedFields, List.append_nil]
  | (n, x) :: fields, done, h, behind => by
    obtain ⟨hx, least, rest⟩ := orderedFields_cons.1 h
    have last : ∀ f ∈ done, f.1 < n := fun f hf => behind f hf (n, x) List.mem_cons_self
    -- the fields done are less than those to come, and the first of these is the next to be done
    have next : ∀ f ∈ done ++ [(n, x)], ∀ g ∈ fields, f.1 < g.1 := by
      intro f hf g hg
      rcases List.mem_append.1 hf with hf | hf
      · exact behind f hf g (List.mem_cons_of_mem _ hg)
      · rw [List.mem_singleton.1 hf]
        exact least g hg
    calc sortedFields ((n, x) :: fields) done
        = sortedFields fields (insertField n x.sorted done) := by rw [sortedFields]
      _ = sortedFields fields (done ++ [(n, x)]) := by
          rw [sorted_eq_self x hx, insertField_of_forall_lt last]
      _ = (done ++ [(n, x)]) ++ fields := sortedFields_eq_append fields rest next
      _ = done ++ (n, x) :: fields := by rw [List.append_assoc, List.singleton_append]

end

theorem plainFields_insertField {name : String} {x : Json} {fields : List (String × Json)}
    (hx : x.plain = true) (h : plainFields fields = true) :
    plainFields (insertField name x fields) = true := by
  rw [plainFields_eq_all, List.all_eq_true] at h ⊢
  intro f hf
  rcases mem_insertField hf with rfl | hf
  · exact hx
  · exact h f hf

mutual

/-- **Sorting a plain value** leaves it plain. -/
theorem plain_sorted : ∀ j : Json, j.plain = true → j.sorted.plain = true
  | .null, _ => rfl
  | .bool _, _ => rfl
  | .int _, h => h
  | .real _, h => h
  | .str _, _ => rfl
  | .unreadable, h => h
  -- scalars are as they were
  | .arr xs, h => plainItems_sortedItems xs h
  | .obj fields, h => plainFields_sortedFields fields h rfl

theorem plainItems_sortedItems : ∀ xs : List Json, plainItems xs = true →
    plainItems (sortedItems xs) = true
  | [], _ => rfl
  | x :: xs, h => by
    rw [plainItems, Bool.and_eq_true] at h
    rw [sortedItems, plainItems, plain_sorted x h.1, plainItems_sortedItems xs h.2]
    rfl

theorem plainFields_sortedFields : ∀ (fields : List (String × Json)) {done : List (String × Json)},
    plainFields fields = true → plainFields done = true →
    plainFields (sortedFields fields done) = true
  | [], _, _, h => h
  | (n, x) :: fields, _, h, hdone => by
    rw [plainFields, Bool.and_eq_true] at h
    exact plainFields_sortedFields fields h.2 (plainFields_insertField (plain_sorted x h.1) hdone)

end

/-- **Whatever is written without loss is kept once it is sorted.** -/
theorem kept_sorted {j : Json} (h : j.plain = true) : j.sorted.Kept :=
  ⟨plain_sorted j h, ordered_sorted j⟩

/-! ### The reader of free values -/

mutual

/-- A plain value is readable. -/
theorem readable_of_plain : ∀ j : Json, j.plain = true → j.readable = true
  | .null, _ => rfl
  | .bool _, _ => rfl
  | .int _, _ => rfl
  | .real _, h => by cases h
  | .str _, _ => rfl
  | .unreadable, h => by cases h
  | .arr xs, h => readableItems_of_plain xs h
  | .obj fields, h => readableFields_of_plain fields h

theorem readableItems_of_plain : ∀ xs : List Json, plainItems xs = true → readableItems xs = true
  | [], _ => rfl
  | x :: xs, h => by
    rw [plainItems, Bool.and_eq_true] at h
    rw [readableItems, readable_of_plain x h.1, readableItems_of_plain xs h.2]
    rfl

theorem readableFields_of_plain : ∀ fields : List (String × Json), plainFields fields = true →
    readableFields fields = true
  | [], _ => rfl
  | (n, x) :: fields, h => by
    rw [plainFields, Bool.and_eq_true] at h
    rw [readableFields, readable_of_plain x h.1, readableFields_of_plain fields h.2]
    rfl

end

/-- **A kept value is read as it is.** -/
theorem free?_of_kept {j : Json} {outer : Nat} (h : j.Kept) (fits : j.depth + outer ≤ maxDepth) :
    free? outer j = some j := by
  rw [free?, if_pos ⟨readable_of_plain j h.plain, fits⟩, sorted_eq_self j h.ordered]

/-- A field's value lies less deep than its object. -/
theorem depth_lt_of_mem {fields : List (String × Json)} {f : String × Json} (h : f ∈ fields) :
    f.2.depth < (Json.obj fields).depth := by
  rw [depth]
  induction fields with
  | nil => exact absurd h List.not_mem_nil
  | cons g fields ih =>
    rw [depthFields]
    -- the depth of the fields is the greatest among them
    rcases List.mem_cons.1 h with rfl | h
    · omega
    · have := ih h
      omega

end BlockRelay.Json
