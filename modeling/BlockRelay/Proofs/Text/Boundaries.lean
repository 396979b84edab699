import BlockRelay.Text.Utf8

/-!
# Places between characters

A place in the bytes of a text is between two characters if the byte behind it does not go on with
one. That is a look at a single byte, and says what it should: `isBoundary_encode_iff` finds the
places between characters to be those behind the bytes of a beginning of the text.

A place between characters is searched for backwards. `SearchStops` says how such a search goes,
step by step: it always comes to an end (`searchStops_lastBoundary`), that end is the last of the
places between characters (`le_lastBoundary`), and it is at most three steps away
(`lastBoundary_near`), since no character has more than four bytes.
-/

namespace BlockRelay.Text.Utf8

/-! ### Beginnings of a text -/

theorem size_append (p q : List Char) : size (p ++ q) = size p + size q := by
  induction p with
  | nil => rw [List.nil_append, size_nil, Nat.zero_add]
  | cons c p ih => rw [List.cons_append, size_cons, size_cons, ih, Nat.add_assoc]

/-- A beginning with fewer bytes is a beginning of one with more. -/
theorem prefix_of_size_le {p q cs : List Char} (hp : p <+: cs) (hq : q <+: cs)
    (h : size p ≤ size q) : p <+: q := by
  rcases List.prefix_or_prefix_of_prefix hp hq with shorter | longer
  · exact shorter
  · -- a longer beginning has at least one character more, and so more bytes
    obtain ⟨rest, rfl⟩ := longer
    rw [size_append] at h
    cases rest with
    | nil => exact ⟨[], by rw [List.append_nil, List.append_nil]⟩
    | cons c rest =>
      have pos := c.utf8Size_pos
      rw [size_cons] at h
      omega

/-! ### The bytes of one character -/

/-- The bytes that continue a character are those from 128 to 191. -/
theorem isTail_ofNat {n : Nat} (h : n < 256) :
    isTail (.ofNat n) = decide (128 ≤ n ∧ n ≤ 191) := by
  have value : (UInt8.ofNat n).toNat = n :=
    UInt8.toNat_ofNat_of_lt' (by simp only [UInt8.size]; omega)
  simp only [isTail, UInt8.le_iff_toNat_le, value, Bool.decide_and]
  rfl

/-- **A character has one byte that begins it,** and the others go on with it. -/
theorem exists_encodeChar (c : Char) :
    ∃ a t, String.utf8EncodeChar c = a :: t ∧ isTail a = false ∧ ∀ b ∈ t, isTail b = true := by
  have begins {n : Nat} (h : n < 256) (apart : n < 128 ∨ 192 ≤ n) : isTail (.ofNat n) = false := by
    rw [isTail_ofNat h]
    exact decide_eq_false (by omega)
  have goesOn {n : Nat} (h : n < 64) : isTail (.ofNat (n + 128)) = true := by
    rw [isTail_ofNat (by omega)]
    exact decide_eq_true (by omega)
  unfold String.utf8EncodeChar
  dsimp only
  generalize c.val.toNat = v
  -- one bullet for each number of bytes
  split
  · refine ⟨_, _, rfl, begins (by omega) (by omega), ?_⟩
    simp
  split
  · refine ⟨_, _, rfl, begins (by omega) (by omega), ?_⟩
    simp only [List.mem_singleton, forall_eq]
    exact goesOn (by omega)
  split
  · refine ⟨_, _, rfl, begins (by omega) (by omega), ?_⟩
    simp only [List.mem_cons, List.not_mem_nil, or_false, forall_eq_or_imp, forall_eq]
    exact ⟨goesOn (by omega), goesOn (by omega)⟩
  · refine ⟨_, _, rfl, begins (by omega) (by omega), ?_⟩
    simp only [List.mem_cons, List.not_mem_nil, or_false, forall_eq_or_imp, forall_eq]
    exact ⟨goesOn (by omega), goesOn (by omega), goesOn (by omega)⟩

/-! ### Places in a text -/

/-- A place is between characters at either end of the bytes, and in front of a byte that does not
go on with a character. -/
theorem isBoundary_iff {bytes : List UInt8} {n : Nat} :
    isBoundary bytes n = true ↔
      n = 0 ∨ n = bytes.length ∨ ∃ b, bytes[n]? = some b ∧ isTail b = false := by
  unfold isBoundary
  rw [Bool.or_eq_true, decide_eq_true_iff]
  refine or_congr_right ?_
  cases found : bytes[n]? with
  | none => simp
  -- there is a byte, so the text does not end here
  | some b =>
    obtain ⟨inside, -⟩ := List.getElem?_eq_some_iff.1 found
    have notEnd : n ≠ bytes.length := Nat.ne_of_lt inside
    simp [notEnd]

/-- Behind some bytes of a character, a place is not between characters. -/
theorem isBoundary_inside {c : Char} {cs : List Char} {n : Nat} (pos : 0 < n)
    (inside : n < c.utf8Size) : isBoundary (encode (c :: cs)) n = false := by
  -- the character is a leading byte and bytes that continue it; `n` is the place of one of the
  -- latter
  obtain ⟨a, t, bytes, -, tails⟩ := exists_encodeChar c
  have length : (a :: t).length = c.utf8Size := by rw [← bytes, String.length_utf8EncodeChar]
  obtain ⟨m, rfl⟩ : ∃ m, n = m + 1 := ⟨n - 1, by omega⟩
  have bound : m < t.length := by
    rw [List.length_cons] at length
    omega
  have byte : (encode (c :: cs))[m + 1]? = some t[m] := by
    rw [encode_cons, bytes, List.cons_append, List.getElem?_cons_succ,
      List.getElem?_append_left bound, List.getElem?_eq_getElem bound]
  rw [← Bool.not_eq_true, isBoundary_iff, byte, length_encode, size_cons]
  rintro (zero | atEnd | ⟨b, is, begins⟩)
  · omega
  · omega
  · cases is
    rw [tails _ (List.getElem_mem bound)] at begins
    cases begins

/-- The place in front of a text is that of a byte which begins a character, or the end. -/
theorem begins_encode {cs : List Char} {b : UInt8} (h : (encode cs)[0]? = some b) :
    isTail b = false := by
  cases cs with
  | nil => cases h
  | cons c cs =>
    obtain ⟨a, t, bytes, begins, -⟩ := exists_encodeChar c
    rw [encode_cons, bytes, List.cons_append, List.getElem?_cons_zero] at h
    cases h
    exact begins

/-- Behind a character, the places are those of the rest. -/
theorem isBoundary_behind (c : Char) (cs : List Char) (n : Nat) :
    isBoundary (encode (c :: cs)) (c.utf8Size + n) = true ↔ isBoundary (encode cs) n = true := by
  have length : (String.utf8EncodeChar c).length = c.utf8Size := String.length_utf8EncodeChar c
  have pos : 0 < c.utf8Size := c.utf8Size_pos
  -- behind the first character the bytes are those of the rest
  have byte : (encode (c :: cs))[c.utf8Size + n]? = (encode cs)[n]? := by
    rw [encode_cons, List.getElem?_append_right (by omega), length, Nat.add_sub_cancel_left]
  rw [isBoundary_iff, isBoundary_iff, byte, length_encode, length_encode, size_cons]
  constructor
  · rintro (zero | atEnd | begins)
    · omega
    · exact .inr (.inl (by omega))
    · exact .inr (.inr begins)
  · rintro (rfl | atEnd | begins)
    · -- the front of the rest is its end, or has a byte that begins a character
      cases found : (encode cs)[0]? with
      | none =>
        rw [List.getElem?_eq_none_iff, length_encode] at found
        exact .inr (.inl (by omega))
      | some b => exact .inr (.inr ⟨b, rfl, begins_encode found⟩)
    · exact .inr (.inl (by omega))
    · exact .inr (.inr begins)

/-- **The places between characters** are those behind the beginnings of a text. -/
theorem isBoundary_encode_iff {cs : List Char} {n : Nat} :
    isBoundary (encode cs) n = true ↔ ∃ p, p <+: cs ∧ size p = n := by
  -- a boundary is at the front, or behind the first character
  induction cs generalizing n with
  | nil =>
    rw [isBoundary_iff]
    constructor
    · rintro (rfl | rfl | ⟨b, is, -⟩)
      · exact ⟨[], List.prefix_rfl, rfl⟩
      · exact ⟨[], List.prefix_rfl, rfl⟩
      · cases is
    · rintro ⟨p, begins, rfl⟩
      rw [List.prefix_nil.1 begins]
      exact .inl rfl
  | cons c cs ih =>
    rcases Nat.eq_zero_or_pos n with rfl | pos
    · exact iff_of_true rfl ⟨[], List.nil_prefix, rfl⟩
    rcases Nat.lt_or_ge n c.utf8Size with inside | behind
    · -- no beginning ends in the middle of its first character
      rw [isBoundary_inside pos inside]
      refine iff_of_false Bool.false_ne_true ?_
      rintro ⟨p, begins, rfl⟩
      cases p with
      | nil => exact absurd pos (Nat.lt_irrefl 0)
      | cons d p =>
        obtain ⟨rfl, -⟩ := List.cons_prefix_cons.1 begins
        rw [size_cons] at inside
        omega
    · obtain ⟨m, rfl⟩ := Nat.exists_eq_add_of_le behind
      rw [isBoundary_behind, ih]
      constructor
      · rintro ⟨p, begins, rfl⟩
        exact ⟨c :: p, List.cons_prefix_cons.2 ⟨rfl, begins⟩, rfl⟩
      · rintro ⟨p, begins, sizes⟩
        cases p with
        | nil =>
          rw [size_nil] at sizes
          omega
        | cons d p =>
          obtain ⟨rfl, rest⟩ := List.cons_prefix_cons.1 begins
          rw [size_cons] at sizes
          exact ⟨p, rest, by omega⟩

/-! ### The search -/

/-- **How a search backwards goes:** from a place in some bytes it takes a number of steps, over
places that are not between characters, to one that is. It never steps in front of the bytes. -/
structure SearchStops (bytes : List UInt8) (start steps : Nat) : Prop where
  steps_le : steps ≤ start
  passes : ∀ i, i < steps → isBoundary bytes (start - i) = false
  stops : isBoundary bytes (start - steps) = true

theorem lastBoundary_le (bytes : List UInt8) (n : Nat) : lastBoundary bytes n ≤ n := by
  induction n with
  | zero => exact Nat.le_refl 0
  | succ n ih =>
    unfold lastBoundary
    split
    · exact Nat.le_refl _
    · exact Nat.le_succ_of_le ih

/-- **The search stops,** at the latest in front of all bytes. -/
theorem searchStops_lastBoundary (bytes : List UInt8) (n : Nat) :
    SearchStops bytes n (n - lastBoundary bytes n) := by
  induction n with
  -- the front is a boundary, so the search never falls off
  | zero =>
    have start : isBoundary bytes 0 = true := isBoundary_iff.2 (.inl rfl)
    exact ⟨Nat.le_refl 0, fun i h => absurd h (Nat.not_lt_zero i), start⟩
  | succ n ih =>
    have bound := lastBoundary_le bytes n
    unfold lastBoundary
    split
    · -- no step at all
      next here =>
      rw [Nat.sub_self]
      exact ⟨Nat.zero_le _, fun i h => absurd h (Nat.not_lt_zero i), here⟩
    · -- one step, and then those of the search from there
      next passed =>
      have steps : n + 1 - lastBoundary bytes n = (n - lastBoundary bytes n) + 1 := by omega
      rw [steps]
      refine ⟨Nat.succ_le_succ ih.steps_le, ?_, ?_⟩
      · intro i h
        cases i with
        | zero => exact Bool.eq_false_iff.2 passed
        | succ i =>
          rw [Nat.add_sub_add_right]
          exact ih.passes i (Nat.lt_of_succ_lt_succ h)
      · rw [Nat.add_sub_add_right]
        exact ih.stops

/-- The search comes to the last place of those between characters. -/
theorem le_lastBoundary {bytes : List UInt8} {m n : Nat} (place : isBoundary bytes m = true)
    (h : m ≤ n) : m ≤ lastBoundary bytes n := by
  have search := searchStops_lastBoundary bytes n
  refine Nat.le_of_not_lt fun behind => ?_
  -- a place that is passed is not between characters
  have passed := search.passes (n - m) (by omega)
  rw [Nat.sub_sub_self h, place] at passed
  cases passed

/-- A beginning of a text can be chosen to end at most three bytes in front of any place in it. -/
theorem exists_prefix_near {cs : List Char} {n : Nat} (h : n ≤ size cs) :
    ∃ p, p <+: cs ∧ size p ≤ n ∧ n ≤ size p + 3 := by
  induction cs generalizing n with
  | nil =>
    rw [size_nil] at h
    exact ⟨[], List.prefix_rfl, Nat.zero_le n, by omega⟩
  | cons c cs ih =>
    have most : c.utf8Size ≤ 4 := c.utf8Size_le_four
    rw [size_cons] at h
    rcases Nat.lt_or_ge n c.utf8Size with inside | behind
    · -- within the first character, which has at most four bytes
      refine ⟨[], List.nil_prefix, Nat.zero_le n, ?_⟩
      rw [size_nil]
      omega
    · obtain ⟨m, rfl⟩ := Nat.exists_eq_add_of_le behind
      obtain ⟨p, begins, fits, near⟩ := ih (n := m) (by omega)
      -- the beginning of the rest, with the first character in front of it
      refine ⟨c :: p, List.cons_prefix_cons.2 ⟨rfl, begins⟩, ?_, ?_⟩
      · rw [size_cons]
        omega
      · rw [size_cons]
        omega

/-- **A search within a text takes at most three steps.** -/
theorem lastBoundary_near {cs : List Char} {n : Nat} (h : n ≤ size cs) :
    n ≤ lastBoundary (encode cs) n + 3 := by
  obtain ⟨p, begins, fits, near⟩ := exists_prefix_near h
  have place := isBoundary_encode_iff.2 ⟨p, begins, rfl⟩
  exact Nat.le_trans near (Nat.add_le_add_right (le_lastBoundary place fits) 3)

end BlockRelay.Text.Utf8
