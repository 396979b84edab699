import BlockRelay.Url.Percent

/-!
# Text that is encoded already

Percent encoding is done once for every part of an address, and again when the address is read from
its own text. The second time must change nothing. It does not, as an encoding consists of percent
signs and upper-case digits and no class has any of these (`LeavesEncodings`): encoded text has no
character of its class (`not_mem_class`), and such text is not changed (`percentEncode_eq_self`).

Controls and blanks are in every class, and so encoded text is visible (`visible_of_not_inFragment`,
`visible_of_not_inQuery`). Where no percent sign stands, decoding yields the bytes of the text
(`percentDecode_of_plain`).
-/

namespace BlockRelay.Url

variable {encoded : Char → Bool} {cs : List Char}

/-- **A class has no character that encodings are made of.** -/
def LeavesEncodings (encoded : Char → Bool) : Prop :=
  encoded '%' = false ∧ ∀ n < 16, encoded (upperDigit n) = false

/-- A fragment leaves its percent signs and digits alone. -/
theorem leavesEncodings_inFragment : LeavesEncodings inFragment := ⟨by decide, by decide⟩

theorem leavesEncodings_inQuery : LeavesEncodings inQuery := ⟨by decide, by decide⟩

theorem leavesEncodings_inPath : LeavesEncodings inPath := ⟨by decide, by decide⟩

theorem leavesEncodings_inUserinfo : LeavesEncodings inUserinfo := ⟨by decide, by decide⟩

theorem upperDigit_mod (n : Nat) : upperDigit (n % 16) = upperDigit n := by
  rw [upperDigit, upperDigit, Nat.mod_mod]

/-- The characters of an encoded byte. -/
theorem eq_of_mem_percentByte {b : UInt8} {c : Char} (h : c ∈ percentByte b) :
    c = '%' ∨ ∃ n < 16, c = upperDigit n := by
  have digit (n : Nat) : ∃ d < 16, upperDigit n = upperDigit d :=
    ⟨n % 16, Nat.mod_lt n (by decide), (upperDigit_mod n).symm⟩
  simp only [percentByte, List.mem_cons, List.not_mem_nil, or_false] at h
  rcases h with rfl | rfl | rfl
  · exact .inl rfl
  · exact .inr (digit _)
  · exact .inr (digit _)

/-- The characters of encoded text: those that are not in the class, and those of encodings. -/
theorem mem_percentEncode {c : Char} (h : c ∈ percentEncode encoded cs) :
    (c ∈ cs ∧ encoded c = false) ∨ c = '%' ∨ ∃ n < 16, c = upperDigit n := by
  obtain ⟨d, hd, hc⟩ := List.mem_flatMap.1 h
  -- an encoded character leaves a percent sign and digits, any other itself
  rw [percentChar] at hc
  split at hc
  · obtain ⟨b, -, hc⟩ := List.mem_flatMap.1 hc
    exact .inr (eq_of_mem_percentByte hc)
  · next plain =>
    rw [List.mem_singleton.1 hc]
    exact .inl ⟨hd, Bool.eq_false_iff.2 plain⟩

/-- What holds of the characters of encodings and of those outside the class holds of encoded
text. -/
theorem forall_mem_percentEncode {p : Char → Prop} (plain : ∀ c ∈ cs, encoded c = false → p c)
    (sign : p '%') (digits : ∀ n < 16, p (upperDigit n)) : ∀ c ∈ percentEncode encoded cs, p c := by
  intro c hc
  rcases mem_percentEncode hc with ⟨hc, outside⟩ | rfl | ⟨n, hn, rfl⟩
  · exact plain c hc outside
  · exact sign
  · exact digits n hn

/-- **Encoded text has no character of the class.** -/
theorem not_mem_class (h : LeavesEncodings encoded) :
    ∀ c ∈ percentEncode encoded cs, encoded c = false :=
  forall_mem_percentEncode (fun _ _ outside => outside) h.1 h.2

/-- **Text without a character of the class is not changed.** -/
theorem percentEncode_eq_self (h : ∀ c ∈ cs, encoded c = false) :
    percentEncode encoded cs = cs := by
  induction cs with
  | nil => rfl
  | cons c cs ih =>
    -- nothing is to be encoded
    have first : percentChar encoded c = [c] :=
      if_neg (Bool.eq_false_iff.1 (h c List.mem_cons_self))
    have rest : percentEncode encoded cs = cs := ih fun d hd => h d (List.mem_cons_of_mem c hd)
    rw [percentEncode] at rest
    rw [percentEncode, List.flatMap_cons, first, rest, List.singleton_append]

/-! ### Characters that need no encoding -/

section

variable {c : Char}

/-- What is neither a control nor a blank lies above the blank. -/
theorem visible_of_not_isControl (control : isControl c = false) (noBlank : c ≠ ' ') :
    0x20 < c.toNat := by
  simp only [isControl, Bool.or_eq_false_iff, decide_eq_false_iff_not] at control
  have ne : c.toNat ≠ 0x20 := fun same => noBlank (by rw [← Char.ofNat_toNat c, same])
  omega

theorem visible_of_not_inFragment (h : inFragment c = false) : 0x20 < c.toNat := by
  simp only [inFragment, Bool.or_eq_false_iff, decide_eq_false_iff_not] at h
  exact visible_of_not_isControl h.1.1.1.1.1 h.1.1.1.1.2

theorem visible_of_not_inQuery (h : inQuery c = false) : 0x20 < c.toNat := by
  simp only [inQuery, Bool.or_eq_false_iff, decide_eq_false_iff_not] at h
  exact visible_of_not_isControl h.1.1.1.1.1.1 h.1.1.1.1.1.2

end

/-! ### Text without percent signs -/

/-- Any character but a percent sign stands for its own bytes. -/
theorem percentDecode_cons_of_ne {c : Char} (h : c ≠ '%') (r : List Char) :
    percentDecode (c :: r) = Text.Utf8.encode [c] ++ percentDecode r := by
  rw [percentDecode]
  rintro a b s rfl
  exact absurd rfl h

/-- **Text without a percent sign** is decoded to its own bytes. -/
theorem percentDecode_of_plain (h : ∀ c ∈ cs, c ≠ '%') :
    percentDecode cs = Text.Utf8.encode cs := by
  induction cs with
  | nil => rfl
  | cons c cs ih =>
    rw [percentDecode_cons_of_ne (h c List.mem_cons_self),
      ih fun d hd => h d (List.mem_cons_of_mem c hd), ← Text.Utf8.encode_append,
      List.singleton_append]

end BlockRelay.Url
