import BlockRelay.Proofs.Hex.Digits

/-!
# Canonical texts are the texts of bytes

`Hex.normalize` keeps a text a text: it never looks at the bytes. `spelled` reads the same texts as
bytes, and `normalize_eq` says that the two agree everywhere: a text is refused by both for the
same cause, or its canonical form is `marked bs`, the text of the bytes that it spells. So two
texts have one canonical form exactly if they spell the same bytes (`marked_injective`).
-/

namespace BlockRelay.Hex

/-- The text of bytes, with a mark in front. -/
def marked (bs : List UInt8) : String := String.ofList ('0' :: 'x' :: encode bs)

/-- **The bytes that a text spells:** between blanks, behind an optional mark, two digits of either
case for each byte, and at least one byte. -/
def spelled (text : String) : Except HexError (List UInt8) :=
  let trimmed := Text.trimmed Text.isBlank text.toList
  let digits := dropMark trimmed
  match digits, bytes? digits with
  | [], _ => .error .empty
  | _, some bs => .ok bs
  | _, none =>
    if digits.all isDigit then .error (.oddDigits digits.length)
    else .error (.notHex (String.ofList trimmed))

/-- The canonical spelling tells byte strings apart. -/
theorem marked_injective {bs cs : List UInt8} (h : marked bs = marked cs) : bs = cs := by
  have hlist := congrArg String.toList h
  rw [marked, marked, String.toList_ofList, String.toList_ofList, List.cons.injEq,
    List.cons.injEq] at hlist
  exact encode_injective hlist.2.2

/-- The lower case of a digit is the digit of its value. -/
theorem toLower_of_value? {c : Char} {v : Nat} (h : value? c = some v) :
    c.toLower = digit v ∧ v < 16 := by
  -- digits are characters of ASCII, of which there are few enough to look at each
  have table : ∀ n < 128, ∀ v ∈ value? (Char.ofNat n),
      (Char.ofNat n).toLower = digit v ∧ v < 16 := by decide
  have ascii := (isDigit_class (c := c) (by rw [isDigit, h, Option.isSome_some])).1
  have at_ := table c.toNat ascii v
  rw [Char.ofNat_toNat] at at_
  exact at_ h

/-- The digit of a value below sixteen of a byte is found again in the byte. -/
theorem digit_of_byte {h l : Nat} (hh : h < 16) (hl : l < 16) :
    digit ((UInt8.ofNat (16 * h + l)).toNat / 16) = digit h ∧
      digit (UInt8.ofNat (16 * h + l)).toNat = digit l := by
  have byte : (UInt8.ofNat (16 * h + l)).toNat = 16 * h + l :=
    UInt8.toNat_ofNat_of_lt' (by simp only [UInt8.size]; omega)
  have high : (16 * h + l) / 16 = h := by omega
  have low : (16 * h + l) % 16 = l % 16 := by omega
  rw [byte, high]
  refine ⟨rfl, ?_⟩
  rw [digit, digit, low]

/-- Digits that spell bytes are an even number of digits, and their lower case is what is written
of these bytes. -/
theorem of_bytes?_eq_some {cs : List Char} {bs : List UInt8} (h : bytes? cs = some bs) :
    cs.all isDigit = true ∧ cs.length % 2 = 0 ∧ cs.map Char.toLower = encode bs := by
  induction cs using bytes?.induct generalizing bs with
  | case1 => cases h; exact ⟨rfl, rfl, rfl⟩
  | case2 c => cases h
  -- two digits, the byte that they spell, and the rest
  | case3 hi lo r ih =>
    obtain ⟨vh, hh, h⟩ := Option.bind_eq_some_iff.1 h
    obtain ⟨vl, hl, h⟩ := Option.bind_eq_some_iff.1 h
    obtain ⟨bs', hbs, h⟩ := Option.bind_eq_some_iff.1 h
    cases h
    obtain ⟨digits, even, lower⟩ := ih hbs
    obtain ⟨lowerh, smallh⟩ := toLower_of_value? hh
    obtain ⟨lowerl, smalll⟩ := toLower_of_value? hl
    obtain ⟨ehigh, elow⟩ := digit_of_byte smallh smalll
    refine ⟨?_, ?_, ?_⟩
    · rw [List.all_cons, List.all_cons, digits, isDigit, isDigit, hh, hl]
      rfl
    · rw [List.length_cons, List.length_cons]
      omega
    · rw [List.map_cons, List.map_cons, lower, encode_cons, ehigh, elow, lowerh, lowerl]

/-- Nothing but digits, in pairs, spells bytes. -/
theorem bytes?_isSome {cs : List Char} (digits : cs.all isDigit = true)
    (even : cs.length % 2 = 0) : ∃ bs, bytes? cs = some bs := by
  induction cs using bytes?.induct with
  | case1 => exact ⟨[], rfl⟩
  | case2 c => cases even
  -- two digits make a byte, and an even number of them is left
  | case3 hi lo r ih =>
    simp only [List.all_cons, Bool.and_eq_true] at digits
    obtain ⟨vh, hh⟩ := Option.isSome_iff_exists.1 digits.1
    obtain ⟨vl, hl⟩ := Option.isSome_iff_exists.1 digits.2.1
    obtain ⟨bs, hbs⟩ := ih digits.2.2 (by simp only [List.length_cons] at even; omega)
    exact ⟨_, by rw [bytes?, hh, hl, hbs]; rfl⟩

/-- **The canonical form of a text is the text of the bytes that it spells,** and both are refused
together. -/
theorem normalize_eq (text : String) : normalize text = (spelled text).map marked := by
  unfold normalize spelled
  dsimp only
  generalize Text.trimmed Text.isBlank text.toList = trimmed
  cases hd : dropMark trimmed with
  | nil => rfl
  | cons c cs =>
    rw [List.isEmpty_cons, if_neg (by decide)]
    cases hb : bytes? (c :: cs) with
    | some bs =>
      -- the text spells bytes, so it passes both checks
      obtain ⟨digits, even, lower⟩ := of_bytes?_eq_some hb
      rw [digits, if_neg (by decide), if_neg (by omega), lower]
      rfl
    | none =>
      -- it spells none because a character is no digit, or because one is left over
      by_cases digits : (c :: cs).all isDigit = true
      · have odd : (c :: cs).length % 2 ≠ 0 := by
          intro even
          obtain ⟨bs, hbs⟩ := bytes?_isSome digits even
          rw [hbs] at hb
          cases hb
        rw [digits, if_neg (by decide), if_pos odd]
        rfl
      · rw [Bool.not_eq_true] at digits
        rw [digits, if_pos (by decide)]
        rfl

/-- The text of bytes spells these bytes, if there are any. -/
theorem spelled_marked {bs : List UInt8} (h : bs ≠ []) : spelled (marked bs) = .ok bs := by
  obtain ⟨b, bs, rfl⟩ := List.exists_cons_of_ne_nil h
  have hb := bytes?_encode (b :: bs)
  unfold spelled
  rw [marked, String.toList_ofList, trimmed_marked_encode]
  simp only [dropMark, hb]
  rfl

end BlockRelay.Hex
