import BlockRelay.Hex.Basic

/-!
# Hexadecimal digits and the bytes they spell

Bytes are written as two lower-case digits each. This module has what the readers need to know of
such a text: all of its characters are digits (`isDigit_encode`), hence neither gaps nor blanks,
and its length is even (`length_encode`). So every reader finds the bytes again, whether it skips
gaps (`pairedDigits?_encode`), trims (`trimmed_marked_encode`) or decodes bytes of text
(`decodeFrom_encode`).

* `parse_text` — fixed bytes are read back from their text.
-/

namespace BlockRelay

namespace Hex

/-! ### Characters -/

theorem isDigit_digit (n : Nat) : isDigit (digit n) = true := by
  rw [isDigit, value?_digit, Option.isSome_some]

/-- A digit is a character of ASCII that is neither a blank nor a gap. -/
theorem isDigit_class {c : Char} (h : isDigit c = true) :
    c.toNat < 128 ∧ Text.isBlank c = false ∧ isGap c = false := by
  -- digits come from three ranges, and no blank or gap is in any of them
  have range : (48 ≤ c.toNat ∧ c.toNat ≤ 57) ∨ (97 ≤ c.toNat ∧ c.toNat ≤ 102) ∨
      (65 ≤ c.toNat ∧ c.toNat ≤ 70) := by
    unfold isDigit value? at h
    dsimp only at h
    split at h
    · next h' => exact .inl h'
    split at h
    · next h' => exact .inr (.inl h')
    split at h
    · next h' => exact .inr (.inr h')
    · cases h
  refine ⟨by omega, ?_, ?_⟩
  · rw [Bool.eq_false_iff]
    intro hb
    simp only [Text.isBlank, Bool.or_eq_true, Bool.and_eq_true, decide_eq_true_eq, beq_iff_eq] at hb
    omega
  · rw [Bool.eq_false_iff]
    intro hg
    simp only [isGap, Bool.or_eq_true, decide_eq_true_eq] at hg
    rcases hg with ((rfl | rfl) | rfl) | rfl <;> exact absurd range (by decide)

@[simp] theorem encode_nil : encode [] = [] := rfl

/-- Each byte is printed as two digits, the upper half first; `digit` itself drops all but four
bits. -/
@[simp] theorem encode_cons (b : UInt8) (bs : List UInt8) :
    encode (b :: bs) = digit (b.toNat / 16) :: digit b.toNat :: encode bs := rfl

/-- Printed bytes are digits throughout. -/
theorem isDigit_encode (bs : List UInt8) : ∀ c ∈ encode bs, isDigit c = true := by
  induction bs with
  | nil =>
    intro c hc
    cases hc
  | cons b bs ih =>
    intro c hc
    rw [encode_cons] at hc
    -- the upper digit, the lower digit, or one of a later byte
    rcases List.mem_cons.1 hc with rfl | hc
    · exact isDigit_digit _
    rcases List.mem_cons.1 hc with rfl | hc
    · exact isDigit_digit _
    · exact ih c hc

theorem length_encode (bs : List UInt8) : (encode bs).length = 2 * bs.length := by
  induction bs with
  | nil => rfl
  | cons b bs ih =>
    rw [encode_cons, List.length_cons, List.length_cons, ih, List.length_cons]
    omega

/-- The digits determine the bytes, since reading them gives the bytes back. -/
theorem encode_injective {bs cs : List UInt8} (h : encode bs = encode cs) : bs = cs := by
  have hb := bytes?_encode bs
  rw [h, bytes?_encode] at hb
  exact (Option.some.inj hb).symm

/-! ### Digits with gaps -/

/-- Where every character is a digit there are no gaps, and the digits pair up as they stand. -/
theorem pairedDigits?_eq {cs : List Char} {ds : List Nat} (h : cs.mapM value? = some ds)
    (digits : ∀ c ∈ cs, isDigit c = true) : pairedDigits? cs = some ds := by
  -- nothing is skipped, so the digits are as many as the characters
  have gaps : (cs.filter fun c => !isGap c) = cs := by
    rw [List.filter_eq_self]
    intro c hc
    rw [(isDigit_class (digits c hc)).2.2]
    rfl
  have length : ds.length = cs.length := by
    clear gaps digits
    induction cs generalizing ds with
    | nil => cases h; rfl
    | cons c cs ih =>
      rw [List.mapM_cons] at h
      obtain ⟨d, -, h⟩ := Option.bind_eq_some_iff.1 h
      obtain ⟨ds', hds, h⟩ := Option.bind_eq_some_iff.1 h
      cases h
      rw [List.length_cons, List.length_cons, ih hds]
  rw [pairedDigits?, gaps, h, Option.map_some, if_pos (by rw [length])]

/-- The values of the digits of written bytes. -/
theorem mapM_value?_encode (bs : List UInt8) :
    ∃ ds, (encode bs).mapM value? = some ds ∧ ofPairs ds = bs := by
  induction bs with
  | nil => exact ⟨[], rfl, rfl⟩
  | cons b bs ih =>
    obtain ⟨ds, hds, hpairs⟩ := ih
    -- the two digits of a byte are its quotient and its remainder by sixteen
    have hb : b.toNat < 256 := b.toNat_lt
    refine ⟨b.toNat / 16 % 16 :: b.toNat % 16 :: ds, ?_, ?_⟩
    · rw [encode_cons, List.mapM_cons, List.mapM_cons, value?_digit, value?_digit, hds]
      rfl
    · have sum : 16 * (b.toNat / 16 % 16) + b.toNat % 16 = b.toNat := by omega
      rw [ofPairs, sum, UInt8.ofNat_toNat, hpairs]

/-- Written bytes are the digits that count of their own text. -/
theorem pairedDigits?_encode (bs : List UInt8) :
    (pairedDigits? (encode bs)).map ofPairs = some bs := by
  obtain ⟨ds, hds, hpairs⟩ := mapM_value?_encode bs
  rw [pairedDigits?_eq hds (isDigit_encode bs), Option.map_some, hpairs]

/-! ### Numbers -/

/-- A number without leading zeros is written in digits too. -/
theorem isDigit_ofNat (n : Nat) : ∀ c ∈ ofNat n, isDigit c = true := by
  induction n using ofNat.induct with
  | case1 n h =>
    intro c hc
    rw [ofNat, if_pos h, List.mem_singleton] at hc
    rw [hc]
    exact isDigit_digit n
  | case2 n h ih =>
    intro c hc
    -- the last digit stands behind those of `n / 16`
    rw [ofNat, if_neg h] at hc
    rcases List.mem_append.1 hc with hc | hc
    · exact ih c hc
    · rw [List.mem_singleton.1 hc]
      exact isDigit_digit n

theorem ofNat_ne_nil (n : Nat) : ofNat n ≠ [] := by
  rw [ofNat]
  split
  · exact List.cons_ne_nil _ _
  · exact List.append_ne_nil_of_right_ne_nil _ (List.cons_ne_nil _ _)

/-- A number below `16 ^ k` has at most `k` digits. -/
theorem length_ofNat_le {k n : Nat} (hk : 0 < k) (h : n < Nat.pow 16 k) :
    (ofNat n).length ≤ k := by
  induction n using ofNat.induct generalizing k with
  | case1 n hn => rw [ofNat, if_pos hn]; exact hk
  | case2 n hn ih =>
    cases k with
    | zero => cases hk
    | succ k =>
      -- one digit is the last of the number, and the others are those of a sixteenth of it
      have power : Nat.pow 16 (k + 1) = Nat.pow 16 k * 16 := rfl
      have hk' : 0 < k := by
        rcases Nat.eq_zero_or_pos k with rfl | hk'
        · have one : Nat.pow 16 0 = 1 := rfl
          omega
        · exact hk'
      have := ih hk' (by omega)
      rw [ofNat, if_neg hn, List.length_append, List.length_singleton]
      omega

/-- A written number is the number of the digits that count of its text. -/
theorem pairedDigits?_ofNat (n : Nat) : (pairedDigits? (ofNat n)).map ofDigits = some n := by
  obtain ⟨ds, hds, hn⟩ := ofDigits_ofNat n
  rw [pairedDigits?_eq hds (isDigit_ofNat n), Option.map_some, hn]

/-! ### Texts with a mark -/

/-- The text of bytes has no blanks at its ends, nor anywhere else. -/
theorem trimmed_marked_encode (bs : List UInt8) :
    Text.trimmed Text.isBlank ('0' :: 'x' :: encode bs) = '0' :: 'x' :: encode bs := by
  -- neither the mark nor a digit is a blank
  have none : ∀ c ∈ '0' :: 'x' :: encode bs, Text.isBlank c = false := by
    intro c hc
    rcases List.mem_cons.1 hc with rfl | hc
    · decide
    rcases List.mem_cons.1 hc with rfl | hc
    · decide
    · exact (isDigit_class (isDigit_encode bs c hc)).2.1
  refine Text.trimmed_eq_self (fun c hc => none c ?_) (fun c hc => none c ?_)
  · exact List.mem_of_mem_head? hc
  · exact List.mem_of_mem_getLast? hc

/-- A character of ASCII is one byte of text. -/
theorem utf8EncodeChar_ascii {c : Char} (h : c.toNat < 128) :
    String.utf8EncodeChar c = [UInt8.ofNat c.toNat] := by
  have hv : c.val.toNat ≤ 0x7F := by
    change c.toNat ≤ 0x7F
    omega
  rw [String.utf8EncodeChar, if_pos hv]
  rfl

/-- Bytes of text that spell bytes are decoded to these, wherever they stand. -/
theorem decodeFrom_encode (bs : List UInt8) (position : Nat) :
    decodeFrom position (Text.Utf8.encode (encode bs)) = .ok bs := by
  -- a digit is one byte of text, and is found again in it
  have byte : ∀ n, (UInt8.ofNat (digit n).toNat).toNat = (digit n).toNat := fun n =>
    UInt8.toNat_ofNat_of_lt' (by
      have := (isDigit_class (isDigit_digit n)).1
      simp only [UInt8.size]
      omega)
  have text : ∀ n, String.utf8EncodeChar (digit n) = [UInt8.ofNat (digit n).toNat] := fun n =>
    utf8EncodeChar_ascii (isDigit_class (isDigit_digit n)).1
  induction bs generalizing position with
  | nil => rfl
  | cons b bs ih =>
    have hb : b.toNat < 256 := b.toNat_lt
    have sum : 16 * (b.toNat / 16 % 16) + b.toNat % 16 = b.toNat := by omega
    rw [encode_cons, Text.Utf8.encode_cons, Text.Utf8.encode_cons, text, text,
      List.singleton_append, List.singleton_append, decodeFrom]
    simp only [byte, Char.ofNat_toNat, value?_digit, ih, sum, UInt8.ofNat_toNat]

/-- Digits are ASCII, so as UTF-8 they are as many bytes. -/
theorem length_encode_encode (bs : List UInt8) :
    (Text.Utf8.encode (encode bs)).length = 2 * bs.length := by
  rw [← length_encode]
  have digits := isDigit_encode bs
  -- that the text is made of digits is all that matters from here on
  generalize encode bs = cs at digits
  induction cs with
  | nil => rfl
  | cons c cs ih =>
    rw [Text.Utf8.encode_cons, utf8EncodeChar_ascii (isDigit_class (digits c (.head _))).1,
      List.singleton_append, List.length_cons, List.length_cons,
      ih fun d hd => digits d (List.mem_cons_of_mem _ hd)]

/-- The text of bytes spells these bytes. -/
theorem parseBytes_encode (bs : List UInt8) :
    parseBytes (String.ofList ('0' :: 'x' :: encode bs)) = .ok bs := by
  rw [parseBytes, String.toList_ofList, trimmed_marked_encode, dropMark, decodeFrom_encode,
    length_encode_encode, if_neg (by omega)]

end Hex

namespace FixedBytes

/-- **Fixed bytes are read back from their text.** -/
theorem parse_text {n : Nat} (b : FixedBytes n) : parse n b.text = .ok b := by
  rw [parse, text, Hex.parseBytes_encode]
  dsimp only
  -- as many bytes come back as were written
  rw [dif_pos b.length_eq]

theorem padded_toList {n : Nat} (b : FixedBytes n) : padded n b.toList = b := by
  obtain ⟨bs, h⟩ := b
  subst h
  simp [padded]

end FixedBytes

end BlockRelay
