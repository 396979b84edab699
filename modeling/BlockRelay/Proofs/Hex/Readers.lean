import BlockRelay.Cache.Key
import BlockRelay.Proofs.Hex.Spelling

/-!
# The two readers of hexadecimal text agree

`normalize` rewrites a text character by character and never forms a byte. `FixedBytes.parse`
turns the text into UTF-8 first and decodes that two bytes at a time. They share nothing but the
trimming and the mark, report different causes in a different order, and still have to accept the
same texts: an entry that is stored under typed bytes is looked up under text.

Both are compared with the bytes of the digits that a text leaves (`remainder`):

* `decodeFrom_eq_ok_iff` says that the decoder of bytes is `bytes?` on these bytes taken as
  characters. A character beyond ASCII falls apart into bytes none of which is a digit
  (`exists_byte_of_not_ascii`), so nothing is accepted on the way through UTF-8 that was no digit
  before;
* `parse_eq_ok_iff` and `normalize_eq_ok_iff` then state both readers in terms of `Spells`.

`readers_agree` collects what follows: one law of acceptance, the canonical form as a fixed point,
typed and textual keys, and the exact conditions of the three refusals.
-/

namespace BlockRelay

namespace Hex

variable {cs digits : List Char} {ds bs : List UInt8} {text s t : String}

/-- What trimming and dropping the mark leave of a text. -/
def remainder (text : String) : List Char := dropMark (Text.trimmed Text.isBlank text.toList)

/-! ### Decoding bytes of text -/

/-- Bytes, each taken as the character with its number. -/
def asChars (ds : List UInt8) : List Char := ds.map fun b => Char.ofNat b.toNat

/-- The byte-wise decoder agrees with `bytes?`, wherever it counts its positions from. -/
theorem decodeFrom_eq_ok_iff : ∀ {ds bs : List UInt8} (position : Nat),
    decodeFrom position ds = .ok bs ↔ bytes? (asChars ds) = some bs
  | [], bs, position => by simp [decodeFrom, asChars, bytes?]
  | [a], bs, position => by simp [decodeFrom, asChars, bytes?]
  | a :: b :: r, bs, position => by
    have chars : asChars (a :: b :: r) =
        Char.ofNat a.toNat :: Char.ofNat b.toNat :: asChars r := rfl
    rw [chars, decodeFrom, bytes?]
    cases value? (Char.ofNat a.toNat) with
    | none => simp
    | some h =>
      cases value? (Char.ofNat b.toNat) with
      | none => simp
      | some l =>
        have ih : ∀ bs', decodeFrom (position + 2) r = .ok bs' ↔ bytes? (asChars r) = some bs' :=
          fun _ => decodeFrom_eq_ok_iff (position + 2)
        -- two digits are a byte on both sides; what follows is accepted by both or by neither
        cases hr : bytes? (asChars r) with
        | some bs' => simp [(ih bs').2 hr]
        | none =>
          cases hd : decodeFrom (position + 2) r with
          | error e => simp
          | ok bs' =>
            have found := (ih bs').1 hd
            rw [hr] at found
            cases found

/-- Of ASCII text the UTF-8 bytes, each taken as a character, are the text. -/
theorem asChars_encode (ascii : ∀ c ∈ cs, c.toNat < 128) : asChars (Text.Utf8.encode cs) = cs := by
  induction cs with
  | nil => rfl
  | cons c cs ih =>
    have hc : c.toNat < 128 := ascii c List.mem_cons_self
    -- an ASCII character is its own byte
    have byte : (UInt8.ofNat c.toNat).toNat = c.toNat :=
      UInt8.toNat_ofNat_of_lt' (by simp only [UInt8.size]; omega)
    have rest := ih fun d hd => ascii d (List.mem_cons_of_mem _ hd)
    rw [Text.Utf8.encode_cons, utf8EncodeChar_ascii hc, List.singleton_append]
    show Char.ofNat (UInt8.ofNat c.toNat).toNat :: asChars (Text.Utf8.encode cs) = c :: cs
    rw [byte, Char.ofNat_toNat, rest]

/-- A byte taken as a character keeps its number: no surrogate lies below 256. -/
theorem toNat_ofNat_toNat (b : UInt8) : (Char.ofNat b.toNat).toNat = b.toNat := by
  have hb : b.toNat < 256 := b.toNat_lt
  have valid : b.toNat.isValidChar := .inl (by omega)
  rw [Char.ofNat, dif_pos valid]
  rfl

/-- The bytes of a character beyond ASCII begin with one beyond ASCII. -/
theorem exists_byte_of_not_ascii {c : Char} (h : 128 ≤ c.toNat) :
    ∃ b ∈ String.utf8EncodeChar c, 128 ≤ b.toNat := by
  have hv : 128 ≤ c.val.toNat := h
  -- the leading byte of a longer encoding has its top bit set
  have first : ∀ n, 128 ≤ n → n < 256 → 128 ≤ (UInt8.ofNat n).toNat := by
    intro n low high
    rw [UInt8.toNat_ofNat_of_lt' (by simp only [UInt8.size]; omega)]
    exact low
  unfold String.utf8EncodeChar
  generalize c.val.toNat = v at hv
  dsimp only
  -- one byte, two, three or four: a single one would mean `v < 128`
  split
  · omega
  split
  · exact ⟨_, List.mem_cons_self, first _ (by omega) (by omega)⟩
  split
  · exact ⟨_, List.mem_cons_self, first _ (by omega) (by omega)⟩
  · exact ⟨_, List.mem_cons_self, first _ (by omega) (by omega)⟩

/-- **Nothing becomes a digit on the way through UTF-8.** -/
theorem bytes?_asChars_encode :
    bytes? (asChars (Text.Utf8.encode cs)) = some bs ↔ bytes? cs = some bs := by
  by_cases ascii : ∀ c ∈ cs, c.toNat < 128
  · rw [asChars_encode ascii]
  · obtain ⟨c, hc, hlarge⟩ : ∃ c ∈ cs, 128 ≤ c.toNat := by
      obtain ⟨c, h⟩ := not_forall.1 ascii
      obtain ⟨hc, hlarge⟩ := Classical.not_imp.1 h
      exact ⟨c, hc, Nat.le_of_not_lt hlarge⟩
    -- some byte of `c` is no digit, so neither side reads anything
    constructor
    · intro found
      obtain ⟨b, hmem, hbyte⟩ := exists_byte_of_not_ascii hlarge
      have mem : Char.ofNat b.toNat ∈ asChars (Text.Utf8.encode cs) :=
        List.mem_map_of_mem (List.mem_flatMap.2 ⟨c, hc, hmem⟩)
      have digit := List.all_eq_true.1 (of_bytes?_eq_some found).1 _ mem
      have number := toNat_ofNat_toNat b
      have small := (isDigit_class digit).1
      omega
    · intro found
      have digit := List.all_eq_true.1 (of_bytes?_eq_some found).1 c hc
      have small := (isDigit_class digit).1
      omega

/-- The first reader reads what `bytes?` makes of the text without its blanks and mark. -/
theorem parseBytes_eq_ok_iff : parseBytes text = .ok bs ↔ bytes? (remainder text) = some bs := by
  have decoded : decodeFrom 0 (Text.Utf8.encode (remainder text)) = .ok bs ↔
      bytes? (remainder text) = some bs :=
    (decodeFrom_eq_ok_iff 0).trans bytes?_asChars_encode
  unfold parseBytes
  rw [← remainder]
  dsimp only
  split
  · next odd =>
    -- an odd number of bytes would be refused by the decoder as well
    refine iff_of_false (fun h => by cases h) fun found => odd ?_
    have pairs := (of_bytes?_eq_some
      ((decodeFrom_eq_ok_iff 0).1 (decoded.2 found))).2.1
    rw [asChars, List.length_map] at pairs
    exact pairs
  · exact decoded

/-! ### Both readers in terms of spelling -/

/-- A text spells `bs` exactly if `bs` is not empty and is what `bytes?` makes of the remainder. -/
theorem spells_iff : Spells text bs ↔ bs ≠ [] ∧ bytes? (remainder text) = some bs := by
  constructor
  · rintro ⟨nonempty, digits, wraps, found⟩
    have left : remainder text = digits := (wraps_iff.1 wraps).2
    exact ⟨nonempty, by rw [left]; exact found⟩
  · rintro ⟨nonempty, found⟩
    -- only digits are read as bytes, so the remainder wraps itself
    have all : ∀ c ∈ remainder text, isDigit c = true :=
      List.all_eq_true.1 (of_bytes?_eq_some found).1
    exact ⟨nonempty, remainder text, wraps_iff.2 ⟨all, rfl⟩, found⟩

/-- Digits spell the bytes whose text they are in lower case. -/
theorem bytes?_eq_some_iff (all : ∀ c ∈ digits, isDigit c = true) :
    bytes? digits = some bs ↔ digits.map Char.toLower = encode bs := by
  constructor
  · intro found
    exact (of_bytes?_eq_some found).2.2
  · intro lower
    have length : digits.length = 2 * bs.length := by
      rw [← length_encode, ← lower, List.length_map]
    -- an even number of digits can be read, and reading and printing leave no choice
    obtain ⟨bs', found⟩ := bytes?_isSome (List.all_eq_true.2 all) (by omega)
    have same : encode bs' = encode bs := (of_bytes?_eq_some found).2.2.symm.trans lower
    rw [found, encode_injective same]

/-- The second reader answers with the canonical spelling of what the text spells, and fails if it
spells nothing. -/
theorem normalize_eq_ok_iff : normalize text = .ok t ↔ ∃ bs, Spells text bs ∧ t = marked bs := by
  rw [normalize_eq]
  constructor
  · intro h
    cases hs : spelled text with
    -- what the text does not spell is not normalised
    | error e =>
      rw [hs] at h
      cases h
    | ok bs =>
      rw [hs] at h
      cases h
      exact ⟨bs, spelled_eq_ok_iff.1 hs, rfl⟩
  · rintro ⟨bs, spells, rfl⟩
    rw [spelled_eq_ok_iff.2 spells]
    rfl

/-- The second reader gives the canonical text of `b` exactly if the text spells the bytes of `b`.
-/
theorem normalize_eq_text_iff {n : Nat} {b : FixedBytes n} :
    normalize text = .ok b.text ↔ Spells text b.toList := by
  rw [normalize_eq_ok_iff]
  constructor
  · rintro ⟨bs, spells, same⟩
    have hbs : b.toList = bs := marked_injective same
    rw [hbs]
    exact spells
  · intro spells
    exact ⟨b.toList, spells, rfl⟩

/-- The first reader gives `b` exactly if the text spells the bytes of `b`. Without `0 < n` this
fails: it reads the empty text as no bytes, which spells nothing. -/
theorem parse_eq_ok_iff {n : Nat} (positive : 0 < n) {b : FixedBytes n} :
    FixedBytes.parse n text = .ok b ↔ Spells text b.toList := by
  -- the length is tested last, and `b` has it
  have bytes : FixedBytes.parse n text = .ok b ↔ parseBytes text = .ok b.toList := by
    unfold FixedBytes.parse
    cases hp : parseBytes text with
    | error e => exact iff_of_false (fun h => by cases h) fun h => by cases h
    | ok bs =>
      dsimp only
      rw [Except.ok.injEq]
      by_cases hlength : bs.length = n
      · rw [dif_pos hlength, Except.ok.injEq]
        exact ⟨fun h => by rw [← h], fun h => by cases b; cases h; rfl⟩
      · rw [dif_neg hlength]
        refine iff_of_false (fun h => by cases h) fun h => hlength ?_
        rw [h, b.length_eq]
  -- the one place where `positive` is used
  have nonempty : b.toList ≠ [] := by
    intro none_
    have length := b.length_eq
    rw [none_, List.length_nil] at length
    omega
  calc FixedBytes.parse n text = .ok b
      ↔ parseBytes text = .ok b.toList := bytes
    _ ↔ bytes? (remainder text) = some b.toList := parseBytes_eq_ok_iff
    _ ↔ b.toList ≠ [] ∧ bytes? (remainder text) = some b.toList := (and_iff_right nonempty).symm
    _ ↔ Spells text b.toList := spells_iff.symm

/-- Fixed bytes are spelled by two digits for each of them. -/
theorem spells_toList_iff {n : Nat} (positive : 0 < n) {b : FixedBytes n} :
    Spells text b.toList ↔ ∃ digits, Wraps text digits ∧ digits.length = 2 * n ∧
      digits.map Char.toLower = encode b.toList := by
  constructor
  · rintro ⟨-, digits, wraps, found⟩
    -- two digits a byte, so the number of digits follows from the bytes
    have lower : digits.map Char.toLower = encode b.toList := (of_bytes?_eq_some found).2.2
    have length : (digits.map Char.toLower).length = 2 * n := by
      rw [lower, length_encode, b.length_eq]
    rw [List.length_map] at length
    exact ⟨digits, wraps, length, lower⟩
  · rintro ⟨digits, wraps, length, lower⟩
    have found : bytes? digits = some b.toList := (bytes?_eq_some_iff (wraps_iff.1 wraps).1).2 lower
    refine ⟨?_, digits, wraps, found⟩
    intro none_
    have := b.length_eq
    rw [none_, List.length_nil] at this
    omega

/-! ### Refusals -/

/-- What `normalize` can come to. -/
theorem normalize_cases (text : String) :
    (remainder text = [] ∧ normalize text = .error .empty) ∨
    ((∃ c ∈ remainder text, isDigit c = false) ∧
      normalize text = .error (.notHex (Text.trim text))) ∨
    ((∀ c ∈ remainder text, isDigit c = true) ∧ (remainder text).length % 2 = 1 ∧
      normalize text = .error (.oddDigits (remainder text).length)) ∨
    (remainder text ≠ [] ∧ (∀ c ∈ remainder text, isDigit c = true) ∧
      (remainder text).length % 2 = 0 ∧ ∃ t, normalize text = .ok t) := by
  have unfolded : normalize text =
      if (remainder text).isEmpty then .error .empty
      else if !(remainder text).all isDigit then .error (.notHex (Text.trim text))
      else if (remainder text).length % 2 ≠ 0 then .error (.oddDigits (remainder text).length)
      else .ok (String.ofList ('0' :: 'x' :: (remainder text).map Char.toLower)) := rfl
  rw [unfolded]
  -- only the remainder is tested from here on
  generalize remainder text = left
  split
  · next empty => exact .inl ⟨List.isEmpty_iff.1 empty, rfl⟩
  -- the tests in the order of the reader: empty, digits, number of digits
  next present =>
  have nonempty : left ≠ [] := fun h => present (List.isEmpty_iff.2 h)
  split
  · next other =>
    rw [Bool.not_eq_true', List.all_eq_false] at other
    obtain ⟨c, hc, hother⟩ := other
    exact .inr (.inl ⟨⟨c, hc, Bool.eq_false_iff.2 hother⟩, rfl⟩)
  next digits =>
  have all : ∀ c ∈ left, isDigit c = true := by
    rw [Bool.not_eq_true', Bool.not_eq_false] at digits
    exact List.all_eq_true.1 digits
  split
  · next odd => exact .inr (.inr (.inl ⟨all, by omega, rfl⟩))
  · next even => exact .inr (.inr (.inr ⟨nonempty, all, by omega, _, rfl⟩))

/-- The cases exclude one another, so each cause has its exact condition. -/
theorem normalize_error_iff (text : String) :
    (normalize text = .error .empty ↔ remainder text = []) ∧
    (∀ shown, normalize text = .error (.notHex shown) ↔
      shown = Text.trim text ∧ ∃ c ∈ remainder text, isDigit c = false) ∧
    ∀ n, normalize text = .error (.oddDigits n) ↔
      (remainder text).length = n ∧ n % 2 = 1 ∧ ∀ c ∈ remainder text, isDigit c = true := by
  -- a character that is no digit rules out that all are
  have exclude : (∃ c ∈ remainder text, isDigit c = false) →
      ¬ ∀ c ∈ remainder text, isDigit c = true := by
    rintro ⟨c, hc, hother⟩ all
    rw [all c hc] at hother
    cases hother
  -- the four cases exclude one another: in each, one error is right and the others are refuted
  rcases normalize_cases text with ⟨empty, h⟩ | ⟨other, h⟩ | ⟨all, odd, h⟩ |
    ⟨nonempty, all, even, t, h⟩
  · rw [h, empty]
    refine ⟨by simp, by simp, fun n => ?_⟩
    rw [List.length_nil]
    refine iff_of_false (fun h => by cases h) ?_
    rintro ⟨rfl, odd, -⟩
    cases odd
  · -- a character that is no digit: the text is not empty, and no count is taken
    have nonempty : remainder text ≠ [] := by
      obtain ⟨c, hc, -⟩ := other
      exact List.ne_nil_of_mem hc
    rw [h]
    refine ⟨iff_of_false (fun h => by cases h) nonempty, fun shown => ?_, fun n => ?_⟩
    · constructor
      · intro same
        cases same
        exact ⟨rfl, other⟩
      · rintro ⟨rfl, -⟩
        rfl
    · exact iff_of_false (fun h => by cases h) fun h => exclude other h.2.2
  · have nonempty : remainder text ≠ [] := by
      intro none_
      rw [none_, List.length_nil] at odd
      cases odd
    rw [h]
    refine ⟨iff_of_false (fun h => by cases h) nonempty, fun shown => ?_, fun n => ?_⟩
    · exact iff_of_false (fun h => by cases h) fun h => exclude h.2 all
    · constructor
      · intro same
        cases same
        exact ⟨rfl, odd, all⟩
      · rintro ⟨rfl, -⟩
        rfl
  · rw [h]
    refine ⟨iff_of_false (fun h => by cases h) nonempty, fun shown => ?_, fun n => ?_⟩
    · exact iff_of_false (fun h => by cases h) fun h => exclude h.2 all
    · refine iff_of_false (fun h => by cases h) ?_
      rintro ⟨rfl, odd, -⟩
      omega

/-! ### The law -/

/-- Typed bytes and the texts that they are parsed from make the same key. -/
theorem ofTexts_eq_ofBytes {proposer block : String} {p : PublicKey} {b : Hash} (slot : UInt64)
    (hp : FixedBytes.parse 48 proposer = .ok p) (hb : FixedBytes.parse 32 block = .ok b) :
    PayloadKey.ofTexts slot proposer block = .ok (.ofBytes slot p b) := by
  have first : normalize proposer = .ok p.text :=
    normalize_eq_text_iff.2 ((parse_eq_ok_iff (by decide)).1 hp)
  have second : normalize block = .ok b.text :=
    normalize_eq_text_iff.2 ((parse_eq_ok_iff (by decide)).1 hb)
  rw [PayloadKey.ofTexts, first, second]
  rfl

/-- The canonical form is its own canonical form. -/
theorem normalize_of_normalize (h : normalize s = .ok t) : normalize t = .ok t := by
  obtain ⟨bs, ⟨nonempty, -⟩, rfl⟩ := normalize_eq_ok_iff.1 h
  have spells : Spells (marked bs) bs := spelled_eq_ok_iff.1 (spelled_marked nonempty)
  exact normalize_eq_ok_iff.2 ⟨bs, spells, rfl⟩

/-- **The two readers agree.** A text of at least one byte is parsed to bytes exactly if its
canonical form is the text of these bytes, and exactly if it is made of blanks, a mark or none, two
digits of either case for each byte, and blanks. So the canonical form is its own canonical form,
keys and signatures are read back from their texts, and a payload has one key, whether it is named
by texts or by what these are parsed to. Every other text has no canonical form, for a cause that
what is left of it decides. -/
theorem readers_agree :
    (∀ (n : Nat) (s : String) (b : FixedBytes n), 0 < n →
      (FixedBytes.parse n s = .ok b ↔ normalize s = .ok b.text) ∧
      (FixedBytes.parse n s = .ok b ↔ ∃ digits, Wraps s digits ∧ digits.length = 2 * n ∧
        digits.map Char.toLower = encode b.toList)) ∧
    (∀ s t, normalize s = .ok t → normalize t = .ok t) ∧
    ((∀ k : PublicKey, FixedBytes.parse 48 k.text = .ok k) ∧
      ∀ k : Signature, FixedBytes.parse 96 k.text = .ok k) ∧
    (∀ (slot : UInt64) (proposer block : String) (p : PublicKey) (b : Hash),
      FixedBytes.parse 48 proposer = .ok p → FixedBytes.parse 32 block = .ok b →
      PayloadKey.ofTexts slot proposer block = .ok (.ofBytes slot p b)) ∧
    ∀ s,
      (normalize s = .error .empty ↔ remainder s = []) ∧
      (∀ shown, normalize s = .error (.notHex shown) ↔
        shown = Text.trim s ∧ ∃ c ∈ remainder s, isDigit c = false) ∧
      (∀ n, normalize s = .error (.oddDigits n) ↔
        (remainder s).length = n ∧ n % 2 = 1 ∧ ∀ c ∈ remainder s, isDigit c = true) ∧
      ((∃ t, normalize s = .ok t) ∨ normalize s = .error .empty ∨
        (∃ shown, normalize s = .error (.notHex shown)) ∨
        ∃ n, normalize s = .error (.oddDigits n)) := by
  refine ⟨fun n s b positive => ⟨?_, ?_⟩, fun s t => normalize_of_normalize,
    ⟨FixedBytes.parse_text, FixedBytes.parse_text⟩,
    fun slot proposer block p b => ofTexts_eq_ofBytes slot, fun s => ?_⟩
  · -- both readers are measured against `Spells`
    exact (parse_eq_ok_iff positive).trans normalize_eq_text_iff.symm
  · exact (parse_eq_ok_iff positive).trans (spells_toList_iff positive)
  · obtain ⟨empty, other, odd⟩ := normalize_error_iff s
    refine ⟨empty, other, odd, ?_⟩
    rcases normalize_cases s with ⟨-, h⟩ | ⟨-, h⟩ | ⟨-, -, h⟩ | ⟨-, -, -, t, h⟩
    · exact .inr (.inl h)
    · exact .inr (.inr (.inl ⟨_, h⟩))
    · exact .inr (.inr (.inr ⟨_, h⟩))
    · exact .inl ⟨t, h⟩

/-- A public key between blanks of several kinds, behind a capital mark and in capital digits. -/
theorem readers_agree_capitals :
    ∃ (s : String) (k : PublicKey) (b : Hash), 0 < 48 ∧
      s = String.ofList ('\u3000' :: ' ' :: '0' :: 'X' :: List.replicate 96 'A' ++ ['\n']) ∧
      k.toList = List.replicate 48 0xaa ∧
      FixedBytes.parse 48 s = .ok k ∧ FixedBytes.parse 32 b.text = .ok b ∧
      normalize s = .ok k.text ∧ normalize k.text = .ok k.text ∧
      PayloadKey.ofTexts 7 s b.text = .ok (.ofBytes 7 k b) := by
  obtain ⟨fixed, again, -, keys, -⟩ := readers_agree
  let s := String.ofList ('\u3000' :: ' ' :: '0' :: 'X' :: List.replicate 96 'A' ++ ['\n'])
  let k : PublicKey := ⟨List.replicate 48 0xaa, rfl⟩
  let b : Hash := .zero 32
  -- the ideographic space counts as a blank, and `0X` as a mark
  have wraps : Wraps s (List.replicate 96 'A') := by
    refine ⟨['\u3000', ' '], ['0', 'X'], ['\n'], ?_, List.all_eq_true.1 (by decide), by decide, ?_,
      List.all_eq_true.1 (by decide)⟩
    · rw [String.toList_ofList]
      rfl
    · intro c hc
      rw [List.eq_of_mem_replicate hc]
      decide
  have parsed : FixedBytes.parse 48 s = .ok k :=
    (fixed 48 s k (by decide)).2.2 ⟨_, wraps, rfl, by rfl⟩
  have canonical : normalize s = .ok k.text := (fixed 48 s k (by decide)).1.1 parsed
  exact ⟨s, k, b, by decide, rfl, rfl, parsed, b.parse_text, canonical, again _ _ canonical,
    keys 7 _ _ _ _ parsed b.parse_text⟩

end Hex

end BlockRelay
