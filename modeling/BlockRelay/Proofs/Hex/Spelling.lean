import Mathlib.Data.List.TakeWhile
import BlockRelay.Proofs.Hex.Canonical

/-!
# Spellings of bytes

A text spells bytes with two digits of either case for each, behind an optional mark, between
blanks. `Wraps` and `Spells` say so in terms of how the text is put together, without a reader.
This module ties them to the reader of `Canonical.lean`:

* `spelled_eq_ok_iff`: the reader finds the bytes that a text spells, and refuses every other text;
* `alike_iff`: two texts spell the same bytes exactly if they differ in nothing but the case of
  their digits, the mark and the blanks (`Alike`).

What a text wraps is found by trimming it and dropping the mark (`wraps_iff`), so a text wraps
one sequence of digits at most.
-/

namespace BlockRelay

namespace Text

variable {p : Char → Bool} {before core after : List Char}

/-- Where no character of the class is left between two runs of it, trimming cuts these runs. -/
theorem trimmed_append (hbefore : ∀ c ∈ before, p c = true) (hcore : ∀ c ∈ core, p c = false)
    (hafter : ∀ c ∈ after, p c = true) : trimmed p (before ++ core ++ after) = core := by
  rw [trimmed, List.append_assoc, List.dropWhile_append_of_pos hbefore]
  cases core with
  | nil =>
    -- with nothing in between, the first cut takes everything
    rw [List.nil_append, List.dropWhile_eq_nil_iff.2 hafter, dropEndWhile_nil]
  | cons c r =>
    have first : ((c :: r) ++ after).dropWhile p = (c :: r) ++ after := by
      rw [List.cons_append, List.dropWhile_cons_of_neg]
      rw [hcore c List.mem_cons_self]
      decide
    have last : ∀ d, (c :: r).getLast? = some d → p d = false := fun d hd =>
      hcore d (List.mem_of_getLast? hd)
    have reversed : ∀ d ∈ after.reverse, p d = true := fun d hd =>
      hafter d (List.mem_reverse.1 hd)
    rw [first, dropEndWhile, List.reverse_append, List.dropWhile_append_of_pos reversed]
    exact dropEndWhile_eq_self last

/-- What trimming cuts off are characters of the class. -/
theorem exists_append_trimmed (p : Char → Bool) (cs : List Char) :
    ∃ before after, cs = before ++ trimmed p cs ++ after ∧ (∀ c ∈ before, p c = true) ∧
      ∀ c ∈ after, p c = true := by
  refine ⟨cs.takeWhile p, ((cs.dropWhile p).reverse.takeWhile p).reverse, ?_, ?_, ?_⟩
  · rw [List.append_assoc, trimmed, dropEndWhile_append_takeWhile,
      List.takeWhile_append_dropWhile]
  · exact fun c hc => List.mem_takeWhile_imp hc
  · exact fun c hc => List.mem_takeWhile_imp (List.mem_reverse.1 hc)

end Text

namespace Hex

/-- What may stand in front of the digits. -/
def marks : List (List Char) := [[], ['0', 'x'], ['0', 'X']]

/-- **A text wraps digits:** they stand behind an optional mark, between blanks. -/
def Wraps (text : String) (digits : List Char) : Prop :=
  ∃ before mark after, text.toList = before ++ (mark ++ digits) ++ after ∧
    (∀ c ∈ before, Text.isBlank c = true) ∧ mark ∈ marks ∧
    (∀ c ∈ digits, isDigit c = true) ∧ ∀ c ∈ after, Text.isBlank c = true

/-- **A text spells bytes,** at least one of them, by the digits that it wraps. -/
def Spells (text : String) (bs : List UInt8) : Prop :=
  bs ≠ [] ∧ ∃ digits, Wraps text digits ∧ bytes? digits = some bs

/-- **Two texts are alike** if they differ in nothing but the case of their digits, the mark and
the blanks. -/
def Alike (t u : String) : Prop :=
  ∃ d e, Wraps t d ∧ Wraps u e ∧ d.map Char.toLower = e.map Char.toLower

variable {t u text : String} {bs cs : List UInt8} {digits : List Char}

/-! ### Marks -/

/-- A mark is dropped, and no digit is taken for one. -/
theorem dropMark_append {mark : List Char} (hmark : mark ∈ marks)
    (hdigits : ∀ c ∈ digits, isDigit c = true) : dropMark (mark ++ digits) = digits := by
  simp only [marks, List.mem_cons, List.not_mem_nil, or_false] at hmark
  rcases hmark with rfl | rfl | rfl
  · rw [List.nil_append]
    unfold dropMark
    -- the second character of a mark is no digit
    split
    · exact absurd (hdigits 'x' (.tail _ (.head _))) (by decide)
    · exact absurd (hdigits 'X' (.tail _ (.head _))) (by decide)
    · rfl
  · rfl
  · rfl

/-- Whatever is dropped is a mark. -/
theorem exists_append_dropMark (cs : List Char) : ∃ mark ∈ marks, cs = mark ++ dropMark cs := by
  unfold dropMark
  split
  · next r => exact ⟨['0', 'x'], by decide, rfl⟩
  · next r => exact ⟨['0', 'X'], by decide, rfl⟩
  · next cs _ _ => exact ⟨[], by decide, rfl⟩

/-- A mark with digits behind it has no blanks. -/
theorem not_isBlank_of_mark {mark : List Char} (hmark : mark ∈ marks)
    (hdigits : ∀ c ∈ digits, isDigit c = true) :
    ∀ c ∈ mark ++ digits, Text.isBlank c = false := by
  intro c hc
  rcases List.mem_append.1 hc with hc | hc
  · have zero : Text.isBlank '0' = false := by decide
    have lower : Text.isBlank 'x' = false := by decide
    have upper : Text.isBlank 'X' = false := by decide
    -- whichever mark it is, its characters are among these three
    have letters : c = '0' ∨ c = 'x' ∨ c = 'X' := by
      simp only [marks, List.mem_cons, List.not_mem_nil, or_false] at hmark
      rcases hmark with rfl | rfl | rfl
      · cases hc
      · have either : c = '0' ∨ c = 'x' := by simpa using hc
        exact either.imp_right .inl
      · have either : c = '0' ∨ c = 'X' := by simpa using hc
        exact either.imp_right .inr
    rcases letters with rfl | rfl | rfl
    · exact zero
    · exact lower
    · exact upper
  · exact (isDigit_class (hdigits c hc)).2.1

/-! ### What a text wraps -/

/-- **What a text wraps is found by trimming it and dropping the mark,** if it is digits. -/
theorem wraps_iff : Wraps text digits ↔
    (∀ c ∈ digits, isDigit c = true) ∧
      dropMark (Text.trimmed Text.isBlank text.toList) = digits := by
  constructor
  · rintro ⟨before, mark, after, htext, hbefore, hmark, hdigits, hafter⟩
    refine ⟨hdigits, ?_⟩
    -- trimming stops at the mark or the digits, as neither is blank
    rw [htext, Text.trimmed_append hbefore (not_isBlank_of_mark hmark hdigits) hafter,
      dropMark_append hmark hdigits]
  · rintro ⟨hdigits, found⟩
    -- what was trimmed and what was dropped are the missing parts
    obtain ⟨before, after, htext, hbefore, hafter⟩ :=
      Text.exists_append_trimmed Text.isBlank text.toList
    obtain ⟨mark, hmark, htrimmed⟩ :=
      exists_append_dropMark (Text.trimmed Text.isBlank text.toList)
    rw [found] at htrimmed
    rw [htrimmed] at htext
    exact ⟨before, mark, after, htext, hbefore, hmark, hdigits, hafter⟩

/-- A text wraps one row of digits at most. -/
theorem Wraps.unique {d e : List Char} (hd : Wraps text d) (he : Wraps text e) : d = e :=
  (wraps_iff.1 hd).2.symm.trans (wraps_iff.1 he).2

/-! ### The reader -/

/-- Bytes have digits, and no bytes have none. -/
theorem bytes?_eq_nil (h : bytes? digits = some []) : digits = [] := by
  obtain ⟨-, -, lower⟩ := of_bytes?_eq_some h
  exact List.map_eq_nil_iff.1 lower

/-- **The reader finds the bytes that a text spells,** and refuses every other text. -/
theorem spelled_eq_ok_iff : spelled text = .ok bs ↔ Spells text bs := by
  unfold spelled
  dsimp only
  constructor
  · intro h
    split at h
    · cases h
    · -- the remainder is digits throughout, so the text wraps it
      next found nonempty =>
      cases h
      obtain ⟨all, -, -⟩ := of_bytes?_eq_some found
      refine ⟨?_, _, wraps_iff.2 ⟨List.all_eq_true.1 all, rfl⟩, found⟩
      rintro rfl
      exact nonempty (bytes?_eq_nil found)
    · split at h
      · cases h
      · cases h
  · rintro ⟨some_, digits, wraps, found⟩
    rw [(wraps_iff.1 wraps).2, found]
    cases digits with
    -- a bare mark: nothing is spelt, though `bytes?` reads it as no bytes
    | nil =>
      cases found
      exact absurd rfl some_
    | cons c r => rfl

/-- The text of typed bytes spells them. -/
theorem spells_text {n : Nat} (b : FixedBytes n) (positive : 0 < n) : Spells b.text b.toList := by
  refine spelled_eq_ok_iff.1 (spelled_marked ?_)
  -- there are `n` of them
  intro none_
  have length := b.length_eq
  rw [none_, List.length_nil] at length
  omega

/-- **Texts are alike exactly if they spell the same bytes.** -/
theorem alike_iff (ht : Spells t bs) (hu : Spells u cs) : Alike t u ↔ bs = cs := by
  obtain ⟨-, d, hd, dbytes⟩ := ht
  obtain ⟨-, e, he, ebytes⟩ := hu
  -- in lower case the digits are what is written of the bytes
  have dlower : d.map Char.toLower = encode bs := (of_bytes?_eq_some dbytes).2.2
  have elower : e.map Char.toLower = encode cs := (of_bytes?_eq_some ebytes).2.2
  constructor
  · rintro ⟨d', e', hd', he', same⟩
    rw [hd'.unique hd, he'.unique he, dlower, elower] at same
    exact encode_injective same
  · rintro rfl
    exact ⟨d, e, hd, he, dlower.trans elower.symm⟩

end Hex

end BlockRelay
