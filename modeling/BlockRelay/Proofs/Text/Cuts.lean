import Mathlib.Data.List.TakeDrop
import Mathlib.Data.List.TakeWhile

/-!
# Texts cut at a mark

The parts of statements and addresses end at the first character of some kind, or at the last. What
is cut off is what was written there: `cut_append` is about the first character that does not belong
to a part, `span_reverse_append` about the last mark in a text, which is looked for from the end.
-/

namespace BlockRelay.Text

variable {p : Char → Bool} {part rest : List Char}

/-- **A part ends at the first character that does not belong to it.** -/
theorem cut_append (inside : ∀ c ∈ part, p c = true)
    (stop : ∀ c, rest.head? = some c → p c = false) :
    (part ++ rest).takeWhile p = part ∧ (part ++ rest).dropWhile p = rest := by
  rw [List.takeWhile_append_of_pos inside, List.dropWhile_append_of_pos inside]
  cases rest with
  | nil => exact ⟨List.append_nil _, rfl⟩
  | cons c rest =>
    have ends : ¬ p c = true := Bool.eq_false_iff.1 (stop c rfl)
    rw [List.takeWhile_cons_of_neg ends, List.append_nil, List.dropWhile_cons_of_neg ends]
    exact ⟨rfl, rfl⟩

variable {mark : Char} {after : List Char}

/-- Without a mark, nothing is cut off. -/
theorem span_reverse_of_forall_ne (h : ∀ c ∈ part, c ≠ mark) :
    part.reverse.span (· ≠ mark) = (part.reverse, []) := by
  have inside : ∀ c ∈ part.reverse, decide (c ≠ mark) = true := fun c hc =>
    decide_eq_true (h c (List.mem_reverse.1 hc))
  rw [List.span_eq_takeWhile_dropWhile, List.takeWhile_eq_self_iff.2 inside,
    List.dropWhile_eq_nil_iff.2 inside]

/-- **A text is cut at its last mark.** -/
theorem span_reverse_append (before : List Char) (h : ∀ c ∈ after, c ≠ mark) :
    (before ++ mark :: after).reverse.span (· ≠ mark) =
      (after.reverse, mark :: before.reverse) := by
  have inside : ∀ c ∈ after.reverse, decide (c ≠ mark) = true := fun c hc =>
    decide_eq_true (h c (List.mem_reverse.1 hc))
  -- read backwards, the part behind the mark comes first
  have turned : (before ++ mark :: after).reverse = after.reverse ++ mark :: before.reverse := by
    rw [List.reverse_append, List.reverse_cons, List.append_assoc, List.singleton_append]
  have stop : ∀ c, (mark :: before.reverse).head? = some c → decide (c ≠ mark) = false := by
    rintro _ ⟨⟩
    simp
  obtain ⟨taken, left⟩ := cut_append inside stop
  rw [List.span_eq_takeWhile_dropWhile, turned, taken, left]

end BlockRelay.Text
