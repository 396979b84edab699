import BlockRelay.Beacon.Response
import BlockRelay.Proofs.Text.Boundaries

/-!
# Excerpts of answers

A failure shows the body of the answer that could not be read, or its beginning if it is long. A
body may hold any bytes, and what is shown are characters: those that its bytes decode to, with
U+FFFD, of three bytes, in the place of each piece that is ill-formed. So the most that is shown can
end anywhere in a character, and the beginning must be cut in front of it.

`excerpt_shows_longest_beginning` says which beginning that is, and how the place of the cut is
found: by a search that takes three steps at most.
-/

namespace BlockRelay

open Text.Utf8

/-- What is taken up to the end of a beginning is that beginning. -/
theorem takeBytes_size {p cs : List Char} (h : p <+: cs) : takeBytes (size p) cs = p := by
  induction p generalizing cs with
  -- no bytes are left, and every character takes at least one
  | nil =>
    cases cs with
    | nil => rfl
    | cons c cs =>
      have none_fits : ¬ c.utf8Size ≤ size [] := Nat.not_le.2 c.utf8Size_pos
      rw [takeBytes, if_neg none_fits]
  | cons d p ih =>
    obtain ⟨rest, rfl⟩ := h
    have fits : d.utf8Size ≤ size (d :: p) := Nat.le_add_right _ _
    rw [List.cons_append, takeBytes, if_pos fits, size_cons, Nat.add_sub_cancel_left,
      ih (List.prefix_append p rest)]

/-- **What an excerpt shows of a body.** All of it, if its text has at most 256 bytes; otherwise the
longest beginning of its text that has at most 256 bytes, with three points behind it. The cut is
searched for backwards from 256 bytes, takes at most three steps, and falls between two characters:
what is kept are exactly the bytes in front of it, at least 253 of them. -/
theorem excerpt_shows_longest_beginning (body : Bytes) :
    (size (lossy body) ≤ 256 → excerpt body = String.ofList (lossy body)) ∧
    (256 < size (lossy body) →
      ∃ kept steps, excerpt body = String.ofList (kept ++ ['.', '.', '.']) ∧
        (kept <+: lossy body ∧ size kept ≤ 256 ∧
          ∀ p, p <+: lossy body → size p ≤ 256 → p <+: kept) ∧
        (lastBoundary (encode (lossy body)) 256 = 256 - steps ∧
          SearchStops (encode (lossy body)) 256 steps ∧ steps ≤ 3 ∧
          encode kept = (encode (lossy body)).take (256 - steps) ∧ 253 ≤ size kept)) := by
  generalize shown : lossy body = text
  constructor
  · intro short
    unfold excerpt
    rw [shown]
    exact if_pos short
  · intro long
    have atMost := lastBoundary_le (encode text) 256
    have near := lastBoundary_near (Nat.le_of_lt long)
    have search := searchStops_lastBoundary (encode text) 256
    -- the place that the search comes to is behind a beginning of the text
    obtain ⟨kept, begins, cut⟩ := isBoundary_encode_iff.1 search.stops
    rw [Nat.sub_sub_self atMost] at cut
    refine ⟨kept, _, ?_, ⟨begins, by omega, ?_⟩, by omega, search, by omega, ?_, by omega⟩
    · have cutBehind : ¬ size text ≤ excerptSize := Nat.not_le.2 long
      unfold excerpt
      dsimp only
      rw [shown, if_neg cutBehind]
      show String.ofList (takeBytes (lastBoundary (encode text) 256) text ++ _) = _
      rw [← cut, takeBytes_size begins]
    · -- a beginning that fits ends at a place between characters, and so not behind the last
      intro p prefix_ fits
      have place := isBoundary_encode_iff.2 ⟨p, prefix_, rfl⟩
      have notBehind := le_lastBoundary place fits
      rw [← cut] at notBehind
      exact prefix_of_size_le prefix_ begins notBehind
    · obtain ⟨rest, rfl⟩ := begins
      rw [Nat.sub_sub_self atMost, ← cut, encode_append, ← length_encode, List.take_left]

/-- So many ill-formed bytes that a cut at 256 bytes would fall into a character: every one of them
is shown as three bytes, and 85 of them fit. -/
example : excerpt (List.replicate 300 0xFF) =
    String.ofList (List.replicate 85 replacement ++ ['.', '.', '.']) := by decide +kernel

end BlockRelay
