/-!
# Pieces of a text

Lists in settings, labels of host names and segments of paths are pieces of a text between
separators. Main statement: pieces that hold no separator come back from the text in which they
are joined (`pieces_joined`).
-/

namespace BlockRelay.Text

/-- The pieces of a text between separators; one more than there are separators. -/
def pieces (separates : Char → Bool) : List Char → List (List Char)
  | [] => [[]]
  | c :: cs =>
    if separates c then [] :: pieces separates cs
    else match pieces separates cs with
      | [] => [[c]]
      | piece :: rest => (c :: piece) :: rest

/-- Pieces with a separator between them. -/
def joined (separator : List Char) : List (List Char) → List Char
  | [] => []
  | [piece] => piece
  | piece :: rest => piece ++ separator ++ joined separator rest

/-- Whether some characters stand next to each other in others. -/
def occursIn (part : List Char) : List Char → Bool
  | [] => part.isEmpty
  | c :: cs => part.isPrefixOf (c :: cs) || occursIn part cs

/-- Whether a text stands in another. -/
def holds (text part : String) : Bool := occursIn part.toList text.toList

@[simp] theorem pieces_nil (separates : Char → Bool) : pieces separates [] = [[]] := rfl

theorem pieces_cons_of_separates {separates : Char → Bool} {c : Char} (h : separates c = true)
    (cs : List Char) : pieces separates (c :: cs) = [] :: pieces separates cs := by
  simp [pieces, h]

theorem pieces_ne_nil (separates : Char → Bool) (cs : List Char) : pieces separates cs ≠ [] := by
  cases cs with
  | nil => simp
  | cons c cs =>
    unfold pieces
    split
    · simp
    · split <;> simp

/-- A text without a separator is the only piece, up to the next separator. -/
theorem pieces_append_cons {separates : Char → Bool} {piece : List Char}
    (h : ∀ c ∈ piece, separates c = false) {c : Char} (hc : separates c = true)
    (cs : List Char) : pieces separates (piece ++ c :: cs) = piece :: pieces separates cs := by
  induction piece with
  | nil => exact pieces_cons_of_separates hc cs
  | cons d piece ih =>
    have hd : separates d = false := h d List.mem_cons_self
    have ih := ih fun e he => h e (List.mem_cons_of_mem _ he)
    simp [pieces, hd, ih]

/-- A text without a separator is the only piece. -/
theorem pieces_eq_singleton {separates : Char → Bool} {piece : List Char}
    (h : ∀ c ∈ piece, separates c = false) : pieces separates piece = [piece] := by
  induction piece with
  | nil => rfl
  | cons d piece ih =>
    have hd : separates d = false := h d List.mem_cons_self
    have ih := ih fun e he => h e (List.mem_cons_of_mem _ he)
    simp [pieces, hd, ih]

/-- Pieces without a separator come back from the text in which they are joined. -/
theorem pieces_joined {separates : Char → Bool} {c : Char} (hc : separates c = true)
    {ps : List (List Char)} (hne : ps ≠ []) (h : ∀ p ∈ ps, ∀ d ∈ p, separates d = false) :
    pieces separates (joined [c] ps) = ps := by
  induction ps with
  | nil => exact absurd rfl hne
  | cons p ps ih =>
    have hp := h p List.mem_cons_self
    cases ps with
    | nil => exact pieces_eq_singleton hp
    | cons q qs =>
      have ih := ih (List.cons_ne_nil _ _) fun r hr => h r (List.mem_cons_of_mem _ hr)
      rw [joined, List.append_assoc, List.singleton_append, pieces_append_cons hp hc, ih]
      simp

end BlockRelay.Text
