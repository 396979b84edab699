import Mathlib.Data.List.Induction
import BlockRelay.Settings.Environment
import BlockRelay.Proofs.Hex.Spelling
import BlockRelay.Proofs.Json.Lists

/-!
# Lists in settings

A list of texts can be given plainly, with commas between them, or in brackets. Texts that need no
quotes (`Bare`) come back from the plain form as they were. From the bracketed form they come back
too, with one exception: closing brackets at the end of the last text are taken for those of the
list (`textList_bracketedList`). A list that is written as JSON always comes back
(`textList_render`).

Blanks around a piece never count, so it makes no difference that a bracketed list is trimmed once
more before it is cut into pieces (`map_trimmed_pieces`).
-/

namespace BlockRelay

namespace Text

variable {p separates : Char → Bool}

theorem trimmed_cons {c : Char} (hc : p c = true) (cs : List Char) :
    trimmed p (c :: cs) = trimmed p cs := by
  rw [trimmed, List.dropWhile_cons_of_pos hc, trimmed]

theorem trimmed_append_singleton {c : Char} (hc : p c = true) (cs : List Char) :
    trimmed p (cs ++ [c]) = trimmed p cs := by
  rw [trimmed, trimmed, List.dropWhile_append]
  split
  · next none_ =>
    rw [List.isEmpty_iff.1 none_, List.dropWhile_cons_of_pos hc]
    rfl
  · rw [dropEndWhile_append_singleton, if_pos hc]

/-- What stands in front of an end that is not cut off stays. -/
theorem dropEndWhile_append {as : List Char} (h : dropEndWhile p as = as) (bs : List Char) :
    dropEndWhile p (as ++ bs) = as ++ dropEndWhile p bs := by
  induction bs using List.reverseRecOn with
  | nil => rw [List.append_nil, h, dropEndWhile_nil, List.append_nil]
  | append_singleton bs c ih =>
    rw [← List.append_assoc, dropEndWhile_append_singleton, dropEndWhile_append_singleton]
    split
    · exact ih
    · rw [List.append_assoc]

/-- A character that separates nothing joins the piece behind it. -/
theorem exists_pieces_cons {c : Char} (hc : separates c = false) (cs : List Char) :
    ∃ q qs, pieces separates cs = q :: qs ∧ pieces separates (c :: cs) = (c :: q) :: qs := by
  obtain ⟨q, qs, split_⟩ := List.exists_cons_of_ne_nil (pieces_ne_nil separates cs)
  refine ⟨q, qs, split_, ?_⟩
  rw [pieces, if_neg (by rw [hc]; decide), split_]

/-- A character that separates nothing joins the piece in front of it. -/
theorem exists_pieces_append_singleton {c : Char} (hc : separates c = false) (cs : List Char) :
    ∃ ps q, pieces separates cs = ps ++ [q] ∧ pieces separates (cs ++ [c]) = ps ++ [q ++ [c]] := by
  induction cs with
  | nil => exact ⟨[], [], rfl, by rw [List.nil_append, pieces, if_neg (by rw [hc]; decide)]; rfl⟩
  | cons d cs ih =>
    obtain ⟨ps, q, alone, joined_⟩ := ih
    rw [List.cons_append]
    cases hd : separates d with
    -- the first character ends an empty piece
    | true =>
      refine ⟨[] :: ps, q, ?_, ?_⟩
      · rw [pieces_cons_of_separates hd, alone, List.cons_append]
      · rw [pieces_cons_of_separates hd, joined_, List.cons_append]
    | false =>
      obtain ⟨r, rs, split_, front⟩ := exists_pieces_cons hd cs
      obtain ⟨r', rs', split', front'⟩ := exists_pieces_cons hd (cs ++ [c])
      rw [alone] at split_
      rw [joined_] at split'
      rw [front, front']
      -- `d` joins the first piece, which may be the last one too
      cases ps with
      | nil =>
        cases split_
        cases split'
        exact ⟨[], d :: q, rfl, rfl⟩
      | cons first ps =>
        cases split_
        cases split'
        exact ⟨(d :: r) :: ps, q, rfl, rfl⟩

/-- Characters of the class in front of a text make no difference to its trimmed pieces. -/
theorem map_trimmed_pieces_append (h : ∀ c, p c = true → separates c = false) {gap : List Char}
    (blank : ∀ c ∈ gap, p c = true) (cs : List Char) :
    (pieces separates (gap ++ cs)).map (trimmed p) = (pieces separates cs).map (trimmed p) := by
  induction gap with
  | nil => rfl
  | cons c gap ih =>
    have hc : p c = true := blank c List.mem_cons_self
    have ih := ih fun d hd => blank d (List.mem_cons_of_mem c hd)
    obtain ⟨q, qs, split_, front⟩ := exists_pieces_cons (h c hc) (gap ++ cs)
    rw [List.cons_append, front, List.map_cons, trimmed_cons hc, ← List.map_cons, ← split_, ih]

/-- Characters of the class around a text make no difference to its trimmed pieces. -/
theorem map_trimmed_pieces (h : ∀ c, p c = true → separates c = false) (cs : List Char) :
    (pieces separates (trimmed p cs)).map (trimmed p) = (pieces separates cs).map (trimmed p) := by
  obtain ⟨before, after, whole, hbefore, hafter⟩ := exists_append_trimmed p cs
  -- blanks in front are dealt with above; here those behind are taken off one by one
  have behind : ∀ gap : List Char, (∀ c ∈ gap, p c = true) →
      (pieces separates (trimmed p cs ++ gap)).map (trimmed p) =
        (pieces separates (trimmed p cs)).map (trimmed p) := by
    intro gap
    induction gap using List.reverseRecOn with
    | nil =>
      intro _
      rw [List.append_nil]
    | append_singleton gap c ih =>
      intro blank
      have hc : p c = true := blank c (List.mem_append_right _ List.mem_cons_self)
      obtain ⟨ps, q, alone, joined_⟩ :=
        exists_pieces_append_singleton (h c hc) (trimmed p cs ++ gap)
      rw [← ih fun d hd => blank d (List.mem_append_left _ hd), ← List.append_assoc, joined_, alone,
        List.map_append, List.map_append, List.map_singleton, List.map_singleton,
        trimmed_append_singleton hc]
  -- the blanks behind are put back first, then those in front
  calc (pieces separates (trimmed p cs)).map (trimmed p)
      = (pieces separates (trimmed p cs ++ after)).map (trimmed p) := (behind after hafter).symm
    _ = (pieces separates (before ++ (trimmed p cs ++ after))).map (trimmed p) :=
        (map_trimmed_pieces_append h hbefore _).symm
    _ = (pieces separates cs).map (trimmed p) := by rw [← List.append_assoc, ← whole]

/-- A first character that is not of the class stays in front. -/
theorem exists_trimmed_cons {c : Char} (hc : p c = false) (cs : List Char) :
    ∃ r, trimmed p (c :: cs) = c :: r := by
  have kept : dropEndWhile p [c] = [c] := dropEndWhile_eq_self (by simp [hc])
  refine ⟨dropEndWhile p cs, ?_⟩
  rw [trimmed, List.dropWhile_cons_of_neg (by rw [hc]; decide), ← List.singleton_append,
    dropEndWhile_append kept, List.singleton_append]

theorem length_trimmed_le (p : Char → Bool) (cs : List Char) :
    (trimmed p cs).length ≤ cs.length := by
  obtain ⟨before, after, whole, -, -⟩ := exists_append_trimmed p cs
  have sum := congrArg List.length whole
  rw [List.length_append, List.length_append] at sum
  omega

theorem length_dropEndWhile_le (p : Char → Bool) (cs : List Char) :
    (dropEndWhile p cs).length ≤ cs.length := by
  have sum := congrArg List.length (dropEndWhile_append_takeWhile p cs)
  rw [List.length_append] at sum
  omega

end Text

/-! ### Pieces between commas -/

section CommaList

variable {f : List Char → List Char} {gap : List Char}

/-- No blank is a comma. -/
theorem comma_of_isBlank (c : Char) (h : Text.isBlank c = true) : decide (c = ',') = false := by
  rw [decide_eq_false_iff_not]
  rintro rfl
  exact absurd h (by decide)

theorem whole_of_comma {cs : List Char} (h : ',' ∉ cs) : ∀ c ∈ cs, decide (c = ',') = false := by
  intro c hc
  rw [decide_eq_false_iff_not]
  rintro rfl
  exact h hc

/-- A list depends on the trimmed pieces of its text, if its pieces are trimmed first. -/
theorem commaList_congr {cs ds : List Char}
    (h : (Text.pieces (· = ',') cs).map (Text.trimmed Text.isBlank) =
      (Text.pieces (· = ',') ds).map (Text.trimmed Text.isBlank)) :
    commaList (fun p => f (Text.trimmed Text.isBlank p)) cs =
      commaList (fun p => f (Text.trimmed Text.isBlank p)) ds := by
  have cleaned := congrArg (List.map f) h
  rw [List.map_map, List.map_map] at cleaned
  exact congrArg (fun ps => (ps.filter fun p => !p.isEmpty).map String.ofList) cleaned

/-- Pieces that are clean come first, whatever blanks stand behind their commas. -/
theorem commaList_append {front : List String} (blank : ∀ c ∈ gap, Text.isBlank c = true)
    (clean : ∀ s ∈ front,
      s ≠ "" ∧ ',' ∉ s.toList ∧ f (Text.trimmed Text.isBlank s.toList) = s.toList)
    (cs : List Char) :
    commaList (fun p => f (Text.trimmed Text.isBlank p))
        (front.flatMap (fun s => s.toList ++ ',' :: gap) ++ cs) =
      front ++ commaList (fun p => f (Text.trimmed Text.isBlank p)) cs := by
  induction front with
  | nil => rfl
  | cons s front ih =>
    -- the first text is a piece of its own; the blanks behind its comma go with the next
    obtain ⟨nonempty, comma, same⟩ := clean s List.mem_cons_self
    have ih := ih fun t ht => clean t (List.mem_cons_of_mem s ht)
    have visible : s.toList.isEmpty = false := by simpa using nonempty
    rw [List.flatMap_cons, List.append_assoc, List.append_assoc, List.cons_append, commaList,
      Text.pieces_append_cons (whole_of_comma comma) (decide_eq_true rfl), List.map_cons, same,
      List.filter_cons_of_pos (by simp [visible]), List.map_cons, String.ofList_toList, ← commaList,
      commaList_congr (Text.map_trimmed_pieces_append comma_of_isBlank blank _), ih,
      List.cons_append]

/-- A piece alone. -/
theorem commaList_singleton {cs : List Char} (comma : ',' ∉ cs) (clean : List Char → List Char) :
    commaList clean cs = if clean cs = [] then [] else [String.ofList (clean cs)] := by
  rw [commaList, Text.pieces_eq_singleton (whole_of_comma comma), List.map_singleton]
  split
  · next none_ => rw [none_]; rfl
  · next some_ =>
    rw [List.filter_cons_of_pos (by simpa using some_)]
    rfl

end CommaList

/-- Texts with a separator between them. -/
theorem toList_intercalate_append (sep : String) (front : List String) (last : String) :
    (sep.intercalate (front ++ [last])).toList =
      front.flatMap (fun s => s.toList ++ sep.toList) ++ last.toList := by
  rw [String.toList_intercalate]
  induction front with
  | nil => exact List.intercalate_singleton
  | cons s front ih =>
    -- something follows the first text, so a separator stands behind it
    obtain ⟨next_, rest, split_⟩ := List.exists_cons_of_ne_nil
      (List.append_ne_nil_of_right_ne_nil front (List.cons_ne_nil last []))
    rw [split_, List.map_cons] at ih
    rw [List.cons_append, split_, List.map_cons, List.map_cons, List.intercalate_cons_cons, ih,
      List.flatMap_cons, List.append_assoc (s.toList ++ _)]

/-! ### Texts that need no quotes -/

/-- **A text that needs no quotes in a list:** it is not empty and holds no comma, it has neither a
blank nor a quote at an end, and no bracket in front. -/
structure Bare (s : String) : Prop where
  nonempty : s ≠ ""
  comma : ',' ∉ s.toList
  ends : ∀ c, s.toList.head? = some c ∨ s.toList.getLast? = some c →
    Text.isBlank c = false ∧ c ≠ '"' ∧ c ≠ '\''
  bracket : s.toList.head? ≠ some '['

namespace Bare

variable {s last : String} {front : List String}

theorem trimmed (h : Bare s) : Text.trimmed Text.isBlank s.toList = s.toList :=
  Text.trimmed_eq_self (fun c hc => (h.ends c (.inl hc)).1) fun c hc => (h.ends c (.inr hc)).1

theorem unquoted (h : Bare s) {quote : Char} (hq : quote = '"' ∨ quote = '\'') :
    unquoted quote s.toList = s.toList := by
  -- neither end of a bare text is a quote, of either kind
  have other : ∀ c, s.toList.head? = some c ∨ s.toList.getLast? = some c →
      decide (c = quote) = false := by
    intro c hc
    rw [decide_eq_false_iff_not]
    rcases hq with rfl | rfl
    · exact (h.ends c hc).2.1
    · exact (h.ends c hc).2.2
  exact Text.trimmed_eq_self (fun c hc => other c (.inl hc)) fun c hc => other c (.inr hc)

/-- A list begins as its first text does. -/
theorem exists_cons (bare : ∀ s ∈ front ++ [last], Bare s) (separator : List Char) :
    ∃ c r, front.flatMap (fun s => s.toList ++ separator) ++ last.toList = c :: r ∧
      Text.isBlank c = false ∧ c ≠ '"' ∧ c ≠ '[' := by
  -- the list begins as its first text does, whichever that is
  have begins : ∀ s : String, Bare s → ∃ c r, s.toList = c :: r ∧
      Text.isBlank c = false ∧ c ≠ '"' ∧ c ≠ '[' := by
    intro s h
    have some_ : s.toList ≠ [] := by simpa using h.nonempty
    obtain ⟨c, r, hs⟩ := List.exists_cons_of_ne_nil some_
    have head : s.toList.head? = some c := by rw [hs, List.head?_cons]
    obtain ⟨visible, quote, -⟩ := h.ends c (.inl head)
    exact ⟨c, r, hs, visible, quote, fun e => h.bracket (by rw [head, e])⟩
  cases front with
  | nil => exact begins last (bare last (List.mem_singleton_self last))
  | cons s front =>
    obtain ⟨c, r, hs, rest⟩ := begins s (bare s List.mem_cons_self)
    refine ⟨c, r ++ separator ++ (front.flatMap (fun s => s.toList ++ separator) ++ last.toList),
      ?_, rest⟩
    rw [List.flatMap_cons, hs]
    simp only [List.cons_append, List.append_assoc]

end Bare

/-! ### The two forms of a list -/

/-- A list as it is given plainly. -/
def plainList (v : List String) : String := ",".intercalate v

/-- A list in brackets. -/
def bracketedList (v : List String) : String := "[" ++ ", ".intercalate v ++ "]"

/-- What a bracketed list leaves of its last text: closing brackets at its end are cut off, and
blanks and quotes that stand at an end then. -/
def leftOfLast (last : String) : Option String :=
  let left := unquoted '\'' (unquoted '"' (Text.trimmed Text.isBlank
    (Text.dropEndWhile (· = ']') last.toList)))
  if left = [] then none else some (String.ofList left)

variable {front : List String} {last : String}

/-- A text that does not begin with a bracket is a plain list. -/
theorem textList_of_head? {given : String}
    (h : (Text.trimmed Text.isBlank given.toList).head? ≠ some '[') :
    textList given =
      commaList (fun p => unquoted '"' (Text.trimmed Text.isBlank p)) given.toList := by
  rw [← commaList_congr (Text.map_trimmed_pieces comma_of_isBlank _), textList]
  split
  · next none_ => rw [none_]; rfl
  · next r some_ => rw [some_] at h; exact absurd rfl h
  · rfl

/-- **Texts that need no quotes come back from a plain list.** -/
theorem textList_plainList (bare : ∀ s ∈ front ++ [last], Bare s) :
    textList (plainList (front ++ [last])) = front ++ [last] := by
  have chars : (plainList (front ++ [last])).toList =
      front.flatMap (fun s => s.toList ++ [',']) ++ last.toList :=
    toList_intercalate_append "," front last
  -- taking blanks and quotes away leaves a bare text as it is
  have clean : ∀ s ∈ front ++ [last],
      unquoted '"' (Text.trimmed Text.isBlank s.toList) = s.toList := by
    intro s hs
    rw [(bare s hs).trimmed, (bare s hs).unquoted (.inl rfl)]
  have hlast : last ∈ front ++ [last] := List.mem_append_right _ (List.mem_singleton_self last)
  -- so it is not taken for a list in brackets, or for JSON
  have head :
      (Text.trimmed Text.isBlank (plainList (front ++ [last])).toList).head? ≠ some '[' := by
    obtain ⟨c, r, begins, visible, -, bracket⟩ := Bare.exists_cons bare [',']
    obtain ⟨r', kept⟩ := Text.exists_trimmed_cons visible r
    rw [chars, begins, kept, List.head?_cons]
    exact fun e => bracket (Option.some.inj e)
  have some_ : last.toList ≠ [] := by simpa using (bare last hlast).nonempty
  have blank : ∀ d ∈ ([] : List Char), Text.isBlank d = true := nofun
  rw [textList_of_head? head, chars, commaList_append (f := unquoted '"') blank]
  · rw [commaList_singleton (bare last hlast).comma, clean last hlast, if_neg some_,
      String.ofList_toList]
  · intro s hs
    have hs : s ∈ front ++ [last] := List.mem_append_left _ hs
    exact ⟨(bare s hs).nonempty, (bare s hs).comma, clean s hs⟩

/-- What JSON takes for a blank is one. -/
theorem isBlank_of_jsonBlank {c : Char} (h : Text.isBlank c = false) : Json.isBlank c = false := by
  rw [Bool.eq_false_iff] at h ⊢
  intro blank
  simp only [Json.isBlank, Bool.or_eq_true, decide_eq_true_eq] at blank
  rcases blank with ((rfl | rfl) | rfl) | rfl <;> exact h (by decide)

/-- Nothing is trimmed off a text in brackets. -/
theorem trimmed_brackets (inner : List Char) :
    Text.trimmed Text.isBlank ('[' :: (inner ++ [']'])) = '[' :: (inner ++ [']']) := by
  refine Text.trimmed_eq_self (fun c hc => ?_) fun c hc => ?_
  · cases hc
    decide
  · rw [← List.cons_append, List.getLast?_concat] at hc
    cases hc
    decide

/-- **A written list of texts comes back, whatever its texts are.** -/
theorem textList_render (texts : List String) :
    textList (Json.render (.arr (texts.map .str))) = texts := by
  obtain ⟨inner, chars⟩ := Json.exists_chars_arr (texts.map .str)
  have read := Json.texts_render texts
  rw [Json.render, chars] at read
  rw [textList, Json.render, String.toList_ofList, chars, trimmed_brackets, read]
  rfl

/-- A text in brackets that is no JSON. -/
theorem textList_of_brackets {given : String} {inner : List Char}
    (chars : given.toList = '[' :: (inner ++ [']']))
    (noJson : (Json.read? given).bind (Json.list? Json.text?) = none)
    (open_ : inner.head? ≠ some '[') :
    textList given =
      commaList (fun p => unquoted '\'' (unquoted '"' (Text.trimmed Text.isBlank p)))
        (Text.dropEndWhile (· = ']') inner) := by
  -- a single bracket is cut off in front, and at least one behind
  have opened : ('[' :: (inner ++ [']'])).dropWhile (· = '[') = inner ++ [']'] := by
    rw [List.dropWhile_cons_of_pos (by decide)]
    cases inner with
    | nil => rfl
    | cons d inner =>
      rw [List.cons_append, List.dropWhile_cons_of_neg]
      simpa using open_
  have closed : Text.dropEndWhile (· = ']') (inner ++ [']']) =
      Text.dropEndWhile (· = ']') inner := by
    rw [Text.dropEndWhile_append_singleton, if_pos (by decide)]
  rw [← String.ofList_toList (s := given), chars] at noJson
  rw [textList, chars, trimmed_brackets, noJson, bracketList, opened, closed]
  exact commaList_congr (f := fun p => unquoted '\'' (unquoted '"' p))
    (Text.map_trimmed_pieces comma_of_isBlank _)

/-- **From a bracketed list they come back except for the last,** of which only a part may be
left. -/
theorem textList_bracketedList (bare : ∀ s ∈ front ++ [last], Bare s) :
    textList (bracketedList (front ++ [last])) = front ++ (leftOfLast last).toList := by
  have hlast : last ∈ front ++ [last] := List.mem_append_right _ (List.mem_singleton_self last)
  obtain ⟨c, r, begins, visible, quote, bracket⟩ := Bare.exists_cons bare [',', ' ']
  have chars : (bracketedList (front ++ [last])).toList =
      '[' :: (front.flatMap (fun s => s.toList ++ [',', ' ']) ++ last.toList ++ [']']) := by
    rw [bracketedList, String.toList_append, String.toList_append, toList_intercalate_append]
    rfl
  -- the first text has no quotes, and JSON has no other texts
  have noJson : (Json.read? (bracketedList (front ++ [last]))).bind
      (Json.list? Json.text?) = none := by
    rw [← String.ofList_toList (s := bracketedList _), chars, begins, List.cons_append]
    exact Json.not_texts_of_unquoted (isBlank_of_jsonBlank visible) quote bracket fun _ =>
      ⟨']', List.mem_append_right _ (List.mem_singleton_self _), by decide⟩
  -- of the separators none ends in a bracket, so only the last text can lose one
  have spaced : Text.dropEndWhile (· = ']') (front.flatMap fun s => s.toList ++ [',', ' ']) =
      front.flatMap fun s => s.toList ++ [',', ' '] := by
    refine Text.dropEndWhile_eq_self fun d hd => ?_
    rcases List.eq_nil_or_concat front with rfl | ⟨front, s, rfl⟩
    · cases hd
    · rw [List.concat_eq_append, List.flatMap_append, List.flatMap_singleton,
        List.append_cons _ ',' [' '], ← List.append_assoc, List.getLast?_concat] at hd
      cases hd
      decide
  have clean : ∀ s ∈ front, s ≠ "" ∧ ',' ∉ s.toList ∧
      unquoted '\'' (unquoted '"' (Text.trimmed Text.isBlank s.toList)) = s.toList := by
    intro s hs
    have h : Bare s := bare s (List.mem_append_left _ hs)
    refine ⟨h.nonempty, h.comma, ?_⟩
    rw [h.trimmed, h.unquoted (.inl rfl), h.unquoted (.inr rfl)]
  have comma : ',' ∉ Text.dropEndWhile (· = ']') last.toList := by
    intro inside
    refine (bare last hlast).comma ?_
    rw [← Text.dropEndWhile_append_takeWhile (· = ']') last.toList]
    exact List.mem_append_left _ inside
  have blank : ∀ d ∈ [' '], Text.isBlank d = true := by simp; decide
  rw [textList_of_brackets chars noJson]
  · rw [Text.dropEndWhile_append spaced,
      commaList_append (f := fun p => unquoted '\'' (unquoted '"' p)) blank clean,
      commaList_singleton comma, leftOfLast]
    split
    · rfl
    · rfl
  · rw [begins, List.head?_cons]
    exact fun e => bracket (Option.some.inj e)

/-- Nothing is cut off a last text if and only if it does not end with a closing bracket. -/
theorem leftOfLast_eq_self_iff (h : Bare last) :
    leftOfLast last = some last ↔ last.toList.getLast? ≠ some ']' := by
  have some_ : last.toList ≠ [] := by simpa using h.nonempty
  constructor
  · -- with a bracket less, no later step makes up for it
    intro kept ends
    obtain ⟨cs, hlast⟩ := List.getLast?_eq_some_iff.1 ends
    rw [leftOfLast] at kept
    split at kept
    · cases kept
    · have same := congrArg String.toList (Option.some.inj kept)
      rw [String.toList_ofList, hlast, Text.dropEndWhile_append_singleton,
        if_pos (by decide)] at same
      have shorter : cs.length < (cs ++ [']']).length := by simp
      rw [← same] at shorter
      have length : (unquoted '\'' (unquoted '"' (Text.trimmed Text.isBlank
          (Text.dropEndWhile (· = ']') cs)))).length ≤ cs.length :=
        calc _ ≤ _ := Text.length_trimmed_le _ _
          _ ≤ _ := Text.length_trimmed_le _ _
          _ ≤ _ := Text.length_trimmed_le _ _
          _ ≤ _ := Text.length_dropEndWhile_le _ _
      omega
  · -- without a bracket at the end there is nothing to drop
    intro ends
    have whole : Text.dropEndWhile (· = ']') last.toList = last.toList := by
      refine Text.dropEndWhile_eq_self fun d hd => ?_
      rw [decide_eq_false_iff_not]
      rintro rfl
      exact ends hd
    rw [leftOfLast, whole, h.trimmed, h.unquoted (.inl rfl), h.unquoted (.inr rfl), if_neg some_,
      String.ofList_toList]

/-- A text is bare where its two ends are known. -/
theorem Bare.of_ends {s : String} {c d : Char} (comma : ',' ∉ s.toList)
    (first : s.toList.head? = some c) (last : s.toList.getLast? = some d)
    (plainFirst : Text.isBlank c = false ∧ c ≠ '"' ∧ c ≠ '\'')
    (plainLast : Text.isBlank d = false ∧ d ≠ '"' ∧ d ≠ '\'') (bracket : c ≠ '[') : Bare s where
  nonempty := by
    rintro rfl
    cases first
  comma := comma
  ends := by
    -- the first character, or the last one
    rintro e (h | h)
    · rw [first] at h
      cases h
      exact plainFirst
    · rw [last] at h
      cases h
      exact plainLast
  bracket := by
    rw [first]
    exact fun h => bracket (Option.some.inj h)

theorem bare_ipv6 : Bare "http://[::1]" :=
  .of_ends (c := 'h') (d := ']') (by decide) rfl (by decide) (by decide) (by decide) (by decide)

theorem bare_ipv6_port : Bare "http://[::1]:5052" :=
  .of_ends (c := 'h') (d := '2') (by decide) rfl (by decide) (by decide) (by decide) (by decide)

/-- **The two forms of a list.** Texts that need no quotes come back from the plain form. From the
bracketed form all but the last come back, and the last does if and only if it does not end with a
closing bracket itself. -/
theorem lists_come_back_iff {v : List String} (some_ : v ≠ []) (bare : ∀ s ∈ v, Bare s) :
    textList (plainList v) = v ∧
    textList (bracketedList v) = v.dropLast ++ (leftOfLast (v.getLast some_)).toList ∧
    (textList (bracketedList v) = textList (plainList v) ↔
      (v.getLast some_).toList.getLast? ≠ some ']') := by
  obtain rfl | ⟨front, last, rfl⟩ := List.eq_nil_or_concat' v
  · exact absurd rfl some_
  rw [List.dropLast_concat, List.getLast_concat, textList_plainList bare,
    textList_bracketedList bare]
  refine ⟨rfl, rfl, ?_⟩
  -- the two readings differ in the last text only
  calc front ++ (leftOfLast last).toList = front ++ [last]
      ↔ (leftOfLast last).toList = [last] := List.append_right_inj front
    _ ↔ leftOfLast last = some last := Option.toList_eq_singleton_iff
    _ ↔ last.toList.getLast? ≠ some ']' :=
        leftOfLast_eq_self_iff (bare last (List.mem_append_right _ (List.mem_singleton_self last)))

/-- Brackets of a host at the end of a text count as its own, unless the text is the last. -/
theorem lists_come_back_ipv6 :
    (∀ s ∈ ["http://[::1]", "http://[::1]:5052"], Bare s) ∧
    textList (plainList ["http://[::1]", "http://[::1]:5052"]) =
      ["http://[::1]", "http://[::1]:5052"] ∧
    textList (bracketedList ["http://[::1]", "http://[::1]:5052"]) =
      ["http://[::1]", "http://[::1]:5052"] ∧
    textList (bracketedList ["http://[::1]:5052", "http://[::1]"]) =
      ["http://[::1]:5052", "http://[::1"] := by
  have bare : ∀ s ∈ ["http://[::1]", "http://[::1]:5052"], Bare s := by
    simp [bare_ipv6, bare_ipv6_port]
  have swapped : ∀ s ∈ ["http://[::1]:5052", "http://[::1]"], Bare s := by
    simp [bare_ipv6, bare_ipv6_port]
  have kept := lists_come_back_iff (List.cons_ne_nil _ _) bare
  have lost := lists_come_back_iff (List.cons_ne_nil _ _) swapped
  refine ⟨bare, kept.1, ?_, ?_⟩
  · rw [kept.2.2.2 (by decide), kept.1]
  · -- in the other order the last address loses its bracket
    rw [lost.2.1]
    decide

/-- The two forms of a list do not always agree: of a list that ends with an IPv6 host, the
bracketed form loses the bracket of the host. -/
theorem not_lists_agree :
    ¬ ∀ v : List String, v ≠ [] → (∀ s ∈ v, Bare s) →
      textList (bracketedList v) = textList (plainList v) ∧ textList (plainList v) = v := by
  intro agree
  have bare : ∀ s ∈ [] ++ ["http://[::1]"], Bare s := by simp [bare_ipv6]
  obtain ⟨same, plain⟩ := agree ["http://[::1]"] (List.cons_ne_nil _ _) bare
  -- one address is enough
  have bracketed : textList (bracketedList ["http://[::1]"]) = ["http://[::1"] := by
    have left : leftOfLast "http://[::1]" = some "http://[::1" := by decide
    have shortened := textList_bracketedList bare
    rw [left] at shortened
    exact shortened
  rw [plain, bracketed] at same
  exact absurd same (by decide)

end BlockRelay
