import Mathlib.Data.List.Forall2
import BlockRelay.Url.Host

/-!
# Domain names in ASCII form

A name that was read from an address is read once more from the text of that address, and has to
come out as it is. It does by the laws of namings (`Naming.Lawful`): a name in ASCII form is its own
form (`asciiDomain?_of_eq_some`), and so is a plain name in small letters (`asciiDomain?_of_plain`).
The laws can be met: `Naming.plain_lawful`.
-/

namespace BlockRelay

/-! ### Pieces -/

namespace Text

variable {separates : Char → Bool}

/-- A piece has characters of the text, and none of them separates. -/
theorem mem_of_mem_pieces {piece cs : List Char} (h : piece ∈ pieces separates cs) :
    ∀ c ∈ piece, c ∈ cs ∧ separates c = false := by
  induction cs generalizing piece with
  | nil =>
    rw [List.mem_singleton.1 h]
    intro c hc
    cases hc
  | cons d cs ih =>
    -- a character of the rest is one of the whole text
    have later {piece : List Char} (h : piece ∈ pieces separates cs) :
        ∀ c ∈ piece, c ∈ d :: cs ∧ separates c = false :=
      fun c hc => ⟨List.mem_cons_of_mem d (ih h c hc).1, (ih h c hc).2⟩
    -- the first character ends a piece, or belongs to the first one
    by_cases hd : separates d = true
    · rw [pieces_cons_of_separates hd] at h
      cases h with
      | head =>
        intro c hc
        cases hc
      | tail _ h => exact later h
    · obtain ⟨first, rest, split_⟩ := List.exists_cons_of_ne_nil (pieces_ne_nil separates cs)
      rw [pieces, if_neg hd, split_] at h
      rw [split_] at later
      cases h with
      | head =>
        intro c hc
        cases hc with
        | head => exact ⟨List.mem_cons_self, Bool.eq_false_iff.2 hd⟩
        | tail _ hc => exact later List.mem_cons_self c hc
      | tail _ h => exact later (List.mem_cons_of_mem first h)

theorem joined_cons_cons (separator p q : List Char) (ps : List (List Char)) :
    joined separator (p :: q :: ps) = p ++ separator ++ joined separator (q :: ps) := rfl

/-- Characters that stay what they are, separators or not, leave the pieces where they are. -/
theorem pieces_map {f : Char → Char} {cs : List Char}
    (same : ∀ c ∈ cs, separates (f c) = separates c) :
    pieces separates (cs.map f) = (pieces separates cs).map (List.map f) := by
  induction cs with
  | nil => rfl
  | cons c cs ih =>
    have first := same c List.mem_cons_self
    have ih := ih fun d hd => same d (List.mem_cons_of_mem c hd)
    rw [List.map_cons]
    -- separators stay separators, and no other character becomes one
    by_cases hc : separates c = true
    · rw [pieces_cons_of_separates (first.trans hc), pieces_cons_of_separates hc, ih]
      rfl
    · obtain ⟨piece, rest, split_⟩ := List.exists_cons_of_ne_nil (pieces_ne_nil separates cs)
      rw [pieces, if_neg (first ▸ hc), pieces, if_neg hc, ih, split_]
      rfl

/-- The characters of joined pieces. -/
theorem mem_joined {c d : Char} {ps : List (List Char)} (h : c ∈ joined [d] ps) :
    c = d ∨ ∃ p ∈ ps, c ∈ p := by
  induction ps with
  | nil => cases h
  | cons p ps ih =>
    cases ps with
    | nil => exact .inr ⟨p, List.mem_cons_self, h⟩
    | cons q ps =>
      rw [joined_cons_cons, List.append_assoc, List.singleton_append] at h
      -- in the first piece, in the separator, or further on
      rcases List.mem_append.1 h with h | h
      · exact .inr ⟨p, List.mem_cons_self, h⟩
      rcases List.mem_cons.1 h with h | h
      · exact .inl h
      · exact (ih h).imp_right fun ⟨r, hr, hc⟩ => ⟨r, List.mem_cons_of_mem p hr, hc⟩

end Text

namespace Url

/-- A function that fails has results for a list if it has one for every member. -/
theorem mapM_eq_some_iff {α β : Type} {f : α → Option β} {as : List α} {bs : List β} :
    as.mapM f = some bs ↔ List.Forall₂ (fun a b => f a = some b) as bs := by
  induction as generalizing bs with
  | nil =>
    rw [List.mapM_nil, List.forall₂_nil_left_iff]
    exact Option.some_inj.trans eq_comm
  -- the first is read, and then the others
  | cons a as ih =>
    rw [List.mapM_cons, List.forall₂_cons_left_iff]
    constructor
    · intro h
      obtain ⟨b, hb, h⟩ := Option.bind_eq_some_iff.1 h
      obtain ⟨cs, hcs, h⟩ := Option.bind_eq_some_iff.1 h
      exact ⟨b, cs, hb, ih.1 hcs, (Option.some.inj h).symm⟩
    · rintro ⟨b, cs, hb, hcs, rfl⟩
      rw [hb, ih.2 hcs]
      rfl

/-- Every result is that of a member. -/
theorem exists_mem_of_mapM {α β : Type} {f : α → Option β} {as : List α} {bs : List β}
    (h : as.mapM f = some bs) {b : β} (hb : b ∈ bs) : ∃ a ∈ as, f a = some b := by
  -- results stand where what they came from stands
  induction mapM_eq_some_iff.1 h with
  | nil => cases hb
  | cons first rest ih =>
    cases hb with
    | head => exact ⟨_, List.mem_cons_self, first⟩
    | tail _ hb =>
      obtain ⟨a, ha, result⟩ := ih (mapM_eq_some_iff.2 rest) hb
      exact ⟨a, List.mem_cons_of_mem _ ha, result⟩

/-! ### Names -/

/-- What holds of all ASCII characters is checked for each of them. -/
theorem ascii_forall (p : Char → Bool) (h : ∀ n < 0x80, p (Char.ofNat n) = true) {c : Char}
    (ascii : c.toNat < 0x80) : p c = true := by
  have checked := h c.toNat ascii
  rwa [Char.ofNat_toNat] at checked

section

variable {name : List Char}

theorem isPlainName_iff : isPlainName name = true ↔
    (∀ c ∈ name, c.toNat < 0x80) ∧ ∀ l ∈ Text.pieces (· = '.') name, isMarked l = false := by
  simp only [isPlainName, Bool.and_eq_true, List.all_eq_true, decide_eq_true_eq,
    Bool.not_eq_true']

/-- Small letters are not changed by putting them into small letters. -/
theorem map_toLower_map_toLower (ascii : ∀ c ∈ name, c.toNat < 0x80) :
    (name.map Char.toLower).map Char.toLower = name.map Char.toLower := by
  rw [List.map_map]
  exact List.map_congr_left fun c hc =>
    of_decide_eq_true
      (ascii_forall (fun c => c.toLower.toLower = c.toLower) (by decide) (ascii c hc))

/-- **A plain name in small letters is plain,** since marks are marks in capitals, too. -/
theorem isPlainName_toLower (plain : isPlainName name = true) :
    isPlainName (name.map Char.toLower) = true := by
  obtain ⟨ascii, unmarked⟩ := isPlainName_iff.1 plain
  refine isPlainName_iff.2 ⟨fun c hc => ?_, fun l hl => ?_⟩
  · obtain ⟨d, hd, rfl⟩ := List.mem_map.1 hc
    exact of_decide_eq_true
      (ascii_forall (fun c => c.toLower.toNat < 0x80) (by decide) (ascii d hd))
  · -- no dot appears and none is lost, so that the labels are those of the name in small letters
    have dots : ∀ c ∈ name, decide (c.toLower = '.') = decide (c = '.') := fun c hc =>
      eq_of_beq (ascii_forall (fun c => decide (c.toLower = '.') == decide (c = '.'))
        (by decide) (ascii c hc))
    rw [Text.pieces_map dots] at hl
    obtain ⟨label, mem, rfl⟩ := List.mem_map.1 hl
    have small : ((label.take 4).map Char.toLower).map Char.toLower =
        (label.take 4).map Char.toLower :=
      map_toLower_map_toLower fun c hc =>
        ascii c (Text.mem_of_mem_pieces mem c (List.mem_of_mem_take hc)).1
    rw [← unmarked label mem, isMarked, isMarked, ← List.map_take, small]

variable {out : List Char}

theorem Naming.plain_eq_some_iff : Naming.plain.ascii? name = some out ↔
    isPlainName name = true ∧ name.map Char.toLower = out :=
  Option.ite_none_right_eq_some.trans (and_congr_right' Option.some_inj)

/-- **The laws are met** where only plain names are known. -/
theorem Naming.plain_lawful : Naming.plain.Lawful where
  plain _ plain := if_pos plain
  fixed name out h := by
    obtain ⟨plain, rfl⟩ := Naming.plain_eq_some_iff.1 h
    exact Naming.plain_eq_some_iff.2 ⟨isPlainName_toLower plain,
      map_toLower_map_toLower (isPlainName_iff.1 plain).1⟩

variable {naming : Naming}

/-- A domain is written in ASCII if the name is and nothing forbidden comes out. -/
theorem asciiDomain?_eq_some_iff : asciiDomain? naming name = some out ↔
    naming.ascii? name = some out ∧ ∀ c ∈ out, isForbiddenInDomain c = false := by
  rw [asciiDomain?, Option.filter_eq_some_iff]
  simp only [Bool.not_eq_true', List.any_eq_false, Bool.not_eq_true]

/-- **A name in ASCII form is its own form.** -/
theorem asciiDomain?_of_eq_some (lawful : naming.Lawful) (h : asciiDomain? naming name = some out) :
    asciiDomain? naming out = some out := by
  obtain ⟨formed, allowed⟩ := asciiDomain?_eq_some_iff.1 h
  exact asciiDomain?_eq_some_iff.2 ⟨lawful.fixed name out formed, allowed⟩

/-- **A plain name in small letters** is its own form, too. -/
theorem asciiDomain?_of_plain (lawful : naming.Lawful) (plain : isPlainName name = true)
    (small : name.map Char.toLower = name) (allowed : ∀ c ∈ name, isForbiddenInDomain c = false) :
    asciiDomain? naming name = some name :=
  asciiDomain?_eq_some_iff.2 ⟨(lawful.plain name plain).trans (congrArg some small), allowed⟩

end

end Url

end BlockRelay
