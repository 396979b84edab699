import BlockRelay.Json.Printer

/-!
# Scanning written tokens

Tokens are written one after the other without anything between them, so the scanner has to find
every border again. Signs and strings end where they end. A word ends at the first symbol that is
no word character, hence a word may not be followed by another one; `Spaced` says that of a list
of tokens, together with what makes a single token writable (`Token.Writable`).

* `pieces?_escaped` — the escape of a character is read as that character, whatever it is;
* `scanFrom_token` — one written token is scanned as that token, if what follows does not
  extend it;
* `scan_spelled` — a spaced list of tokens is what is scanned from its characters.
-/

namespace BlockRelay.Json

/-! ### Strings -/

/-- The digit of a number below sixteen stands for that number. -/
theorem hexValue?_digitChar {d : Nat} (h : d < 16) : hexValue? (Nat.digitChar d) = some d := by
  have all : ∀ d < 16, hexValue? (Nat.digitChar d) = some d := by decide
  exact all d h

/-- The escape of a control character without a letter of its own. -/
theorem escape?_unit {c : Char} (h : c.toNat < 0x20) (r : List Symbol) :
    escape? (some 'u' :: some '0' :: some '0' :: some (Nat.digitChar (c.toNat / 16)) ::
      some (Nat.digitChar (c.toNat % 16)) :: r) = some (.char c, r) := by
  have hi := hexValue?_digitChar (d := c.toNat / 16) (by omega)
  have lo := hexValue?_digitChar (d := c.toNat % 16) (by omega)
  have zero : hexValue? '0' = some 0 := by decide
  have sum : 16 * (c.toNat / 16) + c.toNat % 16 = c.toNat := by omega
  -- a control is no half of a pair, so nothing has to follow it
  have half : ¬ (0xD800 ≤ c.toNat ∧ c.toNat ≤ 0xDFFF) := by omega
  simp [escape?, unit?, hi, lo, zero, sum, Piece.ofUnit, half, Char.ofNat_toNat]

/-- A backslash and what belongs to it are one piece. -/
theorem pieces?_backslash {r r' : List Symbol} {p : Piece} (h : escape? r = some (p, r'))
    (done : List Piece) : pieces? (some '\\' :: r) done = pieces? r' (p :: done) := by
  rw [pieces?, if_neg (by decide), if_pos rfl]
  split
  · next hn => rw [hn] at h; cases h
  · next hs =>
    rw [hs] at h
    cases h
    rfl

/-- The letters after a backslash stand for the character that was escaped. -/
theorem pieces?_short {c e : Char} (hu : e ≠ 'u') (h : shortEscape? e = some c) (r : List Symbol)
    (done : List Piece) :
    pieces? (some '\\' :: some e :: r) done = pieces? r (.char c :: done) := by
  refine pieces?_backslash ?_ done
  unfold escape?
  -- the escape is not the one with four digits, so it is looked up in the short table
  split
  · next he => cases he; exact absurd rfl hu
  · next c' r' he =>
    simp only [List.cons.injEq, Option.some.injEq] at he
    obtain ⟨rfl, rfl⟩ := he
    rw [h]
    rfl
  · next hne => exact absurd rfl (hne e r)

/-- **The escape of a character is read as that character.** -/
theorem pieces?_escaped (c : Char) (r : List Symbol) (done : List Piece) :
    pieces? ((escaped c).map some ++ r) done = pieces? r (.char c :: done) := by
  unfold escaped
  -- the quote, the backslash and the five controls with a letter of their own
  iterate 7
    split
    · next h =>
      subst h
      exact pieces?_short (by decide) (by decide) r done
  split
  · -- the other controls
    next h => exact pieces?_backslash (escape?_unit h r) done
  · -- the character stands for itself: no quote, no backslash and no control
    next hq hb _ _ _ _ _ hc =>
    rw [List.map_cons, List.map_nil, List.cons_append, List.nil_append, pieces?, if_neg hq,
      if_neg hb, if_neg hc]

/-- The escapes of a text are read one after the other, up to the quote that ends the string. -/
theorem pieces?_flatMap_escaped (s : List Char) (r : List Symbol) (done : List Piece) :
    pieces? ((s.flatMap escaped).map some ++ some '"' :: r) done =
      some (done.reverse ++ s.map .char, r) := by
  -- the pieces read so far are kept, the last one first
  induction s generalizing done with
  | nil =>
    rw [List.flatMap_nil, List.map_nil, List.nil_append, pieces?, if_pos rfl, List.map_nil,
      List.append_nil]
  | cons c s ih =>
    calc pieces? (((c :: s).flatMap escaped).map some ++ some '"' :: r) done
        = pieces? ((escaped c).map some ++ ((s.flatMap escaped).map some ++ some '"' :: r))
            done := by
          rw [List.flatMap_cons, List.map_append, List.append_assoc]
      _ = pieces? ((s.flatMap escaped).map some ++ some '"' :: r) (.char c :: done) :=
          pieces?_escaped c _ done
      _ = some ((Piece.char c :: done).reverse ++ s.map .char, r) := ih (.char c :: done)
      _ = some (done.reverse ++ (c :: s).map .char, r) := by
          rw [List.reverse_cons, List.append_assoc, List.map_cons, List.singleton_append]

/-- Pieces that are characters make a text: no half of a pair is left over. -/
theorem joinPieces_map_char (s : List Char) : joinPieces (s.map .char) = some s := by
  induction s with
  | nil => rfl
  | cons c s ih => rw [List.map_cons, joinPieces, ih, Option.map_some]

/-! ### Tokens -/

/-- Whether a token is a word. -/
def Token.isWord : Token → Bool
  | .word _ => true
  | _ => false

/-- What can be written so that it is scanned again: a string with a text, a word of word
characters that is not empty, and every sign. -/
def Token.Writable : Token → Prop
  | .text s => ∃ cs, s = some cs
  | .word w => w ≠ [] ∧ ∀ c ∈ w, isWordChar c = true
  | _ => True

/-- The first symbol is no word character, so a word in front of it ends there. -/
def EndsWord (r : List Symbol) : Prop := ∀ x, r.head? = some x → isWordSymbol x = false

/-- No character of a word is a blank, so the scanner does not skip it. -/
theorem not_isBlank_of_isWordChar {c : Char} (h : isWordChar c = true) : isBlank c = false := by
  rw [Bool.eq_false_iff]
  intro hb
  simp only [isBlank, Bool.or_eq_true, decide_eq_true_eq] at hb
  rcases hb with ((rfl | rfl) | rfl) | rfl <;> exact absurd h (by decide)

/-- A word is scanned as a whole. -/
theorem scanFrom_word {w : List Char} (hw : w ≠ []) (h : ∀ c ∈ w, isWordChar c = true)
    {r : List Symbol} (hr : EndsWord r) (done : List Token) :
    scanFrom (w.map some ++ r) done = scanFrom r (.word w :: done) := by
  cases w with
  | nil => exact absurd rfl hw
  | cons c cs =>
    have hc : isWordChar c = true := h c List.mem_cons_self
    have hq : ¬ c = '"' := by
      rintro rfl
      exact absurd hc (by decide)
    have all : ∀ x ∈ cs.map some, isWordSymbol x = true := by
      intro x hx
      obtain ⟨d, hd, rfl⟩ := List.mem_map.1 hx
      exact h d (List.mem_cons_of_mem _ hd)
    -- what follows does not extend the word
    have rest : r.takeWhile isWordSymbol = [] ∧ r.dropWhile isWordSymbol = r := by
      cases r with
      | nil => exact ⟨rfl, rfl⟩
      | cons x r => simp [hr x rfl]
    have hblank : ¬ isBlank c = true := by rw [not_isBlank_of_isWordChar hc]; decide
    rw [List.map_cons, List.cons_append, scanFrom, if_neg hblank, if_neg hq, if_pos hc,
      List.takeWhile_append_of_pos all, List.dropWhile_append_of_pos all, rest.1, rest.2,
      List.append_nil]
    simp

/-- A string is scanned as its text. -/
theorem scanFrom_quoted (s : List Char) (r : List Symbol) (done : List Token) :
    scanFrom ((quoted s).map some ++ r) done = scanFrom r (.text (some s) :: done) := by
  have hp := pieces?_flatMap_escaped s r []
  have split_ : (quoted s).map some ++ r =
      some '"' :: ((s.flatMap escaped).map some ++ some '"' :: r) := by simp [quoted]
  -- behind the opening quote come the escapes and the closing quote
  rw [split_, scanFrom, if_neg (by decide), if_pos rfl]
  split
  · next hn => rw [hn] at hp; cases hp
  · next hs =>
    rw [hs] at hp
    cases hp
    rw [List.reverse_nil, List.nil_append, joinPieces_map_char]

/-- A sign is scanned as itself. -/
theorem scanFrom_sign {c : Char} {t : Token} (h : Token.sign? c = some t)
    (hc : isBlank c = false ∧ c ≠ '"' ∧ isWordChar c = false) (r : List Symbol)
    (done : List Token) : scanFrom (some c :: r) done = scanFrom r (t :: done) := by
  -- a sign is none of what the scanner looks for first
  rw [scanFrom, if_neg (by simp [hc.1]), if_neg hc.2.1, if_neg (by simp [hc.2.2])]
  split
  · next hn => rw [hn] at h; cases h
  · next hs =>
    rw [hs] at h
    cases h
    rfl

/-- **A written token is scanned as that token,** whatever follows it; after a word something has
to follow that does not extend it. -/
theorem scanFrom_token {t : Token} (ht : t.Writable) {r : List Symbol}
    (hr : t.isWord = true → EndsWord r) (done : List Token) :
    scanFrom (t.chars.map some ++ r) done = scanFrom r (t :: done) := by
  -- a sign and a string end where they end; only a word depends on what follows
  cases t with
  | beginArray => exact scanFrom_sign rfl (by decide) r done
  | endArray => exact scanFrom_sign rfl (by decide) r done
  | beginObject => exact scanFrom_sign rfl (by decide) r done
  | endObject => exact scanFrom_sign rfl (by decide) r done
  | comma => exact scanFrom_sign rfl (by decide) r done
  | colon => exact scanFrom_sign rfl (by decide) r done
  | text s =>
    obtain ⟨cs, rfl⟩ := ht
    exact scanFrom_quoted cs r done
  | word w => exact scanFrom_word ht.1 ht.2 (hr rfl) done

/-! ### Lists of tokens -/

/-- Every token can be written, and no word stands right in front of another one. -/
def Spaced : List Token → Prop
  | [] => True
  | t :: ts => t.Writable ∧ (t.isWord = true → ∀ u, ts.head? = some u → u.isWord = false) ∧
      Spaced ts

/-- A sign or a string in front keeps a list spaced. -/
theorem Spaced.cons {t : Token} {ts : List Token} (ht : t.Writable) (hw : t.isWord = false)
    (h : Spaced ts) : Spaced (t :: ts) := by
  refine ⟨ht, fun hword => ?_, h⟩
  rw [hw] at hword
  cases hword

/-- Spaced lists can be joined where the second does not begin with a word. -/
theorem Spaced.append {ts us : List Token} (ht : Spaced ts) (hu : Spaced us)
    (hw : ∀ u, us.head? = some u → u.isWord = false) : Spaced (ts ++ us) := by
  induction ts with
  | nil => exact hu
  | cons t ts ih =>
    refine ⟨ht.1, fun hword u hhead => ?_, ih ht.2.2⟩
    -- the token behind `t` is in the first list, or it is the first of the second
    cases ts with
    | nil => exact hw u hhead
    | cons t' ts => exact ht.2.1 hword u hhead

/-- The symbols of tokens written one after the other. -/
def spelled (ts : List Token) : List Symbol := (ts.flatMap Token.chars).map some

/-- What is written of a token that is no word does not extend a word in front of it. -/
theorem endsWord_spelled_append {t : Token} (h : t.isWord = false) (ts : List Token)
    (r : List Symbol) : EndsWord (spelled (t :: ts) ++ r) := by
  intro x hx
  cases t with
  | word w => cases h
  | text s => cases hx; rfl
  | _ => cases hx; rfl

/-- Spaced tokens are scanned as they were written, whatever follows them; after a last word
something has to follow that does not extend it. -/
theorem scanFrom_spelled_append {ts : List Token} (h : Spaced ts) {r : List Symbol}
    (hr : ∀ t, ts.getLast? = some t → t.isWord = true → EndsWord r) (done : List Token) :
    scanFrom (spelled ts ++ r) done = scanFrom r (ts.reverse ++ done) := by
  induction ts generalizing done with
  | nil => rfl
  | cons t ts ih =>
    -- only the end of a word depends on what follows
    have follows : t.isWord = true → EndsWord (spelled ts ++ r) := by
      intro hword
      cases ts with
      | nil => exact hr t rfl hword
      | cons u us => exact endsWord_spelled_append (h.2.1 hword u rfl) us r
    have last : ∀ u, ts.getLast? = some u → u.isWord = true → EndsWord r := by
      intro u hu
      refine hr u ?_
      rw [List.getLast?_cons, hu, Option.getD_some]
    have split_ : spelled (t :: ts) ++ r = t.chars.map some ++ (spelled ts ++ r) := by
      simp [spelled]
    calc scanFrom (spelled (t :: ts) ++ r) done
        = scanFrom (t.chars.map some ++ (spelled ts ++ r)) done := by rw [split_]
      _ = scanFrom (spelled ts ++ r) (t :: done) := scanFrom_token h.1 follows done
      _ = scanFrom r (ts.reverse ++ t :: done) := ih h.2.2 last (t :: done)
      _ = scanFrom r ((t :: ts).reverse ++ done) := by
          rw [List.reverse_cons, List.append_assoc, List.singleton_append]

/-- At the end of a text every spaced list is scanned, also one that ends in a word. -/
theorem scanFrom_spelled {ts : List Token} (h : Spaced ts) (done : List Token) :
    scanFrom (spelled ts) done = some (ts.reverse ++ done) := by
  have nothing : EndsWord [] := by
    intro x hx
    cases hx
  have scanned := scanFrom_spelled_append h (fun _ _ _ => nothing) done
  rw [List.append_nil] at scanned
  rw [scanned, scanFrom]

/-- Blanks between tokens do not count. -/
theorem scanFrom_blanks {gap : List Char} (blank : ∀ c ∈ gap, isBlank c = true) (r : List Symbol)
    (done : List Token) : scanFrom (gap.map some ++ r) done = scanFrom r done := by
  induction gap with
  | nil => rfl
  | cons c gap ih =>
    rw [List.map_cons, List.cons_append, scanFrom, if_pos (blank c List.mem_cons_self)]
    exact ih fun c hc => blank c (List.mem_cons_of_mem _ hc)

/-- **Spaced tokens are scanned as they were written.** -/
theorem scan_spelled {ts : List Token} (h : Spaced ts) : scan (spelled ts) = some ts := by
  rw [scan, scanFrom_spelled h, Option.map_some, List.append_nil, List.reverse_reverse]

/-- Blanks between two lists of tokens leave no trace. -/
theorem scan_gap {ts us : List Token} {gap : List Char} (ht : Spaced ts) (hu : Spaced us)
    (hlast : ∀ t, ts.getLast? = some t → t.isWord = false) (blank : ∀ c ∈ gap, isBlank c = true) :
    scan (spelled ts ++ (gap.map some ++ spelled us)) = some (ts ++ us) := by
  -- the front ends in a sign or a text, so it does not matter what follows
  have ends : ∀ t, ts.getLast? = some t → t.isWord = true →
      EndsWord (gap.map some ++ spelled us) := by
    intro t last word
    rw [hlast t last] at word
    cases word
  rw [scan, scanFrom_spelled_append ht ends, scanFrom_blanks blank, scanFrom_spelled hu,
    Option.map_some, List.append_nil, List.reverse_append, List.reverse_reverse,
    List.reverse_reverse]

end BlockRelay.Json
