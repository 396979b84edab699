import BlockRelay.Hex.Basic
import BlockRelay.Text.Decimal

/-!
# The tokens of a TOML text

Configuration files are written in TOML. `scan` splits a text into tokens: signs, line breaks,
blanks, strings, and *words*, the longest runs of letters, digits, `-` and `_`. Words are keys or
the pieces of numbers and dates, which may take several tokens, so blanks are tokens too.
Comments are dropped; they reach to the end of their line.

A carriage return counts only together with the line feed behind it, as one line break.
-/

namespace BlockRelay.Toml

/-- One token. -/
inductive Token where
  | newline
  /-- A run of spaces and tabs. -/
  | blank (cs : List Char)
  /-- The sign between a key and its value. -/
  | equals
  | period
  | comma
  | colon
  | plus
  /-- The sign that opens an inline table. -/
  | beginTable
  /-- The sign that closes an inline table. -/
  | endTable
  /-- The sign that opens an array or a header. -/
  | beginArray
  /-- The sign that closes an array or a header. -/
  | endArray
  /-- A run of letters, digits, `-` and `_`. -/
  | word (cs : List Char)
  /-- A string, and whether it was written between three quotes. -/
  | text (cs : List Char) (multiline : Bool)
deriving DecidableEq, Repr

/-- Spaces and tabs. -/
def isBlank (c : Char) : Bool := c = ' ' || c = '\t'

/-- The characters of words. -/
def isWordChar (c : Char) : Bool :=
  let n := c.toNat
  (48 ≤ n && n ≤ 57) || (65 ≤ n && n ≤ 90) || (97 ≤ n && n ≤ 122) || c = '-' || c = '_'

/-- What a comment can hold. -/
def isCommentChar (c : Char) : Bool := c = '\t' || 0x20 ≤ c.toNat

/-- What a string can hold as it is. -/
def isTextChar (c : Char) : Bool := c = '\t' || (0x20 ≤ c.toNat && c.toNat ≠ 0x7F)

/-- The token that is a single character. -/
def Token.sign? (c : Char) : Option Token :=
  if c = '\n' then some .newline
  else if c = '=' then some .equals
  else if c = '.' then some .period
  else if c = ',' then some .comma
  else if c = ':' then some .colon
  else if c = '+' then some .plus
  else if c = '\x7b' then some .beginTable
  else if c = '\x7d' then some .endTable
  else if c = '[' then some .beginArray
  else if c = ']' then some .endArray
  else none

/-! ### Strings -/

/-- The character that a letter after a backslash stands for. -/
def shortEscape? (c : Char) : Option Char :=
  if c = '"' then some '"'
  else if c = '\\' then some '\\'
  else if c = 'b' then some '\x08'
  else if c = 'f' then some '\x0c'
  else if c = 'n' then some '\n'
  else if c = 'r' then some '\r'
  else if c = 't' then some '\t'
  else none

/-- The character of a code point in hexadecimal digits. -/
def charOfDigits? (ds : List Char) : Option Char :=
  (ds.mapM Hex.value?).bind fun values =>
    let n := Hex.ofDigits values
    if n.isValidChar then some (Char.ofNat n) else none

/-- Reads a code point of `n` digits. -/
def codePoint? (n : Nat) (s : List Char) : Option (List Char × List Char) :=
  if s.length < n then none
  else (charOfDigits? (s.take n)).map fun c => ([c], s.drop n)

/-- Reads the rest of an escape, after its backslash, and answers the text it stands for. In a
string between three quotes, a backslash at the end of a line stands for nothing and takes the
blanks and line breaks behind it along. -/
def escape? (multiline : Bool) : List Char → Option (List Char × List Char)
  | [] => none
  | c :: r =>
    if c = 'u' then codePoint? 4 r
    else if c = 'U' then codePoint? 8 r
    else if multiline ∧ (c = '\n' ∨ isBlank c) then
      match (c :: r).dropWhile isBlank with
      | '\n' :: rest => some ([], rest.dropWhile fun c => isBlank c || c = '\n')
      | _ => none
    else (shortEscape? c).map fun c => ([c], r)

theorem length_codePoint? {n : Nat} {s t r : List Char} (h : codePoint? n s = some (t, r)) :
    r.length ≤ s.length := by
  unfold codePoint? at h
  split at h
  · cases h
  · obtain ⟨_, -, e⟩ := Option.map_eq_some_iff.1 h
    cases e
    simp

theorem length_escape? {multiline : Bool} {s t r : List Char}
    (h : escape? multiline s = some (t, r)) : r.length < s.length := by
  cases s with
  | nil => cases h
  | cons c s =>
    simp only [escape?] at h
    split at h
    · have := length_codePoint? h; simp only [List.length_cons]; omega
    · split at h
      · have := length_codePoint? h; simp only [List.length_cons]; omega
      · split at h
        · split at h
          · next rest hd =>
            cases h
            have h₁ := (List.dropWhile_sublist isBlank (l := c :: s)).length_le
            have h₂ := (List.dropWhile_sublist (fun c => isBlank c || c = '\n') (l := rest)).length_le
            rw [hd] at h₁
            simp only [List.length_cons] at h₁ ⊢
            omega
          · cases h
        · obtain ⟨_, -, e⟩ := Option.map_eq_some_iff.1 h
          cases e
          simp

/-- The quotes, up to two, that belong to a text in front of the three that close it. -/
def closing (quote : Char) : List Char → List Char × List Char
  | a :: b :: r => if a = quote then if b = quote then ([a, b], r) else ([a], b :: r)
    else ([], a :: b :: r)
  | [a] => if a = quote then ([a], []) else ([], [a])
  | [] => ([], [])

theorem length_closing_le (quote : Char) (s : List Char) :
    (closing quote s).2.length ≤ s.length := by
  unfold closing
  split
  · split
    · split <;> simp only [List.length_cons] <;> omega
    · exact Nat.le_refl _
  · split <;> simp
  · exact Nat.le_refl _

/-- Reads a string up to the quote, or the three quotes, that close it. Literal strings have no
escapes. -/
def body? (quote : Char) (literal multiline : Bool) (s : List Char) (done : List Char) :
    Option (List Char × List Char) :=
  match s with
  | [] => none
  | c :: r =>
    if c = quote then
      if multiline then
        -- three quotes close it; one or two are part of the text
        if r.take 2 = [quote, quote] then
          let (extra, rest) := closing quote (r.drop 2)
          some (done.reverse ++ extra, rest)
        else body? quote literal multiline r (c :: done)
      else some (done.reverse, r)
    else if c = '\\' ∧ literal = false then
      match _h : escape? multiline r with
      | none => none
      | some (t, r') => body? quote literal multiline r' (t.reverse ++ done)
    else if c = '\n' then
      if multiline then body? quote literal multiline r (c :: done) else none
    else if isTextChar c then body? quote literal multiline r (c :: done)
    else none
termination_by s.length
decreasing_by
  all_goals simp_wf
  have := length_escape? _h
  omega

theorem length_body? {quote : Char} {literal multiline : Bool} {s done t r : List Char}
    (h : body? quote literal multiline s done = some (t, r)) : r.length < s.length := by
  fun_induction body? quote literal multiline s done with
  | case1 => cases h
  -- the closing quotes have been read, and perhaps two more
  | case2 done r' _ _ extra rest he =>
    cases h
    have h₁ := length_closing_le quote (r'.drop 2)
    rw [he] at h₁
    simp only [List.length_drop, List.length_cons] at h₁ ⊢
    omega
  | case3 done r' _ _ ih => have := ih h; simp only [List.length_cons]; omega
  | case4 done r' => cases h; simp
  | case5 => cases h
  | case6 done c r' _ _ t' r'' he ih =>
    have := ih h
    have := length_escape? he
    simp only [List.length_cons]
    omega
  | case7 done r' _ _ _ ih => have := ih h; simp only [List.length_cons]; omega
  | case8 => cases h
  | case9 done c r' _ _ _ _ ih => have := ih h; simp only [List.length_cons]; omega
  | case10 => cases h

/-- Reads a string, after its first quote. A line break right behind three quotes is not part of
the text. -/
def text? (quote : Char) (s : List Char) : Option (Token × List Char) :=
  let literal := quote = '\''
  if s.take 2 = [quote, quote] then
    let s := s.drop 2
    let s := if s.head? = some '\n' then s.tail else s
    (body? quote literal true s []).map fun (t, r) => (.text t true, r)
  else (body? quote literal false s []).map fun (t, r) => (.text t false, r)

theorem length_text? {quote : Char} {s r : List Char} {t : Token}
    (h : text? quote s = some (t, r)) : r.length < s.length := by
  unfold text? at h
  dsimp only at h
  split at h
  · obtain ⟨_, hb, e⟩ := Option.map_eq_some_iff.1 h
    cases e
    have := length_body? hb
    split at this <;> simp only [List.length_tail, List.length_drop] at this <;> omega
  · obtain ⟨_, hb, e⟩ := Option.map_eq_some_iff.1 h
    cases e
    exact length_body? hb

/-! ### The scanner -/

/-- What follows a comment, which must be the end of the line or of the text. -/
def afterComment? (s : List Char) : Option (List Char) :=
  match s.dropWhile isCommentChar with
  | [] => some []
  | c :: r => if c = '\n' then some (c :: r) else none

theorem length_afterComment? {s r : List Char} (h : afterComment? s = some r) :
    r.length ≤ s.length := by
  have hd := (List.dropWhile_sublist isCommentChar (l := s)).length_le
  unfold afterComment? at h
  split at h
  · cases h; simp
  · next hs =>
    rw [hs] at hd
    split at h
    · cases h; exact hd
    · cases h

/-- The tokens of a text, put in front of those found before, the last one first. -/
def scanFrom (s : List Char) (done : List Token) : Option (List Token) :=
  match s with
  | [] => some done
  | c :: r =>
    if c = '#' then
      match _h : afterComment? r with
      | none => none
      | some r' => scanFrom r' done
    else if c = '"' ∨ c = '\'' then
      match _h : text? c r with
      | none => none
      | some (t, r') => scanFrom r' (t :: done)
    else if isBlank c then
      scanFrom (r.dropWhile isBlank) (.blank (c :: r.takeWhile isBlank) :: done)
    else if isWordChar c then
      scanFrom (r.dropWhile isWordChar) (.word (c :: r.takeWhile isWordChar) :: done)
    else match Token.sign? c with
      | none => none
      | some t => scanFrom r (t :: done)
termination_by s.length
decreasing_by
  all_goals simp_wf
  · have := length_afterComment? _h
    omega
  · have := length_text? _h
    omega
  · have := (List.dropWhile_sublist isBlank (l := r)).length_le
    omega
  · have := (List.dropWhile_sublist isWordChar (l := r)).length_le
    omega

/-- A text with every carriage return and line feed as one line break. -/
def foldLineEnds : List Char → List Char
  | '\r' :: '\n' :: r => '\n' :: foldLineEnds r
  | c :: r => c :: foldLineEnds r
  | [] => []

/-- **The tokens of a text** in order. A byte order mark in front is dropped. -/
def scan (s : String) : Option (List Token) :=
  let cs := foldLineEnds s.toList
  let cs := if cs.head?.map Char.toNat = some 0xFEFF then cs.tail else cs
  (scanFrom cs []).map List.reverse

/-- The text of a token in a number or a date. -/
def Token.chars : Token → List Char
  | .blank cs | .word cs => cs
  | .period => ['.']
  | .colon => [':']
  | .plus => ['+']
  | _ => []

end BlockRelay.Toml
