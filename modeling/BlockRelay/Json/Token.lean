import BlockRelay.Json.Basic
import BlockRelay.Text.Utf8

/-!
# The tokens of a JSON text

A text is a sequence of *symbols*: characters, or `none` where bytes did not decode. `scan`
splits it into tokens. Blanks are the four of the standard; strings end at the first unescaped
quote; everything else that is made of letters, digits and `+ - .` is taken in longest runs,
and what such a word means is decided later.

An ill-formed piece or half of a surrogate pair makes a string a token without a text
(`Token.text none`); outside a string an ill-formed piece is no token at all.
-/

namespace BlockRelay.Json

/-- A decoded character, or `none` for an ill-formed piece of the bytes. -/
abbrev Symbol := Option Char

/-- One token. -/
inductive Token where
  /-- The sign that opens an array. -/
  | beginArray
  /-- The sign that closes an array. -/
  | endArray
  /-- The sign that opens an object. -/
  | beginObject
  /-- The sign that closes an object. -/
  | endObject
  | comma
  /-- The sign between a name and its value. -/
  | colon
  /-- A string, without a text if it holds what no text can hold. -/
  | text (s : Option (List Char))
  /-- A longest run of letters, digits, signs and points. -/
  | word (w : List Char)
deriving DecidableEq, Repr

/-- The blanks between tokens. -/
def isBlank (c : Char) : Bool := c = ' ' || c = '\t' || c = '\n' || c = '\r'

/-- The characters of words. -/
def isWordChar (c : Char) : Bool :=
  let n := c.toNat
  (48 ≤ n && n ≤ 57) || (65 ≤ n && n ≤ 90) || (97 ≤ n && n ≤ 122) || c = '+' || c = '-' || c = '.'

/-- A symbol that is a character of words. -/
def isWordSymbol : Symbol → Bool
  | some c => isWordChar c
  | none => false

/-- The token that is a single character. -/
def Token.sign? (c : Char) : Option Token :=
  if c = '[' then some .beginArray
  else if c = ']' then some .endArray
  else if c = '\x7b' then some .beginObject
  else if c = '\x7d' then some .endObject
  else if c = ',' then some .comma
  else if c = ':' then some .colon
  else none

/-! ### Strings -/

/-- What one character or escape of a string contributes. -/
inductive Piece where
  | char (c : Char)
  | half (unit : Nat)
  | illFormed
deriving DecidableEq, Repr

/-- The piece of an escaped code unit. -/
def Piece.ofUnit (n : Nat) : Piece :=
  if 0xD800 ≤ n ∧ n ≤ 0xDFFF then .half n else .char (Char.ofNat n)

/-- The character that a letter after a backslash stands for. -/
def shortEscape? (c : Char) : Option Char :=
  if c = '"' then some '"'
  else if c = '\\' then some '\\'
  else if c = '/' then some '/'
  else if c = 'b' then some '\x08'
  else if c = 'f' then some '\x0c'
  else if c = 'n' then some '\n'
  else if c = 'r' then some '\r'
  else if c = 't' then some '\t'
  else none

/-- The value of a hexadecimal digit of an escape. -/
def hexValue? (c : Char) : Option Nat :=
  let n := c.toNat
  if 48 ≤ n ∧ n ≤ 57 then some (n - 48)
  else if 97 ≤ n ∧ n ≤ 102 then some (n - 87)
  else if 65 ≤ n ∧ n ≤ 70 then some (n - 55)
  else none

/-- The code unit of four hexadecimal digits. -/
def unit? (a b c d : Char) : Option Nat := do
  let a ← hexValue? a
  let b ← hexValue? b
  let c ← hexValue? c
  let d ← hexValue? d
  return 4096 * a + 256 * b + 16 * c + d

/-- Reads the rest of an escape, after its backslash. -/
def escape? : List Symbol → Option (Piece × List Symbol)
  | some 'u' :: some a :: some b :: some c :: some d :: r =>
    (unit? a b c d).map fun n => (Piece.ofUnit n, r)
  | some c :: r => (shortEscape? c).map fun e => (.char e, r)
  | _ => none

theorem length_escape? {s r : List Symbol} {p : Piece} (h : escape? s = some (p, r)) :
    r.length < s.length := by
  unfold escape? at h
  split at h
  · obtain ⟨_, -, e⟩ := Option.map_eq_some_iff.1 h
    cases e
    simp only [List.length_cons]
    omega
  · obtain ⟨_, -, e⟩ := Option.map_eq_some_iff.1 h
    cases e
    simp
  · cases h

/-- Reads the pieces of a string up to its closing quote; control characters must be escaped. -/
def pieces? (s : List Symbol) (done : List Piece) : Option (List Piece × List Symbol) :=
  match s with
  | [] => none
  | none :: r => pieces? r (.illFormed :: done)
  | some c :: r =>
    if c = '"' then some (done.reverse, r)
    else if c = '\\' then
      match _h : escape? r with
      | none => none
      | some (p, r') => pieces? r' (p :: done)
    else if c.toNat < 0x20 then none
    else pieces? r (.char c :: done)
termination_by s.length
decreasing_by
  all_goals simp_wf
  have := length_escape? _h
  omega

theorem length_pieces? {s r : List Symbol} {done ps : List Piece}
    (h : pieces? s done = some (ps, r)) : r.length < s.length := by
  fun_induction pieces? s done with
  | case1 => cases h
  | case2 done r' ih => have := ih h; simp only [List.length_cons]; omega
  | case3 done r' => cases h; simp
  | case4 => cases h
  -- the rest of an escape is shorter, and what follows it shorter again
  | case5 done r' p r'' he _ ih =>
    have := ih h
    have := length_escape? he
    simp only [List.length_cons]
    omega
  | case6 => cases h
  | case7 done c r' _ _ _ ih => have := ih h; simp only [List.length_cons]; omega

/-- The text of the pieces of a string: halves of a surrogate pair must meet. -/
def joinPieces : List Piece → Option (List Char)
  | [] => some []
  | .char c :: r => (joinPieces r).map (c :: ·)
  | .half h :: .half l :: r =>
    -- a high half and the low one behind it are one character beyond the first plane
    if h < 0xDC00 ∧ 0xDC00 ≤ l then
      (joinPieces r).map (Char.ofNat (0x10000 + (h - 0xD800) * 1024 + (l - 0xDC00)) :: ·)
    else none
  | .half _ :: _ => none
  | .illFormed :: _ => none

/-! ### The scanner -/

/-- **The tokens of a text,** put in front of those found before, the last one first. -/
def scanFrom (s : List Symbol) (done : List Token) : Option (List Token) :=
  match s with
  | [] => some done
  | none :: _ => none
  | some c :: r =>
    if isBlank c then scanFrom r done
    else if c = '"' then
      match _h : pieces? r [] with
      | none => none
      | some (ps, r') => scanFrom r' (.text (joinPieces ps) :: done)
    else if isWordChar c then
      scanFrom (r.dropWhile isWordSymbol)
        (.word (c :: (r.takeWhile isWordSymbol).filterMap id) :: done)
    else match Token.sign? c with
      | none => none
      | some t => scanFrom r (t :: done)
termination_by s.length
decreasing_by
  all_goals simp_wf
  · have := length_pieces? _h
    omega
  · have := (List.dropWhile_sublist isWordSymbol (l := r)).length_le
    omega

/-- The tokens of a text in order. -/
def scan (s : List Symbol) : Option (List Token) := (scanFrom s []).map List.reverse

/-! ### Writing tokens -/

/-- A character inside a written string: quotes, backslashes and controls are escaped. -/
def escaped (c : Char) : List Char :=
  if c = '"' then ['\\', '"']
  else if c = '\\' then ['\\', '\\']
  else if c = '\x08' then ['\\', 'b']
  else if c = '\x0c' then ['\\', 'f']
  else if c = '\n' then ['\\', 'n']
  else if c = '\r' then ['\\', 'r']
  else if c = '\t' then ['\\', 't']
  else if c.toNat < 0x20 then
    ['\\', 'u', '0', '0', Nat.digitChar (c.toNat / 16), Nat.digitChar (c.toNat % 16)]
  else [c]

/-- A written string. -/
def quoted (s : List Char) : List Char := '"' :: s.flatMap escaped ++ ['"']

/-- The text of a token. -/
def Token.chars : Token → List Char
  | .beginArray => ['[']
  | .endArray => [']']
  | .beginObject => ['\x7b']
  | .endObject => ['\x7d']
  | .comma => [',']
  | .colon => [':']
  | .text s => quoted (s.getD [])
  | .word w => w

end BlockRelay.Json
