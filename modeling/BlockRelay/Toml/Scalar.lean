import BlockRelay.Number.Binary64
import BlockRelay.Toml.Moment
import BlockRelay.Toml.Token

/-!
# Numbers and dates in TOML

A number or a date is spread over several tokens: `1.5e+3` is five of them. Everything here
reads from the tokens of a value and answers the value and the tokens behind it.

Digits can be grouped by single underscores between them. Integers have no leading zeros, except
behind a base mark, and 64 bits with a sign; a plus sign stands in front of any number.
-/

namespace BlockRelay

/-- A double-precision value, finite or not. -/
inductive Double where
  | finite (x : Binary64)
  | infinite (negative : Bool)
  | notANumber
deriving DecidableEq, Repr

namespace Toml

/-- A value that has no parts. -/
inductive Scalar where
  | text (s : String)
  | integer (n : Int64)
  | real (x : Double)
  | boolean (b : Bool)
  | moment (m : Moment)
deriving DecidableEq, Repr

/-! ### Digits -/

/-- The value of a digit of a base up to sixteen. -/
def digit? (base : Nat) (c : Char) : Option Nat :=
  (Hex.value? c).bind fun d => if d < base then some d else none

/-- Whether a character is a digit of a base, or an underscore. -/
def isGroupChar (base : Nat) (c : Char) : Bool := (digit? base c).isSome || c = '_'

/-- Whether every underscore stands between digits. -/
def isGrouped : List Char → Bool
  | [] => false
  | '_' :: _ => false
  | [_] => true
  | _ :: '_' :: cs => isGrouped cs
  | _ :: cs => isGrouped cs

/-- A sign, the digits behind it without underscores, and what follows them. -/
structure Group where
  /-- Whether a minus sign stands in front. -/
  negative : Bool
  digits : List Char
  rest : List Char

/-- Reads grouped digits, with an optional sign in front if one is allowed. Unless zeros may
lead, only a single zero begins with one. -/
def group? (base : Nat) (signed zerosMayLead : Bool) (cs : List Char) : Option Group :=
  let (negative, body) := match cs with
    | '-' :: r => if signed then (true, r) else (false, cs)
    | '+' :: r => if signed then (false, r) else (false, cs)
    | _ => (false, cs)
  let run := body.takeWhile (isGroupChar base)
  let digits := run.filter (· ≠ '_')
  if isGrouped run ∧ (zerosMayLead ∨ digits.head? ≠ some '0' ∨ digits.length = 1) then
    some ⟨negative, digits, body.dropWhile (isGroupChar base)⟩
  else none

/-- The integer of a sign and digits, if it has 64 bits. -/
def integerOf? (base : Nat) (negative : Bool) (digits : List Char) : Option Scalar :=
  let n := digits.foldl (fun n c => base * n + (digit? base c).getD 0) 0
  let z : Int := if negative then -n else n
  if -0x8000000000000000 ≤ z ∧ z < 0x8000000000000000 then some (.integer (.ofInt z)) else none

/-- Reads an integer of a base that fills a word. -/
def integer? (base : Nat) (cs : List Char) : Option Scalar := do
  let g ← group? base (base = 10) (base ≠ 10) cs
  guard g.rest.isEmpty
  integerOf? base g.negative g.digits

/-! ### Numbers with a point or an exponent -/

/-- A signed exponent. -/
def Group.exponent (g : Group) : Int :=
  let n : Int := Text.Decimal.toNat g.digits
  if g.negative then -n else n

/-- The exponent that begins with the rest of a word, and the tokens behind it. -/
def exponent? (rest : List Char) (ts : List Token) : Option (Int × List Token) :=
  match rest with
  | [] => some (0, ts)
  | c :: r =>
    if c = 'e' ∨ c = 'E' then
      match r, ts with
      -- a plus sign is a token of its own, so it ends the word in front of it
      | [], .plus :: .word w :: ts => do
        let g ← group? 10 false true w
        guard g.rest.isEmpty
        return (g.exponent, ts)
      | [], _ => none
      | r, ts => do
        let g ← group? 10 true true r
        guard g.rest.isEmpty
        return (g.exponent, ts)
    else none

/-- Reads a number with an exponent, a fraction or both; its whole part is at the front of a
word and its fraction, if any, at the front of another. -/
def real? (whole : List Char) (fraction : Option (List Char)) (ts : List Token) :
    Option (Scalar × List Token) := do
  let g ← group? 10 true false whole
  let (fs, rest) ← match fraction with
    | none => some ([], g.rest)
    | some w =>
      if g.rest.isEmpty then (group? 10 false true w).map fun f => (f.digits, f.rest) else none
  let (e, ts) ← exponent? rest ts
  let x ← Binary64.ofScientific?
    ⟨g.negative, Text.Decimal.toNat (g.digits ++ fs), e - fs.length⟩
  return (.real (.finite x), ts)

/-- Reads a number that begins with a word. -/
def number? (w : List Char) (ts : List Token) : Option (Scalar × List Token) :=
  match w with
  | '0' :: 'x' :: ds => (integer? 16 ds).map (·, ts)
  | '0' :: 'o' :: ds => (integer? 8 ds).map (·, ts)
  | '0' :: 'b' :: ds => (integer? 2 ds).map (·, ts)
  | w =>
    -- no base mark stands in front, so the letter is that of an exponent
    if w.any fun c => c = 'e' || c = 'E' then real? w none ts
    else
      match ts with
      | .period :: .word f :: ts => real? w (some f) ts
      | .period :: _ => none
      | ts =>
        if w = "inf".toList then some (.real (.infinite false), ts)
        else if w = "-inf".toList then some (.real (.infinite true), ts)
        else if w = "nan".toList ∨ w = "-nan".toList then some (.real .notANumber, ts)
        else (integer? 10 w).map (·, ts)

/-! ### Dates -/

/-- Whether two characters stand next to each other in a text. -/
def hasPair (a b : Char) : List Char → Bool
  | c :: d :: cs => (c = a && d = b) || hasPair a b (d :: cs)
  | _ => false

/-- Whether a word begins a date: it has a `T`, or a minus sign that is not the sign of the
number or of an exponent. -/
def beginsDate (w : List Char) : Bool :=
  w.any (fun c => c = 'T' || c = 't') ||
    ((w.drop 1).any (· = '-') && !hasPair 'e' '-' w && !hasPair 'E' '-' w)

/-- A sign of a date and the word behind it, if the sign is there. -/
def signAndWord? (sign : Token) : List Token → Option (List Char × List Token)
  | t :: ts =>
    if t = sign then
      match ts with
      | .word w :: ts => some (t.chars ++ w, ts)
      | _ => none
    else some ([], t :: ts)
  | [] => some ([], [])

/-- Reads the minutes, the seconds and all that can follow them, after the hour. -/
def clock? (ts : List Token) : Option (List Char × List Token) :=
  match ts with
  | .word minutes :: .colon :: .word seconds :: ts => do
    let (fraction, ts) ← signAndWord? .period ts
    let (hours, ts) ← signAndWord? .plus ts
    let (rest, ts) ← signAndWord? .colon ts
    return (minutes ++ [':'] ++ seconds ++ fraction ++ hours ++ rest, ts)
  | _ => none

/-- Reads a date or a time that begins with a word, after a colon if one was there. The time can
be divided from the date by one space. -/
def moment? (w : List Char) (colon : Bool) (ts : List Token) : Option (Scalar × List Token) := do
  -- a time behind a blank belongs to the date in front of it
  let (hour, ts) := match ts with
    | .blank [' '] :: .word h :: ts => (' ' :: h, ts)
    | ts => ([], ts)
  let start := w ++ (if colon then [':'] else []) ++ hour
  let (cs, ts) ←
    match colon, ts with
    | true, ts => (clock? ts).map fun (cs, ts) => (start ++ cs, ts)
    | false, .colon :: ts => (clock? ts).map fun (cs, ts) => (start ++ ':' :: cs, ts)
    | false, ts => some (start, ts)
  let m ← Moment.read? cs
  return (.moment m, ts)

/-- **Reads a scalar** from the tokens of a value. -/
def scalar? : List Token → Option (Scalar × List Token)
  | .text cs _ :: ts => some (.text (String.ofList cs), ts)
  | .plus :: .word w :: ts => number? w ts
  | .word w :: ts =>
    if w = "true".toList then some (.boolean true, ts)
    else if w = "false".toList then some (.boolean false, ts)
    else if w = "inf".toList ∨ w = "nan".toList ∨
        w.head?.any fun c => c = '-' || Text.Decimal.isDigit c then
      if beginsDate w then moment? w false ts
      else match ts with
        | .colon :: ts => moment? w true ts
        | ts => number? w ts
    else none
  | _ => none

end Toml

end BlockRelay
