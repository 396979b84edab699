import BlockRelay.Json.Token

/-!
# Writing JSON

Values are written compactly: no blanks, fields in the order they have, characters beyond ASCII
as they are. `Json.tokens` lists the tokens, `Json.render` their texts one after the other.
-/

namespace BlockRelay.Json

/-- A number that is not whole, or too large for an integer. It keeps a point or an exponent, so
that it reads back as what it is: positional between `1e-5` and `1e16`, scientific beyond. -/
def realChars (x : Binary64) : List Char :=
  let d := x.shortest
  let ds := Text.Decimal.ofNat d.coefficient
  let sign := if x.negative then ['-'] else []
  let point : Int := ds.length + d.exponent
  if d.coefficient = 0 then sign ++ ['0', '.', '0']
  else if 0 ≤ d.exponent ∧ point ≤ 16 then
    sign ++ ds ++ List.replicate d.exponent.toNat '0' ++ ['.', '0']
  else if 0 < point ∧ point ≤ 16 then
    sign ++ ds.take point.toNat ++ '.' :: ds.drop point.toNat
  else if -5 < point ∧ point ≤ 0 then
    sign ++ ['0', '.'] ++ List.replicate (-point).toNat '0' ++ ds
  else
    let fraction := if ds.length = 1 then [] else '.' :: ds.drop 1
    sign ++ ds.take 1 ++ fraction ++ 'e' :: Text.Decimal.ofInt (point - 1)

mutual

/-- The tokens of a value. -/
def tokens : Json → List Token
  | .null => [.word ['n', 'u', 'l', 'l']]
  | .bool true => [.word ['t', 'r', 'u', 'e']]
  | .bool false => [.word ['f', 'a', 'l', 's', 'e']]
  | .int n => [.word (Text.Decimal.ofInt n)]
  | .real x => [.word (realChars x)]
  | .str s => [.text (some s.toList)]
  | .arr xs => .beginArray :: tokensItems xs
  | .obj fields => .beginObject :: tokensFields fields
  | .unreadable => [.text none]

/-- The tokens of items, up to the end of their array. -/
def tokensItems : List Json → List Token
  | [] => [.endArray]
  | x :: xs => tokens x ++ tokensMoreItems xs

/-- The tokens of further items, each after a comma. -/
def tokensMoreItems : List Json → List Token
  | [] => [.endArray]
  | x :: xs => .comma :: tokens x ++ tokensMoreItems xs

/-- The tokens of fields, up to the end of their object. -/
def tokensFields : List (String × Json) → List Token
  | [] => [.endObject]
  | (name, x) :: fields =>
    .text (some name.toList) :: .colon :: tokens x ++ tokensMoreFields fields

/-- The tokens of further fields, each after a comma. -/
def tokensMoreFields : List (String × Json) → List Token
  | [] => [.endObject]
  | (name, x) :: fields =>
    .comma :: .text (some name.toList) :: .colon :: tokens x ++ tokensMoreFields fields

end

/-- The characters of a written value. -/
def chars (j : Json) : List Char := j.tokens.flatMap Token.chars

/-- **A value in compact text.** -/
def render (j : Json) : String := String.ofList j.chars

/-- A value in compact text, as bytes. -/
def renderBytes (j : Json) : List UInt8 := Text.Utf8.encode j.chars

end BlockRelay.Json
