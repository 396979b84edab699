import BlockRelay.Hex.Basic

/-!
# Percent encoding

Characters that an address cannot hold are written as the bytes of their UTF-8, each as a
percent sign and two upper-case digits. Which characters these are depends on the part of the
address: the classes grow from the fragment over the path to the user information. A percent
sign is never encoded, so text that is encoded already stays as it is.
-/

namespace BlockRelay.Url

/-- The digit of a number below sixteen, in upper case. -/
def upperDigit (n : Nat) : Char :=
  if n % 16 < 10 then Char.ofNat (n % 16 + 48) else Char.ofNat (n % 16 + 55)

/-- The encoding of a byte. -/
def percentByte (b : UInt8) : List Char := ['%', upperDigit (b.toNat / 16), upperDigit b.toNat]

/-- The encoding of a character if it belongs to a class, and otherwise the character. -/
def percentChar (encoded : Char → Bool) (c : Char) : List Char :=
  if encoded c then (Text.Utf8.encode [c]).flatMap percentByte else [c]

/-- A text with the characters of a class encoded. -/
def percentEncode (encoded : Char → Bool) (cs : List Char) : List Char :=
  cs.flatMap (percentChar encoded)

/-- Controls and everything beyond ASCII. -/
def isControl (c : Char) : Bool := c.toNat < 0x20 || 0x7F ≤ c.toNat

/-- What is encoded in a fragment. -/
def inFragment (c : Char) : Bool :=
  isControl c || c = ' ' || c = '"' || c = '<' || c = '>' || c = '\x60'

/-- What is encoded in a query. -/
def inQuery (c : Char) : Bool :=
  isControl c || c = ' ' || c = '"' || c = '#' || c = '<' || c = '>' || c = '\''

/-- What is encoded in a path. -/
def inPath (c : Char) : Bool :=
  inFragment c || c = '#' || c = '?' || c = '\x7b' || c = '\x7d'

/-- What is encoded in user information. -/
def inUserinfo (c : Char) : Bool :=
  inPath c || c = '/' || c = ':' || c = ';' || c = '=' || c = '@' || c = '[' || c = '\\' ||
    c = ']' || c = '^' || c = '|'

/-- The bytes of a text in which percent signs with two digits stand for bytes. -/
def percentDecode : List Char → List UInt8
  | '%' :: a :: b :: r =>
    match Hex.value? a, Hex.value? b with
    | some h, some l => UInt8.ofNat (16 * h + l) :: percentDecode r
    | _, _ => 0x25 :: percentDecode (a :: b :: r)
  | c :: r => Text.Utf8.encode [c] ++ percentDecode r
  | [] => []

end BlockRelay.Url
