/-!
# Characters and texts shown in messages

A message that complains about a character or a text shows it between quotes, with what cannot
be seen written as an escape.
-/

namespace BlockRelay.Text

/-- The hexadecimal digits of a number, lower case, fewest digits. -/
def hexDigits (n : Nat) : List Char := Nat.toDigits 16 n

/-- The characters below U+0100 that a reader can see: ASCII from the space to the tilde and
Latin-1 without the no-break space and the soft hyphen. -/
def isVisibleLatin (c : Char) : Bool :=
  let n := c.toNat
  (0x20 ≤ n && n ≤ 0x7E) || (0xA1 ≤ n && n ≤ 0xFF && n != 0xAD)

/-- The characters that a reader can see: visible Latin ones and, beyond these, all but marks that
attach to other characters, invisible format characters and private ones. -/
def isVisible (c : Char) : Bool :=
  let n := c.toNat
  if n ≤ 0xFF then isVisibleLatin c
  else !((0x300 ≤ n && n ≤ 0x36F) || (0x2000 ≤ n && n ≤ 0x200F) || (0x2028 ≤ n && n ≤ 0x202F) ||
    (0x205F ≤ n && n ≤ 0x206F) || n = 0x3000 || (0xE000 ≤ n && n ≤ 0xF8FF) ||
    (0xFE00 ≤ n && n ≤ 0xFE0F) || n = 0xFEFF || (0xFFF0 ≤ n && n ≤ 0xFFFB) || 0xE0000 ≤ n)

/-- A character inside quotes of a kind. The quote and the backslash are escaped, the common
controls have short names, and what is invisible shows its code point. -/
def shown (quote c : Char) : List Char :=
  if c = '\x00' then ['\\', '0']
  else if c = '\t' then ['\\', 't']
  else if c = '\r' then ['\\', 'r']
  else if c = '\n' then ['\\', 'n']
  else if c = quote then ['\\', quote]
  else if c = '\\' then ['\\', '\\']
  else if isVisible c then [c]
  else ['\\', 'u', '\x7b'] ++ hexDigits c.toNat ++ ['\x7d']

/-- **A character between single quotes.** -/
def quotedChar (c : Char) : String := String.ofList (['\''] ++ shown '\'' c ++ ['\''])

/-- **A text between double quotes.** -/
def quotedText (s : String) : String :=
  String.ofList (['"'] ++ s.toList.flatMap (shown '"') ++ ['"'])

end BlockRelay.Text
