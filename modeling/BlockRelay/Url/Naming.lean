import BlockRelay.Text.Pieces

/-!
# Domain names in ASCII

A domain name may hold letters of any alphabet, but it is looked up in ASCII. Which letters are the
same in a name, which of them no name can hold, and how a label is encoded that needs other letters
than those of ASCII: all of this is laid down in tables that are not part of this library. Whoever
reads addresses brings them along (`Naming`).

A reader relies on two laws (`Naming.Lawful`). A name that needs no table is put into small letters,
and a name that has been put into ASCII stays as it is. `Naming.plain` has no tables and refuses
every name that needs one.
-/

namespace BlockRelay.Url

/-- A label that says of itself that it is the encoding of another one. -/
def isMarked (label : List Char) : Bool :=
  (label.take 4).map Char.toLower = ['x', 'n', '-', '-']

/-- **A name that needs no table:** it has ASCII characters only, and none of its labels is
marked. -/
def isPlainName (name : List Char) : Bool :=
  (name.all fun c => c.toNat < 0x80) && (Text.pieces (· = '.') name).all fun l => !isMarked l

/-- A way to write domain names in ASCII. -/
structure Naming where
  /-- The name in ASCII, if it can be written so. -/
  ascii? : List Char → Option (List Char)

/-- **The laws of domain names in ASCII.** -/
structure Naming.Lawful (naming : Naming) : Prop where
  /-- A plain name is written in small letters. -/
  plain : ∀ name, isPlainName name = true → naming.ascii? name = some (name.map Char.toLower)
  /-- What a name is written as is written as itself. -/
  fixed : ∀ name out, naming.ascii? name = some out → naming.ascii? out = some out

/-- Plain names only. -/
def Naming.plain : Naming where
  ascii? name := if isPlainName name then some (name.map Char.toLower) else none

end BlockRelay.Url
