import BlockRelay.Json.Token

/-!
# Reading JSON

`Json.read?` reads a whole text, `Json.readBytes?` a whole byte sequence. Between the tokens and
the value stands a machine with a stack of unfinished arrays and objects (`State`, `step`), so
reading is one pass over the tokens and the depth of a text costs nothing.
-/

namespace BlockRelay.Json

/-! ### Words -/

/-- The value of an integer literal: in range it is kept, beyond it is rounded. -/
def ofIntegerLiteral (negative : Bool) (n : Nat) : Json :=
  if negative ∧ 0 < n ∧ n ≤ 0x8000000000000000 then .int (-n)
  else if !negative ∧ n < 0x10000000000000000 then .int n
  else match Binary64.ofScientific? ⟨negative, n, 0⟩ with
    | some x => .real x
    | none => .unreadable

/-- Reads an exponent, after its letter: an optional sign, then digits to the end. -/
def exponent? (cs : List Char) : Option Int :=
  match cs with
  | '-' :: ds => (Text.Decimal.toNat? ds).map fun n => -(n : Int)
  | '+' :: ds => (Text.Decimal.toNat? ds).map fun n => (n : Int)
  | ds => (Text.Decimal.toNat? ds).map fun n => (n : Int)

/-- Reads what follows the whole digits of a number: a fraction, an exponent, both or neither.
Answers the digits of the fraction and the exponent, if there are any. -/
def fraction? (cs : List Char) : Option (List Char × Option Int) :=
  let afterPoint (ds cs : List Char) : Option (List Char × Option Int) :=
    match cs with
    | [] => some (ds, none)
    | c :: cs =>
      if c = 'e' ∨ c = 'E' then (exponent? cs).map fun e => (ds, some e) else none
  match cs with
  | '.' :: cs =>
    let ds := cs.takeWhile Text.Decimal.isDigit
    if ds.isEmpty then none else afterPoint ds (cs.dropWhile Text.Decimal.isDigit)
  | cs => afterPoint [] cs

/-- **The value of a number.** No leading zeros, digits on both sides of a point. -/
def number? (cs : List Char) : Option Json :=
  let (negative, cs) := match cs with
    | '-' :: cs => (true, cs)
    | cs => (false, cs)
  let ds := cs.takeWhile Text.Decimal.isDigit
  if ds.isEmpty ∨ (ds.head? = some '0' ∧ ds.length ≠ 1) then none
  else match fraction? (cs.dropWhile Text.Decimal.isDigit) with
    | none => none
    -- neither a point nor an exponent
    | some ([], none) => some (ofIntegerLiteral negative (Text.Decimal.toNat ds))
    | some (fs, e) =>
      let value : Scientific := ⟨negative, Text.Decimal.toNat (ds ++ fs), e.getD 0 - fs.length⟩
      some (match Binary64.ofScientific? value with
        | some x => .real x
        | none => .unreadable)

/-- The value of a word: one of three names, or a number. -/
def ofWord? (w : List Char) : Option Json :=
  if w = ['n', 'u', 'l', 'l'] then some .null
  else if w = ['t', 'r', 'u', 'e'] then some (.bool true)
  else if w = ['f', 'a', 'l', 's', 'e'] then some (.bool false)
  else number? w

/-! ### The machine -/

/-- The fields of an object that is being read, the last one first. A name without a text makes
the object unreadable. -/
abbrev OpenFields := List (Option String × Json)

/-- The object of finished fields. -/
def ofFields (fields : OpenFields) : Json :=
  match fields.mapM fun f => f.1.map fun name => (name, f.2) with
  | some fs => .obj fs
  | none => .unreadable

/-- A container that is being read, with the items before the current one, the last first. -/
inductive Frame where
  | array (before : List Json)
  /-- An object and the name of the current field. -/
  | object (before : OpenFields) (name : Option String)

/-- What the machine waits for, below a stack of open containers. -/
inductive State where
  | value (stack : List Frame)
  /-- A value or the end of an array that has just been opened. -/
  | first (stack : List Frame)
  /-- A name; or, if there are no fields yet, the end of the object. -/
  | name (stack : List Frame) (before : OpenFields) (mayEnd : Bool)
  | colon (stack : List Frame) (before : OpenFields) (name : Option String)
  /-- What follows the value just read. -/
  | after (stack : List Frame) (x : Json)

/-- A value begins. -/
def beginValue (stack : List Frame) : Token → Option State
  | .beginArray => some (.first stack)
  | .beginObject => some (.name stack [] true)
  | .text (some s) => some (.after stack (.str (String.ofList s)))
  | .text none => some (.after stack .unreadable)
  | .word w => (ofWord? w).map (.after stack)
  | _ => none

/-- **One token.** -/
def step : State → Token → Option State
  | .value stack, t => beginValue stack t
  -- only an array that has no items yet may end where an item could stand
  | .first stack, .endArray => some (.after stack (.arr []))
  | .first stack, t => beginValue (.array [] :: stack) t
  -- and only an object that has no fields yet where a name could stand
  | .name stack _ true, .endObject => some (.after stack (.obj []))
  | .name stack before _, .text s => some (.colon stack before (s.map String.ofList))
  | .name _ _ _, _ => none
  | .colon stack before name, .colon => some (.value (.object before name :: stack))
  | .colon _ _ _, _ => none
  -- the value just read takes its place in the container on top of the stack
  | .after (.array before :: stack) x, .comma => some (.value (.array (x :: before) :: stack))
  | .after (.array before :: stack) x, .endArray =>
    some (.after stack (.arr (x :: before).reverse))
  | .after (.object before name :: stack) x, .comma =>
    some (.name stack ((name, x) :: before) false)
  | .after (.object before name :: stack) x, .endObject =>
    some (.after stack (ofFields ((name, x) :: before).reverse))
  | .after _ _, _ => none

/-- The value of a sequence of tokens. -/
def ofTokens? (ts : List Token) : Option Json :=
  match ts.foldlM step (.value []) with
  | some (.after [] x) => some x
  | _ => none

/-- The value of a sequence of symbols. -/
def readSymbols? (s : List Symbol) : Option Json := (scan s).bind ofTokens?

/-- **Reads a text.** Nothing but blanks may stand around the value. -/
def read? (s : String) : Option Json := readSymbols? (s.toList.map some)

/-- **Reads bytes.** -/
def readBytes? (bs : List UInt8) : Option Json := readSymbols? (Text.Utf8.decode bs)

end BlockRelay.Json
