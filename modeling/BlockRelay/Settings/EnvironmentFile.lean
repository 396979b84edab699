import BlockRelay.Settings.Environment

/-!
# Files of variables

A file named `.env` can give variables that the environment does not set. A line is a name, an
equals sign and a value, with an optional `export` in front; blank lines and comments are
skipped. The first line that cannot be read ends the file.

In a value, single quotes keep everything, double quotes keep blanks, a backslash keeps the
character behind it, and `$name` stands for the variable of that name.
-/

namespace BlockRelay

namespace EnvironmentFile

/-- What the reader of a value is in. -/
inductive Quote where
  | none
  | single
  | double
deriving DecidableEq, Repr

/-- The reader of a value between two characters. -/
structure ValueReader where
  /-- What has been read, the last character first. -/
  output : List Char := []
  quote : Quote := .none
  /-- Whether a backslash came just before. -/
  escaped : Bool := false
  /-- Whether the value has ended, so that only blanks and a comment may follow. -/
  ended : Bool := false
  comment : Bool := false
  /-- The name of a variable that is being read, the last character first, and whether it stands
  in braces. -/
  reference : Option (Bool × List Char) := Option.none

namespace ValueReader

/-- Letters and digits. -/
def isNameChar (c : Char) : Bool := c.isAlphanum || 0xC0 ≤ c.toNat

/-- Puts the value of a variable in the place of its name. -/
def resolve (value : String → String) (name : List Char) (r : ValueReader) : ValueReader :=
  { r with
    reference := Option.none
    output := (value (String.ofList name.reverse)).toList.reverse ++ r.output }

/-- Keeps a character. -/
def push (r : ValueReader) (c : Char) : ValueReader := { r with output := c :: r.output }

/-- The character that an escaped one stands for. -/
def escape? (c : Char) : Option Char :=
  if c = '\\' ∨ c = '\'' ∨ c = '"' ∨ c = '$' ∨ c = ' ' then some c
  else if c = 'n' then some '\n'
  else Option.none

/-- **One character.** -/
def step (value : String → String) (r : ValueReader) (c : Char) : Option ValueReader :=
  if r.comment then some r
  else if r.ended then
    if c = ' ' ∨ c = '\t' then some r
    else if c = '#' then some { r with comment := true }
    else Option.none
  -- behind a backslash no character has its usual meaning
  else if r.escaped then (escape? c).map fun d => { r.push d with escaped := false }
  else if r.quote = .single then
    some (if c = '\'' then { r with quote := .none } else r.push c)
  else
    match r.reference with
    | some (braces, name) =>
      if isNameChar c then some { r with reference := some (braces, c :: name) }
      -- between braces everything up to the closing one is the name
      else if braces then
        some (if c = '\x7d' then r.resolve value name
          else { r with reference := some (true, c :: name) })
      else if c = '\x7b' ∧ name = [] then some { r with reference := some (true, []) }
      -- one name ends where the next begins
      else if c = '$' then some { r.resolve value name with reference := some (false, []) }
      -- what ends a name is kept as it stands, also a quote
      else some ((r.resolve value name).push c)
    | Option.none =>
      some <|
        if c = '$' then { r with reference := some (false, []) }
        else if c = '\\' then { r with escaped := true }
        else if r.quote = .double then
          if c = '"' then { r with quote := .none } else r.push c
        else if c = '\'' then { r with quote := .single }
        else if c = '"' then { r with quote := .double }
        else if c = ' ' ∨ c = '\t' then { r with ended := true }
        else r.push c

/-- The value at the end of a line. Quotes and braces must be closed. -/
def finish? (value : String → String) (r : ValueReader) : Option String :=
  match r.quote, r.reference with
  | .none, some (true, _) => Option.none
  | .none, some (false, name) => some (String.ofList (r.resolve value name).output.reverse)
  | .none, Option.none => some (String.ofList r.output.reverse)
  | _, _ => Option.none

end ValueReader

/-! ### Lines -/

/-- The characters of names. -/
def isNameChar (c : Char) : Bool := c.isAlphanum || c = '_' || c = '.'

/-- Reads a name, and what follows it and the blanks behind it. -/
def name? (cs : List Char) : Option (String × List Char) :=
  match cs with
  | c :: _ =>
    if c.isAlpha ∨ c = '_' then
      some (String.ofList (cs.takeWhile isNameChar),
        (cs.dropWhile isNameChar).dropWhile Text.isBlank)
    else none
  | [] => none

/-- Reads an equals sign and the blanks behind it. -/
def equals? : List Char → Option (List Char)
  | '=' :: cs => some (cs.dropWhile Text.isBlank)
  | _ => none

/-- Reads the name of a line up to its value. The word `export` can be a name too. -/
def nameAndValue? (cs : List Char) : Option (String × List Char) := do
  let (name, rest) ← name? cs
  match equals? rest with
  | some value => return (name, value)
  | none =>
    guard (name = "export")
    let (name, rest) ← name? rest
    return (name, ← equals? rest)

/-- Reads a line: a variable and its value, or nothing in a line that says nothing. The values of
other variables are looked up for references. -/
def line? (value : String → String) (cs : List Char) : Option (Option (String × String)) :=
  match Text.trimmed Text.isBlank cs with
  | [] => some none
  | '#' :: _ => some none
  | cs =>
    match nameAndValue? cs with
    | none => none
    | some (name, []) => some (some (name, ""))
    | some (name, '#' :: _) => some (some (name, ""))
    | some (name, rest) =>
      ((rest.foldlM (ValueReader.step value) {}).bind (ValueReader.finish? value)).map fun v =>
        some (name, v)

/-- The environment with the variables of lines that it does not set, up to the first line that
cannot be read. A reference means what the environment says or else the last line about it. -/
def extendWith (env : Environment) (stored : List (String × String)) :
    List (List Char) → Environment
  | [] => env
  | cs :: rest =>
    let value (name : String) : String :=
      (env name).getD (((stored.find? fun s => s.1 = name).map (·.2)).getD "")
    match line? value cs with
    | none => env
    | some none => extendWith env stored rest
    | some (some (name, v)) =>
      -- a variable that is set keeps its value
      let wider : Environment := fun n => if n = name then some ((env n).getD v) else env n
      extendWith wider ((name, v) :: stored) rest

end EnvironmentFile

/-- **The environment with the variables of a file** that it does not set. -/
def Environment.extend (env : Environment) (file : String) : Environment :=
  EnvironmentFile.extendWith env [] (Text.pieces (· = '\n') file.toList)

end BlockRelay
