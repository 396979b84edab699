import BlockRelay.Toml.Value

/-!
# Reading TOML

`Toml.read?` reads a whole text: sections, each with a header and lines of keys and values. An
array or an inline table can hold others; the depth of these is bounded by the number of tokens,
every level uses up one of them.
-/

namespace BlockRelay.Toml

/-- What follows a run of blanks, if there is one. -/
def skipBlank : List Token → List Token
  | .blank _ :: ts => ts
  | ts => ts

/-- What follows blanks and line breaks. -/
def skipLines : List Token → List Token
  | .blank _ :: ts => skipLines ts
  | .newline :: ts => skipLines ts
  | ts => ts

/-- What follows a given token. -/
def expect? (t : Token) : List Token → Option (List Token)
  | u :: ts => if u = t then some ts else none
  | [] => none

/-- What follows the end of a line, or the end of the text. -/
def endOfLine? (ts : List Token) : Option (List Token) :=
  match skipBlank ts with
  | [] => some []
  | ts => expect? .newline ts

/-! ### Keys -/

/-- Reads one part of a key: a word or a string in single quotes of either kind. -/
def keyPart? : List Token → Option (String × List Token)
  | .word w :: ts => some (String.ofList w, ts)
  | .text cs false :: ts => some (String.ofList cs, ts)
  | _ => none

/-- Reads the parts of a key that follow others, each after a point. -/
def keyRest? : (fuel : Nat) → List Token → Option (List String × List Token)
  | 0, _ => none
  | fuel + 1, ts =>
    match skipBlank ts with
    | .period :: ts => do
      let (part, ts) ← keyPart? (skipBlank ts)
      let (parts, ts) ← keyRest? fuel ts
      return (part :: parts, ts)
    | ts => some ([], ts)

/-- Reads a key of one or more parts, and the blanks behind it. -/
def key? (ts : List Token) : Option (List String × List Token) := do
  let (part, ts) ← keyPart? ts
  let (parts, ts) ← keyRest? (ts.length + 1) ts
  return (part :: parts, ts)

/-! ### Values -/

mutual

/-- Reads a value. -/
def value? : (fuel : Nat) → List Token → Option (Toml × List Token)
  | 0, _ => none
  | fuel + 1, ts =>
    match ts with
    | .beginArray :: ts =>
      (items? fuel (skipLines ts)).map fun (items, ts) => (.array items, ts)
    | .beginTable :: ts =>
      match skipBlank ts with
      | .endTable :: ts => some (.table [], ts)
      | ts =>
        (pairs? fuel ts).bind fun (pairs, ts) =>
          (Table.ofPairs? pairs).map fun t => (.table (Table.closeAll t), ts)
    | ts => (scalar? ts).map fun (s, ts) => (.scalar s, ts)

/-- Reads the items of an array from an item or the end on. A comma can follow the last one, and
line breaks can stand anywhere. -/
def items? : (fuel : Nat) → List Token → Option (List Toml × List Token)
  | 0, _ => none
  | fuel + 1, ts =>
    match ts with
    | .endArray :: ts => some ([], ts)
    | ts =>
      (value? fuel ts).bind fun (x, ts) =>
        match skipLines ts with
        | .comma :: ts => (items? fuel (skipLines ts)).map fun (xs, ts) => (x :: xs, ts)
        | .endArray :: ts => some ([x], ts)
        | _ => none

/-- Reads the keys and values of an inline table up to its end. -/
def pairs? : (fuel : Nat) → List Token → Option (List (List String × Toml) × List Token)
  | 0, _ => none
  | fuel + 1, ts =>
    (key? ts).bind fun (key, ts) =>
      (expect? .equals ts).bind fun ts =>
        (value? fuel (skipBlank ts)).bind fun (x, ts) =>
          match skipBlank ts with
          | .endTable :: ts => some ([(key, x)], ts)
          | .comma :: ts =>
            (pairs? fuel (skipBlank ts)).map fun (pairs, ts) => ((key, x) :: pairs, ts)
          | _ => none

end

/-! ### Lines -/

/-- A line that means something. -/
inductive Line where
  /-- The header of a section, or of one more section of an array. -/
  | header (repeated : Bool) (path : List String)
  | pair (key : List String) (value : Toml)

/-- Reads a header, after its first bracket. -/
def header? (ts : List Token) : Option (Line × List Token) := do
  -- two brackets with nothing between them stand for an array of sections
  let (repeated, ts) := match ts with
    | .beginArray :: ts => (true, ts)
    | ts => (false, ts)
  let (path, ts) ← key? (skipBlank ts)
  let ts ← expect? .endArray ts
  let ts ← if repeated then expect? .endArray ts else some ts
  return (.header repeated path, ← endOfLine? ts)

/-- Reads a key and its value. -/
def pair? (ts : List Token) : Option (Line × List Token) := do
  let (key, ts) ← key? ts
  let ts ← expect? .equals ts
  let ts := skipBlank ts
  -- two steps for each token are enough
  let (value, ts) ← value? (2 * ts.length + 2) ts
  return (.pair key value, ← endOfLine? ts)

/-- Reads the lines of a text. -/
def lines? : (fuel : Nat) → List Token → Option (List Line)
  | 0, _ => none
  | fuel + 1, ts =>
    match skipLines ts with
    | [] => some []
    | .beginArray :: ts => do
      let (line, ts) ← header? ts
      return line :: (← lines? fuel ts)
    | ts => do
      let (line, ts) ← pair? ts
      return line :: (← lines? fuel ts)

/-! ### Sections -/

/-- A section: its header and its entries. -/
structure Section where
  /-- Whether it is one of an array. -/
  repeated : Bool
  /-- Where it belongs; nowhere for the entries in front of all headers. -/
  path : List String
  entries : Table

/-- Finishes a section: its entries take their place among those of the whole text. -/
def Section.close (s : Section) (whole : Table) : Option Table :=
  if s.path = [] then s.entries.foldlM Table.add whole
  else Table.openSection s.repeated s.entries s.path whole

/-- Puts lines into the section that is open and those that follow it. -/
def gather (whole : Table) (current : Section) : List Line → Option Table
  | [] => current.close whole
  | .header repeated path :: lines =>
    (current.close whole).bind fun whole => gather whole ⟨repeated, path, []⟩ lines
  | .pair key value :: lines =>
    (current.entries.put value key).bind fun entries => gather whole { current with entries } lines

/-- **Reads a text.** It is always a table. -/
def read? (s : String) : Option (List (String × Toml)) := do
  let ts ← scan s
  let lines ← lines? (ts.length + 1) ts
  return Table.closeAll (← gather [] ⟨false, [], []⟩ lines)

end BlockRelay.Toml
