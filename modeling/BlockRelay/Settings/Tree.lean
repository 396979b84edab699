import BlockRelay.Json.Reader
import BlockRelay.Text.Escaped
import BlockRelay.Text.Pieces
import BlockRelay.Toml.Reader

/-!
# Configuration trees

A configuration file is a tree of tables, lists and scalars, whatever its format (`ConfigValue`).
Scalars are converted to what a field needs: numbers to text, text to numbers and truth values,
and so on. Tables and lists are never converted.

A key at the top of a file can be a path, with points between its parts, and then stands for
tables inside tables.
-/

namespace BlockRelay

/-- A value of a configuration file. -/
inductive ConfigValue where
  | null
  | bool (b : Bool)
  | integer (n : Int64)
  | real (x : Double)
  | text (s : String)
  | list (items : List ConfigValue)
  | table (entries : List (String × ConfigValue))

/-- Why a configuration cannot be used. -/
inductive ConfigError where
  /-- There is no such file, or its format is not known. -/
  | notFound
  /-- The file is not of its format. -/
  | malformed
  /-- A value cannot be converted to what the field needs. -/
  | unconvertible
  /-- Something else was found where a table or a list must be. -/
  | wrongShape (found expected : String)
  /-- A list of fields ends too early. -/
  | tooShort (given : Nat) (expected : String)
  /-- A field that must be there is missing. -/
  | missingField (name : String)
  /-- A value is none of the names that it can be. -/
  | unknownName (kind given : String)
  /-- A value that must be a name has another form. -/
  | noName (kind : String)
deriving DecidableEq, Repr

namespace ConfigError

/-- The wording of an error, if it has one of its own: what is wrong with a file or a scalar is
worded by its reader. -/
def message? : ConfigError → Option String
  | .notFound | .malformed | .unconvertible => none
  | .wrongShape found expected => some ("invalid type: " ++ found ++ ", expected " ++ expected)
  | .tooShort given expected =>
    some ("invalid length " ++ Text.Decimal.text given ++ ", expected " ++ expected)
  | .missingField name => some ("missing field \x60" ++ name ++ "\x60")
  | .unknownName kind given =>
    some ("enum " ++ kind ++ " does not have variant constructor " ++ given)
  | .noName kind => some ("value of enum " ++ kind ++
      " should be represented by either string or table with exactly one key")

end ConfigError

/-- The text of a double-precision value. -/
def Double.text : Double → String
  | .finite x => x.text
  | .infinite false => "inf"
  | .infinite true => "-inf"
  | .notANumber => "NaN"

/-- The text of a value with a point in it, unless it is not finite. -/
def Double.pointedText (x : Double) : String :=
  match x with
  | .finite y => if '.' ∈ y.chars then y.text else y.text ++ ".0"
  | x => x.text

namespace ConfigValue

/-! ### Trees from formats -/

mutual

/-- The tree of a JSON value. An integer beyond 64 bits with a sign is rounded. -/
def ofJson : Json → ConfigValue
  | .null => .null
  | .bool b => .bool b
  | .int n =>
    if n < 0x8000000000000000 then .integer (.ofInt n)
    else ((Binary64.ofScientific? ⟨false, n.toNat, 0⟩).map fun x => .real (.finite x)).getD .null
  | .real x => .real (.finite x)
  | .str s => .text s
  | .arr xs => .list (ofJsonItems xs)
  | .obj fields => .table (ofJsonFields fields)
  | .unreadable => .null

/-- The trees of items. -/
def ofJsonItems : List Json → List ConfigValue
  | [] => []
  | x :: xs => ofJson x :: ofJsonItems xs

/-- The trees of fields. -/
def ofJsonFields : List (String × Json) → List (String × ConfigValue)
  | [] => []
  | (name, x) :: fields => (name, ofJson x) :: ofJsonFields fields

end

/-- The tree of a scalar; a date is a text. -/
def ofScalar : Toml.Scalar → ConfigValue
  | .text s => .text s
  | .integer n => .integer n
  | .real x => .real x
  | .boolean b => .bool b
  | .moment m => .text (String.ofList m.chars)

mutual

/-- The tree of a TOML value. -/
def ofToml : Toml → ConfigValue
  | .scalar s => ofScalar s
  | .array items => .list (ofTomlItems items)
  | .table entries => .table (ofTomlEntries entries)

/-- The trees of items. -/
def ofTomlItems : List Toml → List ConfigValue
  | [] => []
  | x :: xs => ofToml x :: ofTomlItems xs

/-- The trees of entries. -/
def ofTomlEntries : List (String × Toml) → List (String × ConfigValue)
  | [] => []
  | (key, x) :: entries => (key, ofToml x) :: ofTomlEntries entries

end

/-! ### Paths -/

/-- The entries of a table; none for anything else. -/
def entries : ConfigValue → List (String × ConfigValue)
  | .table entries => entries
  | _ => []

/-- Gives a key the value that a function makes of its present one. -/
def update (key : String) (f : ConfigValue → ConfigValue) :
    List (String × ConfigValue) → List (String × ConfigValue)
  | [] => [(key, f .null)]
  | (k, v) :: rest => if k = key then (k, f v) :: rest else (k, v) :: update key f rest

mutual

/-- A value laid over another: tables entry by entry, all else replaces what was there. -/
def overlay (old : ConfigValue) : ConfigValue → ConfigValue
  | .table new => .table (overlayEntries old.entries new)
  | v => v

/-- Entries laid over others. -/
def overlayEntries (old : List (String × ConfigValue)) :
    List (String × ConfigValue) → List (String × ConfigValue)
  | [] => old
  | (key, v) :: rest => overlayEntries (update key (fun old => overlay old v) old) rest

end

/-- The characters of the parts of a path. -/
def isPathChar (c : Char) : Bool := c = ' ' || Toml.isWordChar c

/-- The path that a key at the top stands for; a key that is no path stands for itself. -/
def pathOf (key : String) : List String :=
  let parts := Text.pieces (· = '.') key.toList
  if parts.all fun p => !p.isEmpty && p.all isPathChar then parts.map String.ofList else [key]

/-- Lays a value over what stands at a path. -/
def place (v : ConfigValue) : List String → List (String × ConfigValue) →
    List (String × ConfigValue)
  | [], t => t
  | [key], t => update key (fun old => overlay old v) t
  | key :: rest, t => update key (fun old => .table (place v rest old.entries)) t

/-- The tree of a file, with the keys at its top taken as paths. -/
def unfold (file : List (String × ConfigValue)) : ConfigValue :=
  .table (file.foldl (fun t (key, v) => place v (pathOf key) t) [])

/-! ### Scalars -/

/-- What a message says was found. -/
def described : ConfigValue → String
  | .null => "unit value"
  | .bool b => "boolean \x60" ++ (if b then "true" else "false") ++ "\x60"
  | .integer n => "integer \x60" ++ String.ofList (Text.Decimal.ofInt n.toInt) ++ "\x60"
  | .real x => "floating point \x60" ++ x.pointedText ++ "\x60"
  | .text s => "string " ++ Text.quotedText s
  | .list _ => "sequence"
  | .table _ => "map"

/-- The words for truth and falsity, in any casing. -/
def truthOf? (s : String) : Option Bool :=
  let word := String.ofList (s.toList.map Char.toLower)
  if word ∈ ["true", "on", "yes"] then some true
  else if word ∈ ["false", "off", "no"] then some false
  else none

/-- The text of a scalar. -/
def asText : ConfigValue → Except ConfigError String
  | .text s => .ok s
  | .bool b => .ok (if b then "true" else "false")
  | .integer n => .ok (String.ofList (Text.Decimal.ofInt n.toInt))
  | .real x => .ok x.text
  | _ => .error .unconvertible

/-- The truth value of a scalar: of numbers, all but zero are true. -/
def asBool : ConfigValue → Except ConfigError Bool
  | .bool b => .ok b
  | .integer n => .ok (n != 0)
  | .real (.finite x) => .ok (x.mantissa != 0)
  | .real _ => .ok true
  | .text s =>
    if s = "1" then .ok true
    else if s = "0" then .ok false
    else match truthOf? s with
      | some b => .ok b
      | none => .error .unconvertible
  | _ => .error .unconvertible

/-- The natural number below `2 ^ 64` that is nearest to a double-precision value. -/
def nearest : Double → UInt64
  | .finite x =>
    let n := x.round
    if n < 0 then 0 else if 0x10000000000000000 ≤ n then 0xFFFFFFFFFFFFFFFF else UInt64.ofNat n.toNat
  | .infinite negative => if negative then 0 else 0xFFFFFFFFFFFFFFFF
  | .notANumber => 0

/-- The natural number of a scalar. -/
def asUInt64 : ConfigValue → Except ConfigError UInt64
  | .integer n => if n < 0 then .error .unconvertible else .ok n.toInt.toNat.toUInt64
  | .bool b => .ok (if b then 1 else 0)
  | .real x => .ok (nearest x)
  | .text s =>
    match truthOf? s with
    | some b => .ok (if b then 1 else 0)
    | none =>
      match Text.Decimal.toUInt64? s.toList with
      | some n => .ok n
      | none => .error .unconvertible
  | _ => .error .unconvertible

/-- The last 32 bits of the natural number of a scalar. -/
def asUInt32 (v : ConfigValue) : Except ConfigError UInt32 := v.asUInt64.map UInt64.toUInt32

/-! ### Records -/

/-- The items of a list, each converted in the same way. -/
def asList {α : Type} (read : ConfigValue → Except ConfigError α) :
    ConfigValue → Except ConfigError (List α)
  | .list items => items.mapM read
  | v => .error (.wrongShape v.described "a sequence")

/-- One of several names: a text, or a table with the name as its only key. -/
def asName {α : Type} (kind : String) (ofName? : String → Option α) :
    ConfigValue → Except ConfigError α
  | .text s => found s
  | .table [(s, _)] => found s
  | _ => .error (.noName kind)
where
  found (s : String) : Except ConfigError α :=
    match ofName? s with
    | some a => .ok a
    | none => .error (.unknownName kind s)

/-- The fields of a record in declared order: of a table by their names, of a list by their
places. Everything else in the table or list is skipped. -/
def fields (record : String) (names : List String) :
    ConfigValue → Except ConfigError (List (Option ConfigValue))
  | .table entries =>
    .ok (names.map fun n => (entries.find? fun e => e.1 = n).map (·.2))
  | .list items => .ok ((List.range names.length).map fun i => items[i]?)
  | v => .error (.wrongShape v.described ("struct " ++ record))

/-- A field that takes a given value when it is absent. -/
def fieldOr {α : Type} (absent : α) (read : ConfigValue → Except ConfigError α) :
    Option ConfigValue → Except ConfigError α
  | none => .ok absent
  | some v => read v

end ConfigValue

end BlockRelay
