import BlockRelay.Toml.Scalar

/-!
# TOML values and tables

`Toml` is what a TOML text says. While a table is being put together it matters how its parts
came to be, so the parts are nodes (`Node`): a table of dotted keys can be extended by other
dotted keys of the same section only, a section can be stated once, and an array of sections
grows by one with every header. `Table.put` adds a value and `Table.openSection` a section; both
refuse what has a meaning already.
-/

namespace BlockRelay

/-- A TOML value. -/
inductive Toml where
  | scalar (s : Toml.Scalar)
  | array (items : List Toml)
  /-- A table: keys and their values. -/
  | table (entries : List (String × Toml))

namespace Toml

/-- What a key means, in a table that is being put together. -/
inductive Node where
  /-- A value, which cannot be extended. -/
  | value (v : Toml)
  /-- A table made by dotted keys. -/
  | dotted (entries : List (String × Node))
  /-- A section, and whether it has had a header of its own. -/
  | group (stated : Bool) (entries : List (String × Node))
  /-- An array of sections, the last one first. -/
  | groups (last : List (String × Node)) (before : List (List (String × Node)))

/-- A table that is being put together. -/
abbrev Table := List (String × Node)

namespace Table

/-- Gives a key a meaning that depends on the one it has. -/
def update (key : String) (f : Option Node → Option Node) : Table → Option Table
  | [] => (f none).map fun n => [(key, n)]
  | (k, n) :: rest =>
    if k = key then (f (some n)).map fun n => (k, n) :: rest
    else (update key f rest).map ((k, n) :: ·)

/-- Adds a key that is not there yet. -/
def add (t : Table) (entry : String × Node) : Option Table :=
  t.update entry.1 fun
    | none => some entry.2
    | some _ => none

/-- **Puts a value under a dotted key.** -/
def put (v : Toml) : List String → Table → Option Table
  | [], _ => none
  | [key], t => t.add (key, .value v)
  | key :: rest, t =>
    t.update key fun
      | none => (put v rest []).map .dotted
      | some (.dotted entries) => (put v rest entries).map .dotted
      | some _ => none

/-- The table of dotted keys and values. -/
def ofPairs? (pairs : List (List String × Toml)) : Option Table :=
  pairs.foldlM (fun t (key, v) => t.put v key) []

/-- **Opens a section:** puts its entries where a header points to. On the way there, an array of
sections stands for its last one. -/
def openSection (array : Bool) (entries : Table) : List String → Table → Option Table
  | [], _ => none
  | [key], t =>
    t.update key fun
      | none => some (if array then .groups entries [] else .group true entries)
      -- a section that was only passed on the way to others can still be stated
      | some (.group false old) =>
        if array then none else (entries.foldlM add old).map (.group true)
      | some (.groups last before) =>
        if array then some (.groups entries (last :: before)) else none
      | some _ => none
  | key :: rest, t =>
    t.update key fun
      | none => (openSection array entries rest []).map (.group false)
      | some (.group stated old) => (openSection array entries rest old).map (.group stated)
      | some (.groups last before) =>
        (openSection array entries rest last).map fun last => .groups last before
      | some _ => none

mutual

/-- The value of a node. -/
def close : Node → Toml
  | .value v => v
  | .dotted entries => .table (closeAll entries)
  | .group _ entries => .table (closeAll entries)
  | .groups last before => .array (closeEach before [.table (closeAll last)])

/-- The values of the entries of a table. -/
def closeAll : List (String × Node) → List (String × Toml)
  | [] => []
  | (key, n) :: rest => (key, close n) :: closeAll rest

/-- The values of sections, the last one first, in front of those that are closed. -/
def closeEach : List (List (String × Node)) → List Toml → List Toml
  | [], done => done
  | t :: before, done => closeEach before (.table (closeAll t) :: done)

end

end Table

end Toml

end BlockRelay
