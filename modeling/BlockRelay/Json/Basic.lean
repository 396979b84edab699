import BlockRelay.Number.Binary64

/-!
# JSON values

`Json` is what a JSON text says. Fields keep their order and may repeat, since readers of
records have rules about both. A literal can be well-formed and still have no value: a string
with half of a surrogate pair or with ill-formed bytes, or a number that no double reaches.
Such a part is `unreadable`; it may stand where it is skipped and nowhere else.

A *free* value (`Json.free?`) is one that is kept as it is: readable throughout, nested no
deeper than a limit, with the fields of every object sorted and the last of equal names kept.
-/

namespace BlockRelay

/-- A JSON value. -/
inductive Json where
  | null
  | bool (b : Bool)
  /-- A number written without fraction and exponent, between `-2^63` and `2^64 - 1`. -/
  | int (n : Int)
  /-- Any other number that a double reaches. -/
  | real (x : Binary64)
  | str (s : String)
  | arr (xs : List Json)
  /-- An object: its fields in order, names possibly repeated. -/
  | obj (fields : List (String × Json))
  /-- A well-formed literal without a value. -/
  | unreadable
deriving Inhabited, Repr, BEq

namespace Json

mutual

/-- How many arrays and objects lie around the innermost part. -/
def depth : Json → Nat
  | .arr xs => depthItems xs + 1
  | .obj fields => depthFields fields + 1
  | _ => 0

/-- The greatest depth of an item. -/
def depthItems : List Json → Nat
  | [] => 0
  | x :: xs => max (depth x) (depthItems xs)

/-- The greatest depth of a field's value. -/
def depthFields : List (String × Json) → Nat
  | [] => 0
  | (_, x) :: fields => max (depth x) (depthFields fields)

end

mutual

/-- Whether every part has a value. -/
def readable : Json → Bool
  | .arr xs => readableItems xs
  | .obj fields => readableFields fields
  | .unreadable => false
  | _ => true

/-- Whether every item is readable. -/
def readableItems : List Json → Bool
  | [] => true
  | x :: xs => readable x && readableItems xs

/-- Whether every field's value is readable. -/
def readableFields : List (String × Json) → Bool
  | [] => true
  | (_, x) :: fields => readable x && readableFields fields

end

/-- Puts a field into a list sorted by name; a field of that name is replaced. -/
def insertField (name : String) (x : Json) : List (String × Json) → List (String × Json)
  | [] => [(name, x)]
  | (n, y) :: fields =>
    if name = n then (name, x) :: fields
    else if name < n then (name, x) :: (n, y) :: fields
    else (n, y) :: insertField name x fields

mutual

/-- The value with the fields of every object sorted by name, the last of equal names kept. -/
def sorted : Json → Json
  | .arr xs => .arr (sortedItems xs)
  | .obj fields => .obj (sortedFields fields [])
  | j => j

/-- The items, each sorted. -/
def sortedItems : List Json → List Json
  | [] => []
  | x :: xs => sorted x :: sortedItems xs

/-- The fields put one after the other into a sorted list. -/
def sortedFields : List (String × Json) → List (String × Json) → List (String × Json)
  | [], done => done
  | (n, x) :: fields, done => sortedFields fields (insertField n (sorted x) done)

end

/-- The greatest depth of a value that is kept. -/
def maxDepth : Nat := 127

/-- **A value to be kept,** found below `outer` other containers. -/
def free? (outer : Nat) (j : Json) : Option Json :=
  if j.readable ∧ j.depth + outer ≤ maxDepth then some j.sorted else none

/-- The value of a field, the last one of that name. -/
def field? (name : String) : Json → Option Json
  | .obj fields => (fields.reverse.find? fun f => f.1 = name).map (·.2)
  | _ => none

end Json

end BlockRelay
