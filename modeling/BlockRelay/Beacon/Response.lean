import BlockRelay.Failure
import BlockRelay.Json.Fields
import BlockRelay.Json.Reader
import BlockRelay.Json.Printer

/-!
# Answers of beacon nodes

A beacon node lists the validators it knows as JSON. `validatorsOf` interprets an answer: a
status below 300 carries the list, which is taken whole or not at all; any other status carries
the node's own error. What cannot be read is shown in the failure as an excerpt of the body.
-/

namespace BlockRelay

/-- A validator as a beacon node lists it. -/
structure ListedValidator where
  index : Option UInt64
  status : Option String
  /-- Its public key, as the node spells it. -/
  pubkey : String
deriving DecidableEq, Repr

namespace ListedValidator

/-- The fields in declared order. -/
def names : List String := ["index", "status", "validator"]

/-- An index is a number, or the text of one. -/
def index? : Json → Option UInt64
  | .str s => Text.Decimal.toUInt64? s.toList
  | j => j.uint64?

/-- The public key stands in a record of its own. -/
def pubkey? (j : Json) : Option String := do
  let [pubkey] ← j.fields? ["pubkey"] | none
  Json.required? Json.text? pubkey

/-- Reads a listed validator. -/
def ofJson? (j : Json) : Option ListedValidator := do
  let [index, status, validator] ← j.fields? names | none
  return {
    index := ← Json.optional? index? index
    status := ← Json.optional? Json.text? status
    pubkey := ← Json.required? pubkey? validator }

/-- Writes a listed validator. -/
def toJson (v : ListedValidator) : Json :=
  .obj [
    ("index", v.index.elim .null .ofUInt64),
    ("status", v.status.elim .null .str),
    ("validator", .obj [("pubkey", .str v.pubkey)])]

end ListedValidator

/-! ### Excerpts -/

/-- The most bytes of a body that a message shows. -/
def excerptSize : Nat := 256

/-- The longest beginning of a text that has at most `n` bytes. -/
def takeBytes : Nat → List Char → List Char
  | _, [] => []
  | n, c :: cs => if c.utf8Size ≤ n then c :: takeBytes (n - c.utf8Size) cs else []

/-- **What a message shows of a body:** all of it, or its beginning and three points. -/
def excerpt (body : Bytes) : String :=
  let text := Text.Utf8.lossy body
  if Text.Utf8.size text ≤ excerptSize then String.ofList text
  else
    -- the cut goes back from the most that is shown to the end of a character
    let cut := Text.Utf8.lastBoundary (Text.Utf8.encode text) excerptSize
    String.ofList (takeBytes cut text ++ ['.', '.', '.'])

/-! ### Answers -/

/-- The list that a successful answer carries. -/
def listOf? (body : Bytes) : Option (List ListedValidator) := do
  let j ← Json.readBytes? body
  let [data] ← j.fields? ["data"] | none
  Json.required? (Json.list? ListedValidator.ofJson?) data

/-- The code and message that an unsuccessful answer carries. -/
def nodeErrorOf? (body : Bytes) : Option (Int64 × String) := do
  let j ← Json.readBytes? body
  let [code, message] ← j.fields? ["code", "message"] | none
  return (← Json.required? Json.int64? code, ← Json.required? Json.text? message)

/-- **The validators of an answer.** -/
def validatorsOf (url : String) (status : Nat) (body : Bytes) :
    Except BeaconError (List ListedValidator) :=
  if 300 ≤ status then
    match nodeErrorOf? body with
    | some (code, message) => .error (.badResponse code message)
    | none =>
      .error (.decode url ("could not unmarshal error response (status " ++
        Text.Decimal.text status ++ ") from " ++ excerpt body ++ ": " ++ jsonComplaint))
  else
    match listOf? body with
    | some list => .ok list
    | none =>
      .error (.decode url
        ("could not unmarshal response from " ++ excerpt body ++ ": " ++ jsonComplaint))

end BlockRelay
