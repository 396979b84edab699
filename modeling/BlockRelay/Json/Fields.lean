import BlockRelay.Hex.Basic
import BlockRelay.Json.Basic

/-!
# Records in JSON

How records are read from JSON and written to it. A record is an object with its fields in any
order, or an array with the fields in declared order. Of an object, fields that are not declared
are skipped, whatever they hold, and a declared field may not come twice; of an array, fields may
be missing only at the end. `fields?` states that rule once; the readers below it take one value
each, and every one has its writer beside it.

Main statements: what a writer wrote its reader reads back (`uint64?_ofUInt64`,
`bytes?_ofBytes`).
-/

namespace BlockRelay

/-- A byte string of any length. -/
abbrev Bytes := List UInt8

/-- An unsigned number of 256 bits: an amount or a fee. -/
abbrev Word256 := BitVec 256

namespace Json

/-- The declared fields of a record, in declared order, with `none` for an absent one. -/
def fields? (names : List String) : Json → Option (List (Option Json))
  | .obj fields =>
    if names.all fun n => (fields.filter fun f => f.1 = n).length ≤ 1 then
      some (names.map fun n => (fields.find? fun f => f.1 = n).map (·.2))
    else none
  | .arr xs =>
    if xs.length ≤ names.length then
      some (xs.map some ++ List.replicate (names.length - xs.length) none)
    else none
  | _ => none

/-- A field that must be there. -/
def required? {α : Type} (read : Json → Option α) (field : Option Json) : Option α :=
  field.bind read

/-- A field that may be absent or null. -/
def optional? {α : Type} (read : Json → Option α) : Option Json → Option (Option α)
  | none => some none
  | some .null => some none
  | some j => (read j).map some

/-- A field that takes a given value when it is absent. -/
def fieldOr? {α : Type} (absent : α) (read : Json → Option α) : Option Json → Option α
  | none => some absent
  | some j => read j

/-! ### Scalars -/

/-- A string. -/
def text? : Json → Option String
  | .str s => some s
  | _ => none

/-- A truth value. -/
def bool? : Json → Option Bool
  | .bool b => some b
  | _ => none

/-- One of several names: a string, or an object with the name and null. -/
def named? {α : Type} (ofName? : String → Option α) : Json → Option α
  | .str s => ofName? s
  | .obj [(s, .null)] => ofName? s
  | _ => none

/-- A natural number below `2 ^ 64`. -/
def uint64? : Json → Option UInt64
  | .int n => if 0 ≤ n ∧ n < 0x10000000000000000 then some (UInt64.ofNat n.toNat) else none
  | _ => none

/-- A written natural number. -/
def ofUInt64 (n : UInt64) : Json := .int n.toNat

@[simp] theorem uint64?_ofUInt64 (n : UInt64) : uint64? (ofUInt64 n) = some n := by
  have h : n.toNat < 2 ^ 64 := n.toNat_lt
  have : (n.toNat : Int) < 2 ^ 64 := by omega
  simp [uint64?, ofUInt64]
  omega

/-- A natural number below `2 ^ 32`. -/
def uint32? : Json → Option UInt32
  | .int n => if 0 ≤ n ∧ n < 0x100000000 then some (UInt32.ofNat n.toNat) else none
  | _ => none

/-- An integer of 64 bits with a sign. -/
def int64? : Json → Option Int64
  | .int n => if -0x8000000000000000 ≤ n ∧ n < 0x8000000000000000 then some (Int64.ofInt n) else none
  | _ => none

/-- A written integer. -/
def ofInt64 (n : Int64) : Json := .int n.toInt

/-- The items of an array, each read in the same way. -/
def list? {α : Type} (read : Json → Option α) : Json → Option (List α)
  | .arr xs => xs.mapM read
  | _ => none

/-! ### Hexadecimal strings -/

/-- Exactly `n` bytes, with an optional `0x`. Gaps take the place of digits, and the bytes that
are missing then are zeros at the end. -/
def fixed? (n : Nat) : Json → Option (FixedBytes n)
  | .str s =>
    let cs := Hex.dropLowerMark s.toList
    if cs.length = 2 * n then
      (Hex.pairedDigits? cs).map fun ds => FixedBytes.padded n (Hex.ofPairs ds)
    else none
  | _ => none

/-- Written fixed bytes. -/
def ofFixed {n : Nat} (b : FixedBytes n) : Json := .str b.text

/-- Exactly `n` bytes, with an optional mark of either case, between blanks. -/
def looseFixed? (n : Nat) : Json → Option (FixedBytes n)
  | .str s => (FixedBytes.parse n s).toOption
  | _ => none

/-- Any number of bytes, with an optional mark of either case. -/
def bytes? : Json → Option Bytes
  | .str s => Hex.bytes? (Hex.dropMark s.toList)
  | _ => none

/-- Written bytes. -/
def ofBytes (bs : Bytes) : Json := .str (String.ofList ('0' :: 'x' :: Hex.encode bs))

@[simp] theorem bytes?_ofBytes (bs : Bytes) : bytes? (ofBytes bs) = some bs := by
  simp [bytes?, ofBytes, Hex.dropMark, Hex.bytes?_encode]

/-- A number of one to sixty-four hexadecimal digits, with an optional `0x`; gaps may take the
place of digits. -/
def word256? : Json → Option Word256
  | .str s =>
    let cs := Hex.dropLowerMark s.toList
    if cs.isEmpty ∨ 64 < cs.length then none
    else (Hex.pairedDigits? cs).map fun ds => BitVec.ofNat 256 (Hex.ofDigits ds)
  | _ => none

/-- A written number: no leading zeros. -/
def ofWord256 (w : Word256) : Json := .str (String.ofList ('0' :: 'x' :: Hex.ofNat w.toNat))

end Json

end BlockRelay
