import BlockRelay.Json.Reader
import BlockRelay.Json.Printer
import BlockRelay.Json.Fields

/-!
# Validator registrations

A proposer registers what it wants of blocks that others build for it: who is paid and how much
gas a block may use. It signs these preferences.
-/

namespace BlockRelay

/-- The preferences of a proposer. -/
structure Preferences where
  feeRecipient : Address
  /-- The most gas that a block may use. -/
  gasLimit : UInt64
  /-- When the preferences were stated; later ones replace earlier ones. -/
  timestamp : UInt64
  proposer : PublicKey
deriving DecidableEq

namespace Preferences

/-- The fields in declared order. -/
def names : List String := ["fee_recipient", "gas_limit", "timestamp", "pubkey"]

/-- Reads preferences. -/
def ofJson? (j : Json) : Option Preferences := do
  let [feeRecipient, gasLimit, timestamp, proposer] ← j.fields? names | none
  return {
    feeRecipient := ← Json.required? (Json.fixed? 20) feeRecipient
    gasLimit := ← Json.required? Json.uint64? gasLimit
    timestamp := ← Json.required? Json.uint64? timestamp
    proposer := ← Json.required? (Json.looseFixed? 48) proposer }

/-- Writes preferences. -/
def toJson (p : Preferences) : Json :=
  .obj [
    ("fee_recipient", .ofFixed p.feeRecipient),
    ("gas_limit", .ofUInt64 p.gasLimit),
    ("timestamp", .ofUInt64 p.timestamp),
    ("pubkey", .ofFixed p.proposer)]

end Preferences

/-- Signed preferences. -/
structure Registration where
  preferences : Preferences
  signature : Signature
deriving DecidableEq

namespace Registration

/-- The fields in declared order. -/
def names : List String := ["message", "signature"]

/-- Reads a registration. -/
def ofJson? (j : Json) : Option Registration := do
  let [preferences, signature] ← j.fields? names | none
  return {
    preferences := ← Json.required? Preferences.ofJson? preferences
    signature := ← Json.required? (Json.looseFixed? 96) signature }

/-- Writes a registration. -/
def toJson (r : Registration) : Json :=
  .obj [("message", r.preferences.toJson), ("signature", .ofFixed r.signature)]

/-- Reads the text of a registration. -/
def ofText? (s : String) : Option Registration := (Json.read? s).bind ofJson?

/-- The text of a registration. -/
def toText (r : Registration) : String := r.toJson.render

end Registration

end BlockRelay
