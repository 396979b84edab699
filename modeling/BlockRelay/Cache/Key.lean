import BlockRelay.Hex.Basic

/-!
# Keys of cached payloads

A payload is looked up by slot, proposer and block hash. `PayloadKey` is that triple in canonical
form, so every spelling of the same bytes addresses the same entry. In the store a key is one
text, the parts joined by colons behind a namespace of the cache's own (`PayloadKey.inStore`).
-/

namespace BlockRelay

/-- The parts of a key that are given as text. -/
inductive KeyPart where
  /-- The public key of the proposer. -/
  | proposer
  | block
deriving DecidableEq, Repr

/-- The name of a part in messages. -/
def KeyPart.name : KeyPart → String
  | .proposer => "proposer pubkey"
  | .block => "block hash"

/-- A key part that is no hexadecimal text. -/
structure KeyError where
  part : KeyPart
  cause : HexError
deriving DecidableEq, Repr

/-- The wording of a refused key. -/
def KeyError.message (e : KeyError) : String :=
  "invalid " ++ e.part.name ++ ": " ++ e.cause.message

/-- The canonical identity of a cached payload. -/
structure PayloadKey where
  /-- The slot that the block is for. -/
  slot : UInt64
  /-- The proposer, as canonical hexadecimal text. -/
  proposer : String
  /-- The block hash, as canonical hexadecimal text. -/
  block : String
deriving DecidableEq, Repr

namespace PayloadKey

/-- The key of texts in any casing, with or without a mark. The proposer is looked at first. -/
def ofTexts (slot : UInt64) (proposer block : String) : Except KeyError PayloadKey :=
  match Hex.normalize proposer with
  | .error cause => .error ⟨.proposer, cause⟩
  | .ok proposer =>
    match Hex.normalize block with
    | .error cause => .error ⟨.block, cause⟩
    | .ok block => .ok { slot, proposer, block }

/-- The key of bytes. -/
def ofBytes (slot : UInt64) (proposer : PublicKey) (block : Hash) : PayloadKey :=
  { slot, proposer := proposer.text, block := block.text }

/-- The parts joined by colons. -/
def text (k : PayloadKey) : String :=
  Text.Decimal.text k.slot.toNat ++ ":" ++ k.proposer ++ ":" ++ k.block

/-- **The text that addresses the entry in a store** shared by several namespaces. -/
def inStore (k : PayloadKey) (ns : String) : String := ns ++ ":cache-payload:" ++ k.text

end PayloadKey

/-- The text that a health check reads. It is never the address of a payload. -/
def healthKey (ns : String) : String := ns ++ ":health"

end BlockRelay
