import BlockRelay.Json.Fields

/-!
# Execution payloads

An execution payload is the body of a block. Which fields a body has depends on the fork that
its block belongs to: withdrawals exist from capella on, blob gas from deneb on, and the forks
before bellatrix have no body at all. `Payload` is a body tagged with its fork, and
`Payload.check` says whether the two agree.
-/

namespace BlockRelay

/-- The forks of the consensus chain. -/
inductive Fork where
  | phase0
  | altair
  | bellatrix
  | capella
  | deneb
deriving DecidableEq, Repr

namespace Fork

/-- The name of a fork. -/
def name : Fork → String
  | .phase0 => "phase0"
  | .altair => "altair"
  | .bellatrix => "bellatrix"
  | .capella => "capella"
  | .deneb => "deneb"

/-- All forks, oldest first. -/
def all : List Fork := [.phase0, .altair, .bellatrix, .capella, .deneb]

/-- The fork of a name. -/
def ofName? (s : String) : Option Fork := all.find? fun f => f.name = s

@[simp] theorem ofName?_name (f : Fork) : ofName? f.name = some f := by
  cases f <;> decide

/-- Whether blocks of the fork have an execution payload. -/
def hasPayload : Fork → Bool
  | .phase0 | .altair => false
  | .bellatrix | .capella | .deneb => true

end Fork

/-- A withdrawal from the stake of a validator. -/
structure Withdrawal where
  /-- The running number of the withdrawal. -/
  index : UInt64
  validatorIndex : UInt64
  address : Address
  amount : UInt64
deriving DecidableEq

/-- The body of a block. -/
structure PayloadBody where
  /-- The hash of the block before. -/
  parentHash : Hash
  feeRecipient : Address
  /-- The root of the state after the block. -/
  stateRoot : Hash
  receiptsRoot : Hash
  logsBloom : FixedBytes 256
  /-- The randomness of the slot before. -/
  prevRandao : Hash
  blockNumber : UInt64
  /-- The most gas that the block may use. -/
  gasLimit : UInt64
  /-- The gas that the block uses. -/
  gasUsed : UInt64
  timestamp : UInt64
  extraData : Bytes
  baseFeePerGas : Word256
  blockHash : Hash
  transactions : List Bytes
  withdrawals : Option (List Withdrawal)
  /-- The blob gas that the block uses, from deneb on. -/
  blobGasUsed : Option UInt64
  /-- The blob gas in excess of the target, from deneb on. -/
  excessBlobGas : Option UInt64
deriving DecidableEq

/-- A body, or none yet, tagged with the fork of its block. -/
structure Payload where
  fork : Fork
  body : Option PayloadBody
deriving DecidableEq

/-- Why a payload cannot be served. -/
inductive PayloadError where
  /-- There is no body, or its block hash is zero. -/
  | empty
  /-- Blocks of the fork have no payload. -/
  | unsupported (fork : Fork)
  /-- The body lacks a field of its fork or has one of a later fork. -/
  | shape (fork : Fork)
deriving DecidableEq, Repr

/-- The wording of a refusal. -/
def PayloadError.message : PayloadError → String
  | .empty => "empty execution payload"
  | .unsupported fork => "unsupported payload version: " ++ fork.name
  | .shape fork => "payload fields do not match fork " ++ fork.name

namespace PayloadBody

/-- Whether a body has the fields of a fork and none of a later one. -/
def fits (b : PayloadBody) : Fork → Bool
  | .phase0 | .altair => false
  | .bellatrix => b.withdrawals.isNone && b.blobGasUsed.isNone && b.excessBlobGas.isNone
  | .capella => b.withdrawals.isSome && b.blobGasUsed.isNone && b.excessBlobGas.isNone
  | .deneb => b.withdrawals.isSome && b.blobGasUsed.isSome && b.excessBlobGas.isSome

end PayloadBody

namespace Payload

/-- The body of a payload that can be served: a fork that has one, a body with a block hash, and
exactly the fields of the fork. The causes are looked for in this order. -/
def check (p : Payload) : Except PayloadError PayloadBody :=
  if p.fork.hasPayload then
    match p.body with
    | none => .error .empty
    | some b =>
      if b.blockHash.isZero then .error .empty
      else if b.fits p.fork then .ok b
      else .error (.shape p.fork)
  else .error (.unsupported p.fork)

/-- The number of transactions; none without a body. -/
def transactionCount (p : Payload) : Nat := p.body.elim 0 fun b => b.transactions.length

/-- The block hash of the body, if there is one. -/
def blockHash? (p : Payload) : Option Hash := p.body.map (·.blockHash)

end Payload

end BlockRelay
