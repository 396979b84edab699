import BlockRelay.Bid.Submission
import BlockRelay.Cache.Store

/-!
# The cache of payloads

Builders submit payloads, and the proposer that signs the matching header fetches them. The
cache checks a payload before it is written and after it is read, and addresses entries by
canonical keys, so that a caller sees the last payload saved for a triple while it lives, and
nothing otherwise. A miss and an expired entry are the same to callers.

Every operation is a program over a store (`StoreProgram`); each makes one call, or none when
its input is refused.
-/

namespace BlockRelay

/-- Where a cache keeps its entries, and for how long. -/
structure PayloadCache where
  /-- What every key begins with, so that several relays can share a store. -/
  ns : String
  /-- How long an entry lives after it was written. -/
  ttl : Span
deriving DecidableEq, Repr

namespace PayloadCache

/-- The namespace of a cache that is given none. -/
def defaultNamespace : String := "boost-relay"

/-- The lifetime of entries of a cache that is given none. -/
def defaultTtlSeconds : UInt64 := 45

/-- A cache with the usual settings. -/
def standard : PayloadCache := ⟨defaultNamespace, .seconds defaultTtlSeconds.toNat⟩

/-- The address of a triple in the store. -/
def keyText (c : PayloadCache) (slot : UInt64) (proposer block : String) :
    Except CacheError String :=
  match PayloadKey.ofTexts slot proposer block with
  | .error e => .error (.key e)
  | .ok key => .ok (key.inStore c.ns)

/-- What a call that answers nothing says about the store. -/
def acknowledged : StoreAnswer → Except CacheError Unit
  | .ok _ => .ok ()
  | .error e => .error (.store e)

/-- Writes a payload that has been checked. -/
def saveChecked (c : PayloadCache) (key : PayloadKey) (p : Payload) :
    StoreProgram (Except CacheError Unit) :=
  .call (.set (key.inStore c.ns) p.toBytes c.ttl) fun answer => .done (acknowledged answer)

/-- **Saves a payload** under a triple. The payload is looked at before the key. -/
def save (c : PayloadCache) (slot : UInt64) (proposer block : String) (p : Payload) :
    StoreProgram (Except CacheError Unit) :=
  match p.check with
  | .error e => .done (.error (.payload e))
  | .ok _ =>
    match PayloadKey.ofTexts slot proposer block with
    | .error e => .done (.error (.key e))
    | .ok key => c.saveChecked key p

/-- **Saves the payload of a submission** under the triple of its trace. -/
def saveSubmission (c : PayloadCache) (s : Submission) :
    StoreProgram (Except CacheError Payload) :=
  match s.payload with
  | .error e => .done (.error (.payload e))
  | .ok p =>
    (c.saveChecked (.ofBytes s.trace.slot s.trace.proposer s.trace.blockHash) p).bind fun
      | .ok () => .done (.ok p)
      | .error e => .done (.error e)

/-- What cached bytes hold: a payload that can be served, or the reason why not. -/
def decode (key : String) (bytes : Bytes) : Except CacheError Payload :=
  match Payload.ofBytes? bytes with
  | none => .error (.decode key jsonComplaint)
  | some p =>
    match p.check with
    | .ok _ => .ok p
    | .error e => .error (.decode key e.message)

/-- Reads the payload of a key. -/
def getByKey (c : PayloadCache) (key : PayloadKey) :
    StoreProgram (Except CacheError (Option Payload)) :=
  let address := key.inStore c.ns
  .call (.get address) fun
    | .error e => .done (.error (.store e))
    | .ok none => .done (.ok none)
    | .ok (some bytes) => .done ((decode address bytes).map some)

/-- **Reads the payload of a triple,** if one is cached. -/
def get (c : PayloadCache) (slot : UInt64) (proposer block : String) :
    StoreProgram (Except CacheError (Option Payload)) :=
  match PayloadKey.ofTexts slot proposer block with
  | .error e => .done (.error (.key e))
  | .ok key => c.getByKey key

/-- **Whether the store answers reads.** -/
def checkStore (c : PayloadCache) : StoreProgram (Except CacheError Unit) :=
  .call (.get (healthKey c.ns)) fun answer => .done (acknowledged answer)

/-- Drops every entry of the store. -/
def reset (_ : PayloadCache) : StoreProgram (Except CacheError Unit) :=
  .call .clear fun answer => .done (acknowledged answer)

end PayloadCache

end BlockRelay
