import BlockRelay.Cache.Key
import BlockRelay.Payload.Basic
import BlockRelay.Time.Span

/-!
# Failures

Each part of the relay's data tier has causes of its own: the store (`StoreError`), the cache of
payloads in front of it (`CacheError`), the beacon nodes (`BeaconError`). What a caller decides
by is coarser: `FailureKind` says whose fault it is, and whether it is worth another try.
-/

namespace BlockRelay

/-- What a message says where a text is not JSON of the expected form; the words of the reader
of JSON are no part of it. -/
def jsonComplaint : String := "<json error>"

/-- The classes of failures that callers tell apart. -/
inductive FailureKind where
  /-- The caller's payload, key or endpoint is malformed; nothing was contacted. -/
  | invalidInput
  | storeUnavailable
  /-- The store holds something that is no payload. -/
  | decode
  /-- No beacon node can be reached. -/
  | beaconUnavailable
  /-- The beacon node answered with an error. -/
  | beaconBadResponse
  /-- The beacon node's answer has an unexpected form. -/
  | beaconDecode
deriving DecidableEq, Repr

namespace FailureKind

/-- The name of a class. -/
def name : FailureKind → String
  | .invalidInput => "invalid_input"
  | .storeUnavailable => "store_unavailable"
  | .decode => "decode"
  | .beaconUnavailable => "upstream_unavailable"
  | .beaconBadResponse => "upstream_bad_response"
  | .beaconDecode => "upstream_decode"

/-- Whether another try may help. -/
def isTransient : FailureKind → Bool
  | .storeUnavailable | .beaconUnavailable => true
  | _ => false

end FailureKind

/-- What can go wrong with a store. -/
inductive StoreError where
  | connection (reason : String)
  | timeout (after : Span)
  /-- The kind of store is not available. -/
  | disabled (reason : String)
deriving DecidableEq, Repr

/-- The wording of a store's failure. -/
def StoreError.message : StoreError → String
  | .connection reason => "store connection failed: " ++ reason
  | .timeout after => "store operation timed out after " ++ after.text
  | .disabled reason => "store backend not available: " ++ reason

/-- What can go wrong with a cached payload. -/
inductive CacheError where
  | payload (e : PayloadError)
  | key (e : KeyError)
  | encode (reason : String)
  | store (e : StoreError)
  /-- What is cached is no payload that can be served. -/
  | decode (address reason : String)
deriving DecidableEq, Repr

namespace CacheError

/-- The wording of a cache's failure. -/
def message : CacheError → String
  | .payload e => "invalid payload: " ++ e.message
  | .key e => e.message
  | .encode reason => "failed to encode payload: " ++ reason
  | .store e => "payload store unavailable: " ++ e.message
  | .decode address reason => "failed to decode cached payload at " ++ address ++ ": " ++ reason

/-- The class of a cache's failure. -/
def kind : CacheError → FailureKind
  | .payload _ | .key _ | .encode _ => .invalidInput
  | .store _ => .storeUnavailable
  | .decode _ _ => .decode

end CacheError

/-- What can go wrong with the beacon nodes. -/
inductive BeaconError where
  /-- There is no node to ask. -/
  | noEndpoints
  /-- The address of a node is malformed. -/
  | invalidEndpoint (reason : String)
  /-- No client can be set up. -/
  | client (reason : String)
  | unavailable (url reason : String)
  /-- A node answered with an error of its own. -/
  | badResponse (code : Int64) (message : String)
  /-- A node's answer has an unexpected form. -/
  | decode (url reason : String)
deriving DecidableEq, Repr

namespace BeaconError

/-- The wording of a failure; a node's own error is shown as the node words it. -/
def message : BeaconError → String
  | .noEndpoints => "no beacon endpoints configured"
  | .invalidEndpoint reason => "invalid beacon endpoint " ++ reason
  | .client reason => "failed to build HTTP client: " ++ reason
  | .unavailable url reason => "beacon node unreachable at " ++ url ++ ": " ++ reason
  | .badResponse _ message => message
  | .decode url reason => "could not decode response from " ++ url ++ ": " ++ reason

/-- The class of a failure. -/
def kind : BeaconError → FailureKind
  | .invalidEndpoint _ => .invalidInput
  | .noEndpoints | .client _ | .unavailable _ _ => .beaconUnavailable
  | .badResponse _ _ => .beaconBadResponse
  | .decode _ _ => .beaconDecode

end BeaconError

/-- A failure of a part, for callers that drive both. -/
inductive Failure where
  | cache (e : CacheError)
  | beacon (e : BeaconError)
deriving DecidableEq, Repr

namespace Failure

/-- The wording of the part. -/
def message : Failure → String
  | .cache e => e.message
  | .beacon e => e.message

/-- The class given by the part. -/
def kind : Failure → FailureKind
  | .cache e => e.kind
  | .beacon e => e.kind

end Failure

end BlockRelay
