import BlockRelay.Beacon.Registry
import BlockRelay.Log.Line
import BlockRelay.Url.Web

/-!
# The client of the beacon nodes

A client has one or more endpoints and asks them in their order until one lists its validators.
What becomes of a request is up to a *network* (`Network`): it may carry an answer back or not,
and it may change with every request. `BeaconClient.fetch` reports whom it asked besides the
answer, and `BeaconClient.source` makes a client a source of validators.

Endpoints are kept as the canonical text of their address without slashes at the end. The path
and query of the list of validators are appended to that text as they are. How the names of hosts
are written in ASCII is up to a `Naming`.
-/

namespace BlockRelay

/-- Path and query of the list of validators. -/
def validatorsPath : String := "/eth/v1/beacon/states/head/validators?status=active,pending"

/-- What becomes of a request. -/
inductive Outcome where
  | unavailable (reason : String)
  /-- An answer with a status and a body. -/
  | answered (status : Nat) (body : Bytes)
deriving DecidableEq

/-- What a request for a list comes to. -/
def Outcome.validators (url : String) : Outcome → FetchResult
  | .unavailable reason => .error (.unavailable url reason)
  | .answered status body => validatorsOf url status body

/-- Something that carries requests, of a state that may change with each of them. -/
structure Network (ν : Type) where
  /-- The outcome of a request, and the state afterwards. -/
  get : String → ν → Outcome × ν

/-- A client. -/
structure BeaconClient where
  /-- The canonical text of every endpoint. -/
  endpoints : List String
  nonempty : endpoints ≠ []

namespace BeaconClient

/-! ### Endpoints -/

/-- **The canonical text of an endpoint,** which must be a web address. -/
def canonicalEndpoint (naming : Url.Naming) (given : String) : Except BeaconError String :=
  match Url.parse naming (Text.trim given) with
  | .error e => .error (.invalidEndpoint (given ++ ": " ++ e.message))
  | .ok (.other _) => .error (.invalidEndpoint given)
  | .ok (.web a) => .ok (String.ofList (Text.dropEndWhile (· = '/') a.chars))

/-- The canonical texts of endpoints; the first that is malformed counts. -/
def canonicalEndpoints (naming : Url.Naming) : List String → Except BeaconError (List String)
  | [] => .ok []
  | given :: rest =>
    match canonicalEndpoint naming given with
    | .error e => .error e
    | .ok text =>
      match canonicalEndpoints naming rest with
      | .error e => .error e
      | .ok texts => .ok (text :: texts)

/-- **A client of endpoints.** -/
def ofEndpoints (naming : Url.Naming) (given : List String) : Except BeaconError BeaconClient :=
  match canonicalEndpoints naming given with
  | .error e => .error e
  | .ok [] => .error .noEndpoints
  | .ok (text :: texts) => .ok ⟨text :: texts, List.cons_ne_nil _ _⟩

/-- How a client names itself in log lines. -/
def describe (c : BeaconClient) : String :=
  "beacon[" ++ ",".intercalate c.endpoints ++ "]"

/-- What is requested from an endpoint. -/
def requestUrl (endpoint : String) : String := endpoint ++ validatorsPath

/-! ### Asking -/

/-- What asking comes to. -/
structure Fetched where
  /-- The list, or the last failure. -/
  result : FetchResult
  requested : List String
  logs : List LogLine

/-- A log line of a client. -/
def line (severity : Severity) (message : String) : LogLine :=
  ⟨severity, partName "beacon_client", message⟩

/-- The line about a request. -/
def requestLine (url : String) : LogLine := line .debug ("Fetching validators from " ++ url)

/-- The line about an endpoint that listed its validators. -/
def successLine (endpoint : String) (count : Nat) : LogLine :=
  line .debug ("Fetched " ++ Text.Decimal.text count ++ " validators from " ++ endpoint)

/-- The line about an endpoint that failed. -/
def failureLine (endpoint : String) (e : BeaconError) : LogLine :=
  line .warn ("Beacon node " ++ endpoint ++ " failed: " ++ e.message)

/-- Asks endpoints in order until one lists its validators; `last` is the failure before. -/
def fetchFrom {ν : Type} (net : Network ν) (last : BeaconError) :
    List String → ν → Fetched × ν
  | [], n => (⟨.error last, [], []⟩, n)
  | endpoint :: rest, n =>
    let url := requestUrl endpoint
    let (outcome, n) := net.get url n
    match outcome.validators url with
    | .ok list => (⟨.ok list, [url], [requestLine url, successLine endpoint list.length]⟩, n)
    | .error e =>
      let (r, n) := fetchFrom net e rest n
      (⟨r.result, url :: r.requested, requestLine url :: failureLine endpoint e :: r.logs⟩, n)

/-- **Asks the endpoints of a client.** -/
def fetch {ν : Type} (net : Network ν) (c : BeaconClient) (n : ν) : Fetched × ν :=
  fetchFrom net .noEndpoints c.endpoints n

/-- A client on a network as a source of validators. -/
def source {ν : Type} (net : Network ν) (c : BeaconClient) : ValidatorSource ν where
  ask n := let (r, n) := c.fetch net n; (r.result, n)

/-- A client as a source of validators that keeps the log lines. -/
def loggedSource {ν : Type} (net : Network ν) (c : BeaconClient) :
    ValidatorSource (ν × List LogLine) where
  ask | (n, logs) => let (r, n) := c.fetch net n; (r.result, n, logs ++ r.logs)

end BeaconClient

end BlockRelay
