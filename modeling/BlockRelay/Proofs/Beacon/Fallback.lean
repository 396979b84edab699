import Mathlib.Data.List.Forall2
import BlockRelay.Beacon.Client

/-!
# Asking endpoints in order

A client asks its endpoints one after the other until one lists its validators. What the answers
are is up to the network, whose state may change with every request; so the outcome of an endpoint
is its outcome in the state that the requests before it left (`Network.after`).

`BeaconClient.fetchFrom_asks` follows the recursion over the endpoints: the endpoints in front of
the one that decides have failed in turn (`Network.FailInTurn`), and none behind it was asked.
`BeaconClient.fetch_decided_by_first_success` is the law for clients as they are made. It says what
a client asks by its own account and by that of the network, which has carried these requests and
no others.
-/

namespace BlockRelay

namespace Network

variable {ν : Type}

/-- The state of a network after requests, made one after the other. -/
def after (net : Network ν) : List String → ν → ν
  | [], n => n
  | url :: urls, n => net.after urls (net.get url n).2

/-- What a request for a list comes to in a state. -/
def validators (net : Network ν) (url : String) (n : ν) : FetchResult :=
  (net.get url n).1.validators url

/-- **Requests that fail one after the other,** each in the state that those before it left. -/
def FailInTurn (net : Network ν) : List String → ν → Prop
  | [], _ => True
  | url :: urls, n => (∃ e, net.validators url n = .error e) ∧ net.FailInTurn urls (net.get url n).2

/-- A network that has its outcomes prepared, one for each request. -/
def prepared : Network (List Outcome) where
  get _
    | [] => (.unavailable "no more outcomes", [])
    | outcome :: outcomes => (outcome, outcomes)

end Network

/-- No answer is taken for a client without endpoints. -/
theorem Outcome.validators_ne_noEndpoints (url : String) (outcome : Outcome) :
    outcome.validators url ≠ .error .noEndpoints := by
  intro failed
  cases outcome with
  | unavailable reason => cases failed
  -- an answer is judged by its status and its body, and each judgement has a kind of its own
  | answered status body =>
    rw [Outcome.validators, validatorsOf] at failed
    split at failed
    · split at failed <;> cases failed
    · split at failed <;> cases failed

namespace BeaconClient

variable {ν : Type}

/-- The first success is the answer, and the endpoints behind it are not asked. -/
theorem fetchFrom_of_success (net : Network ν) (last : BeaconError) {endpoint : String}
    (rest : List String) {n : ν} {list : List ListedValidator}
    (success : net.validators (requestUrl endpoint) n = .ok list) :
    (fetchFrom net last (endpoint :: rest) n).1.result = .ok list ∧
      (fetchFrom net last (endpoint :: rest) n).1.requested = [requestUrl endpoint] ∧
      (fetchFrom net last (endpoint :: rest) n).2 = (net.get (requestUrl endpoint) n).2 := by
  have success : (net.get (requestUrl endpoint) n).1.validators (requestUrl endpoint) =
      .ok list := success
  simp only [fetchFrom, success, and_self]

/-- A failure is remembered as the last one, and the rest is asked where it left the network. -/
theorem fetchFrom_of_failure (net : Network ν) (last : BeaconError) {endpoint : String}
    (rest : List String) {n : ν} {e : BeaconError}
    (failure : net.validators (requestUrl endpoint) n = .error e) :
    let later := fetchFrom net e rest (net.get (requestUrl endpoint) n).2
    (fetchFrom net last (endpoint :: rest) n).1.result = later.1.result ∧
      (fetchFrom net last (endpoint :: rest) n).1.requested =
        requestUrl endpoint :: later.1.requested ∧
      (fetchFrom net last (endpoint :: rest) n).2 = later.2 := by
  have failure : (net.get (requestUrl endpoint) n).1.validators (requestUrl endpoint) =
      .error e := failure
  simp only [fetchFrom, failure, and_self]

/-- **Asking decides at one endpoint:** those before it fail in turn, its own result is the result,
and those behind it are not asked. A failure is only returned where nothing is left to ask. -/
theorem fetchFrom_asks (net : Network ν) (last : BeaconError) {endpoints : List String}
    (some_ : endpoints ≠ []) (n : ν) :
    let r := fetchFrom net last endpoints n
    ∃ before endpoint rest, endpoints = before ++ endpoint :: rest ∧
      net.FailInTurn (before.map requestUrl) n ∧
      r.1.requested = (before ++ [endpoint]).map requestUrl ∧
      r.2 = net.after r.1.requested n ∧
      r.1.result = net.validators (requestUrl endpoint) (net.after (before.map requestUrl) n) ∧
      ∀ e, r.1.result = .error e → rest = [] := by
  induction endpoints generalizing last n with
  -- the last endpoint's failure is the answer
  | nil => exact absurd rfl some_
  | cons first others ih =>
    intro r
    cases outcome : net.validators (requestUrl first) n with
    -- a success ends the search here
    | ok list =>
      obtain ⟨result, requested, state⟩ := fetchFrom_of_success net last others outcome
      refine ⟨[], first, others, rfl, trivial, requested, ?_, result.trans outcome.symm, ?_⟩
      · rw [state, requested]
        rfl
      · intro e failed
        rw [result] at failed
        cases failed
    | error e =>
      obtain ⟨result, requested, state⟩ := fetchFrom_of_failure net last others outcome
      cases others with
      | nil =>
        refine ⟨[], first, [], rfl, trivial, requested, ?_, result.trans outcome.symm, ?_⟩
        · rw [state, requested]
          rfl
        · exact fun _ _ => rfl
      | cons second others =>
        -- the failure is carried along, but the endpoints that are left replace it
        obtain ⟨before, endpoint, rest, split_, failing, requested', state', result', whole⟩ :=
          ih e (List.cons_ne_nil second others) (net.get (requestUrl first) n).2
        refine ⟨first :: before, endpoint, rest, ?_, ⟨⟨e, outcome⟩, failing⟩, ?_, ?_, ?_, ?_⟩
        · rw [split_, List.cons_append]
        · rw [requested, requested', List.cons_append, List.map_cons]
        · rw [state, requested, state']
          rfl
        · rw [result, result']
          rfl
        · rw [result]
          exact whole

variable {naming : Url.Naming}

/-- The endpoints of a client stand in the order in which they were given. -/
theorem endpoints_of_canonicalEndpoints {given texts : List String}
    (h : canonicalEndpoints naming given = .ok texts) :
    List.Forall₂ (fun g e => canonicalEndpoint naming g = .ok e) given texts := by
  induction given generalizing texts with
  | nil =>
    cases h
    exact .nil
  | cons g given ih =>
    rw [canonicalEndpoints] at h
    cases first : canonicalEndpoint naming g with
    | error e => simp [first] at h
    | ok text =>
      -- one endpoint that cannot be read spoils the list
      cases others : canonicalEndpoints naming given with
      | error e => simp [first, others] at h
      | ok rest =>
        simp only [first, others, Except.ok.injEq] at h
        subst h
        exact .cons first (ih others)

/-- A client's endpoints are those it was given, in the same order, each in its canonical form. -/
theorem endpoints_of_ofEndpoints {given : List String} {c : BeaconClient}
    (h : ofEndpoints naming given = .ok c) :
    List.Forall₂ (fun g e => canonicalEndpoint naming g = .ok e) given c.endpoints := by
  rw [ofEndpoints] at h
  split at h
  · cases h
  · cases h
  · next text texts canonical =>
    cases h
    exact endpoints_of_canonicalEndpoints canonical

/-- **The first success decides.** A client asks its endpoints in the order in which they were
given, however the names in them are written in ASCII. It asks up to the first that lists its
validators and returns exactly that list; if none does, it has asked each of them once and returns
the failure of the last. -/
theorem fetch_decided_by_first_success {given : List String} {c : BeaconClient}
    (h : ofEndpoints naming given = .ok c) (net : Network ν) (n : ν) :
    let r := c.fetch net n
    List.Forall₂ (fun g e => canonicalEndpoint naming g = .ok e) given c.endpoints ∧
    ∃ before endpoint rest, c.endpoints = before ++ endpoint :: rest ∧
      net.FailInTurn (before.map requestUrl) n ∧
      r.1.requested = (before ++ [endpoint]).map requestUrl ∧
      r.2 = net.after r.1.requested n ∧
      r.1.result = net.validators (requestUrl endpoint) (net.after (before.map requestUrl) n) ∧
      ∀ e, r.1.result = .error e →
        rest = [] ∧ r.1.requested = c.endpoints.map requestUrl ∧ e ≠ .noEndpoints := by
  intro r
  refine ⟨endpoints_of_ofEndpoints h, ?_⟩
  obtain ⟨before, endpoint, rest, split_, failing, requested, state, result, whole⟩ :=
    fetchFrom_asks net .noEndpoints c.nonempty n
  refine ⟨before, endpoint, rest, split_, failing, requested, state, result, ?_⟩
  intro e failed
  -- a failure means that no endpoint was left unasked
  obtain rfl := whole e failed
  refine ⟨rfl, ?_, ?_⟩
  · rw [split_]
    exact requested
  · rintro rfl
    exact Outcome.validators_ne_noEndpoints _ _ (result.symm.trans failed)

/-- One endpoint is down, one has trouble of its own, the third answers and the fourth is left
alone. -/
theorem fetch_decided_by_third :
    let down := Outcome.unavailable "connection refused"
    let trouble := Outcome.answered 503
      (Text.Utf8.encode "\x7b\"code\":503,\"message\":\"syncing\"\x7d".toList)
    let answer := Outcome.answered 200 (Text.Utf8.encode
      "\x7b\"data\":[\x7b\"validator\":\x7b\"pubkey\":\"0xAB\"\x7d\x7d]\x7d".toList)
    ∃ c, ofEndpoints .plain ["http://a/", "HTTP://B:80", " http://c//", "http://d"] = .ok c ∧
      (∃ before endpoint rest, c.endpoints = before ++ endpoint :: rest ∧
        Network.prepared.FailInTurn (before.map requestUrl) [down, trouble, answer, down]) ∧
      (c.fetch Network.prepared [down, trouble, answer, down]).1.result =
        .ok [⟨none, none, "0xAB"⟩] ∧
      (c.fetch Network.prepared [down, trouble, answer, down]).1.requested =
        ["http://a", "http://b", "http://c"].map requestUrl ∧
      (c.fetch Network.prepared [down, trouble, answer, down]).2 = [down] := by
  intro down trouble answer
  have canonical :
      canonicalEndpoints .plain ["http://a/", "HTTP://B:80", " http://c//", "http://d"] =
        .ok ["http://a", "http://b", "http://c", "http://d"] := by decide +kernel
  -- trimmed, in small letters, without the usual port and without slashes at the end
  have made : ofEndpoints .plain ["http://a/", "HTTP://B:80", " http://c//", "http://d"] =
      .ok ⟨["http://a", "http://b", "http://c", "http://d"], List.cons_ne_nil _ _⟩ := by
    rw [ofEndpoints, canonical]
  obtain ⟨-, before, endpoint, rest, split_, failing, -⟩ :=
    fetch_decided_by_first_success made Network.prepared [down, trouble, answer, down]
  refine ⟨_, made, ⟨before, endpoint, rest, split_, failing⟩, ?_, ?_, ?_⟩
  · decide +kernel
  · decide +kernel
  · decide +kernel

end BeaconClient

end BlockRelay
