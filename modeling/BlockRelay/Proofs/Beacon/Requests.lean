import Mathlib.Data.List.DropRight
import BlockRelay.Proofs.Beacon.Fallback
import BlockRelay.Proofs.Settings.Lists
import BlockRelay.Proofs.Url.Web

/-!
# What is requested from an endpoint

The text of an endpoint is the canonical text of its address without the slashes at its end, and
what is requested is that text with `validatorsPath` behind it. Read back, the request is an address
again: that of the endpoint, whose last part has lost its slashes and taken the path and query of
the list (`WebUrl.extended`, `BeaconClient.parse_requestUrl`).

The last part need not be the path. Where the endpoint has neither query nor fragment, the request
is for the list of the node (`WebUrl.IsListOf`); where it has one, the path and query of the list
end up in there, and the request is for the endpoint itself. `BeaconClient.request_isListOf_iff`
says so for every endpoint that a client is made of. How the names of hosts are written in ASCII is
laid down elsewhere, and no more is assumed of it than its laws (`Url.Naming.Lawful`): without them,
the name in a request need not be the name that was given.
-/

namespace BlockRelay

open Url

namespace WebUrl

/-- The path of the list of validators. -/
def listPath : List (List Char) :=
  ["eth".toList, "v1".toList, "beacon".toList, "states".toList, "head".toList, "validators".toList]

/-- The query of the list of validators. -/
def listQuery : List Char := "status=active,pending".toList

/-- **A request for the list of a node:** it goes to the node's host and port by the node's scheme.
Its path is that of the node, without slashes at the end, with the path of the list behind it. -/
structure IsListOf (b a : WebUrl) : Prop where
  scheme : b.secure = a.secure
  host : b.host = a.host
  port : b.port = a.port
  path : b.pathChars = Text.dropEndWhile (· = '/') a.pathChars ++
    "/eth/v1/beacon/states/head/validators".toList
  query : b.query = some "status=active,pending".toList

/-- **What becomes of an address** when the slashes at its end are cut off and `validatorsPath` is
written behind it. -/
def extended (a : WebUrl) : WebUrl :=
  match a.fragment, a.query with
  | some f, _ =>
    { a with fragment := some (Text.dropEndWhile (· = '/') f ++ validatorsPath.toList) }
  | none, some q =>
    { a with query := some (Text.dropEndWhile (· = '/') q ++ validatorsPath.toList) }
  | none, none =>
    { a with path := a.path.rdropWhile List.isEmpty ++ listPath, query := some listQuery }

variable {naming : Naming} {a : WebUrl}

/-! ### Addresses without slashes at the end -/

/-- Slashes at the end of a text stand behind the last mark. -/
theorem dropEndWhile_behind {mark : Char} (noSlash : mark ≠ '/') (front cs : List Char) :
    Text.dropEndWhile (· = '/') (front ++ mark :: cs) =
      front ++ mark :: Text.dropEndWhile (· = '/') cs := by
  have kept : Text.dropEndWhile (· = '/') (front ++ [mark]) = front ++ [mark] := by
    rw [Text.dropEndWhile_append_singleton, if_neg (by simpa using noSlash)]
  have behind := Text.dropEndWhile_append kept cs
  rwa [List.append_assoc, List.append_assoc] at behind

/-- A path without slashes at the end is a path without empty segments at the end. -/
theorem dropEndWhile_flatMap_slash {segments : List (List Char)}
    (h : ∀ s ∈ segments, IsSegment s) :
    Text.dropEndWhile (· = '/') (segments.flatMap ('/' :: ·)) =
      (segments.rdropWhile List.isEmpty).flatMap ('/' :: ·) := by
  induction segments using List.reverseRecOn with
  | nil => rfl
  | append_singleton segments s ih =>
    have whole : (segments ++ [s]).flatMap ('/' :: ·) =
        segments.flatMap ('/' :: ·) ++ '/' :: s := by
      rw [List.flatMap_append, List.flatMap_singleton]
    rw [whole]
    -- an empty segment is a slash at the end, and any other ends in no slash
    rcases List.eq_nil_or_concat' s with rfl | ⟨front, c, rfl⟩
    · rw [Text.dropEndWhile_append_singleton, if_pos (by decide),
        ih fun t ht => h t (List.mem_append_left _ ht), List.rdropWhile_concat_pos _ _ _ rfl]
    · have noSlash : ¬ decide (c = '/') = true := by
        have whole := (h (front ++ [c]) (by simp)).whole c (by simp)
        simp only [isSlash, Bool.or_eq_false_iff] at whole
        exact Bool.eq_false_iff.1 whole.1
      have some_ : ¬ (front ++ [c]).isEmpty = true := by simp
      rw [← List.cons_append, ← List.append_assoc, Text.dropEndWhile_append_singleton,
        if_neg noSlash, List.rdropWhile_concat_neg _ _ _ some_, whole, ← List.cons_append,
        List.append_assoc]

/-- The text of an address in front of its path. -/
def originChars (a : WebUrl) : List Char :=
  (if a.secure then "https:".toList else "http:".toList) ++
    '/' :: '/' :: (userinfoChars a.userinfo ++ (a.host.chars ++ portChars a.port))

/-- An address is its origin, its path, and what follows the signs for a query and a fragment. -/
theorem chars_eq_append (a : WebUrl) : a.chars =
    a.originChars ++ a.pathChars ++ partChars '?' a.query ++ partChars '#' a.fragment := by
  rw [chars_eq, restChars, originChars, pathChars]
  simp only [List.append_assoc, List.cons_append]

section

variable {f q : List Char}

theorem chars_of_fragment (fragment : a.fragment = some f) :
    a.chars = a.originChars ++ a.pathChars ++ partChars '?' a.query ++ '#' :: f := by
  rw [chars_eq_append, fragment]
  rfl

theorem chars_of_query (fragment : a.fragment = none) (query : a.query = some q) :
    a.chars = a.originChars ++ a.pathChars ++ '?' :: q := by
  rw [chars_eq_append, fragment, query]
  exact List.append_nil _

theorem chars_of_path (fragment : a.fragment = none) (query : a.query = none) :
    a.chars = a.originChars ++ a.pathChars := by
  rw [chars_eq_append, fragment, query]
  exact (List.append_nil _).trans (List.append_nil _)

/-- In front of its path, an address ends in no slash. -/
theorem dropEndWhile_originChars (h : a.Canonical naming) :
    Text.dropEndWhile (· = '/') a.originChars = a.originChars := by
  refine Text.dropEndWhile_eq_self fun c hc => ?_
  have some_ : a.host.chars ++ portChars a.port ≠ [] :=
    List.append_ne_nil_of_left_ne_nil (Host.chars_ne_nil h.host) _
  have last : (a.host.chars ++ portChars a.port).getLast? = some c := by
    rw [originChars, ← List.cons_append, ← List.cons_append, ← List.append_assoc] at hc
    rwa [List.getLast?_append_of_ne_nil _ some_] at hc
  -- it is a character of the host or of the port, and neither holds a slash
  have inner : Inner c := (List.mem_append.1 (List.mem_of_getLast? last)).elim
    (Host.inner_of_mem h.host c) (inner_of_mem_portChars c)
  have noSlash := inner.noSlash
  simp only [isSlash, Bool.or_eq_false_iff] at noSlash
  exact noSlash.1

/-- To an address with a fragment, the route is added in the fragment. -/
theorem extended_of_fragment (fragment : a.fragment = some f) : a.extended =
    { a with fragment := some (Text.dropEndWhile (· = '/') f ++ validatorsPath.toList) } := by
  rw [extended, fragment]

theorem extended_of_query (fragment : a.fragment = none) (query : a.query = some q) : a.extended =
    { a with query := some (Text.dropEndWhile (· = '/') q ++ validatorsPath.toList) } := by
  rw [extended, fragment, query]

theorem extended_of_path (fragment : a.fragment = none) (query : a.query = none) : a.extended =
    { a with path := a.path.rdropWhile List.isEmpty ++ listPath, query := some listQuery } := by
  rw [extended, fragment, query]

/-- **The text of an extended address.** -/
theorem chars_extended (h : a.Canonical naming) :
    a.extended.chars = Text.dropEndWhile (· = '/') a.chars ++ validatorsPath.toList := by
  -- what stands last in the text is cut: the fragment, the query, or the path
  cases fragment : a.fragment with
  | some f =>
    rw [extended_of_fragment fragment, chars_of_fragment fragment, dropEndWhile_behind (by decide),
      List.append_assoc]
    exact chars_of_fragment rfl
  | none =>
    cases query : a.query with
    | some q =>
      rw [extended_of_query fragment query, chars_of_query fragment query,
        dropEndWhile_behind (by decide), List.append_assoc]
      exact chars_of_query fragment rfl
    | none =>
      have route : validatorsPath.toList = listPath.flatMap ('/' :: ·) ++ '?' :: listQuery := by
        decide
      rw [extended_of_path fragment query, chars_of_path fragment query,
        Text.dropEndWhile_append (dropEndWhile_originChars h), pathChars,
        dropEndWhile_flatMap_slash h.segments, route, ← List.append_assoc,
        List.append_assoc a.originChars, ← List.flatMap_append]
      exact chars_of_query fragment rfl

theorem isSegment_of_mem_listPath {s : List Char} (h : s ∈ listPath) : IsSegment s := by
  simp only [listPath, List.mem_cons, List.not_mem_nil, or_false] at h
  rcases h with rfl | rfl | rfl | rfl | rfl | rfl
  all_goals exact isSegment_of_all (by decide) (by decide) (by decide)

/-- **An extended address has parts in canonical form, too.** -/
theorem canonical_extended (h : a.Canonical naming) : a.extended.Canonical naming := by
  -- what the route adds is harmless wherever it lands, and so is what stays of the part
  have kept {p : Char → Bool} {cs : List Char} (plain : ∀ c ∈ cs, p c = false)
      (route : (validatorsPath.toList.all fun c => !p c) = true) :
      ∀ c ∈ Text.dropEndWhile (· = '/') cs ++ validatorsPath.toList, p c = false := by
    intro c hc
    rcases List.mem_append.1 hc with hc | hc
    · exact plain c (Text.dropEndWhile_append_takeWhile _ cs ▸ List.mem_append_left _ hc)
    · simpa using List.all_eq_true.1 route c hc
  -- the three forms of `extended`
  cases fragment : a.fragment with
  | some f =>
    rw [extended_of_fragment fragment]
    refine ⟨h.userinfo, h.host, h.port, h.unusual, h.path, h.segments, h.query, ?_⟩
    rintro _ ⟨⟩
    exact kept (h.fragment f fragment) (by decide)
  | none =>
    cases query : a.query with
    | some q =>
      rw [extended_of_query fragment query]
      refine ⟨h.userinfo, h.host, h.port, h.unusual, h.path, h.segments, ?_, h.fragment⟩
      rintro _ ⟨⟩
      exact kept (h.query q query) (by decide)
    | none =>
      rw [extended_of_path fragment query]
      refine ⟨h.userinfo, h.host, h.port, h.unusual, ?_, ?_, ?_, h.fragment⟩
      · exact List.append_ne_nil_of_right_ne_nil _ (List.cons_ne_nil _ _)
      · intro s hs
        rcases List.mem_append.1 hs with hs | hs
        · exact h.segments s ((List.rdropWhile_prefix _ _).subset hs)
        · exact isSegment_of_mem_listPath hs
      · rintro _ ⟨⟩ c hc
        have plain : (listQuery.all fun c => !inQuery c) = true := by decide
        simpa using List.all_eq_true.1 plain c hc

end

/-- No path is its own text without slashes at the end and the path of the list behind it. -/
theorem pathChars_ne (a : WebUrl) : a.pathChars ≠ Text.dropEndWhile (· = '/') a.pathChars ++
    "/eth/v1/beacon/states/head/validators".toList := by
  intro same
  have last : a.pathChars.getLast? = some 's' := by
    rw [same, List.getLast?_append]
    rfl
  -- the longer path ends in a letter, so the shorter one would have no slash to lose
  have kept : Text.dropEndWhile (· = '/') a.pathChars = a.pathChars := by
    refine Text.dropEndWhile_eq_self fun c hc => ?_
    rw [last] at hc
    cases hc
    rfl
  rw [kept] at same
  exact absurd (List.self_eq_append_right.1 same) (by decide)

/-- **An extended address is a request for the list** exactly if nothing stood behind the path. -/
theorem isListOf_extended_iff (h : a.Canonical naming) :
    a.extended.IsListOf a ↔ a.query = none ∧ a.fragment = none := by
  constructor
  · intro list
    -- behind the path, a fragment or a query leaves the path as it is
    cases fragment : a.fragment with
    | some f =>
      rw [extended_of_fragment fragment] at list
      exact absurd list.path (pathChars_ne a)
    | none =>
      cases query : a.query with
      | some q =>
        rw [extended_of_query fragment query] at list
        exact absurd list.path (pathChars_ne a)
      | none => exact ⟨rfl, rfl⟩
  · rintro ⟨query, fragment⟩
    rw [extended_of_path fragment query]
    refine ⟨rfl, rfl, rfl, ?_, rfl⟩
    have route : listPath.flatMap ('/' :: ·) = "/eth/v1/beacon/states/head/validators".toList := by
      decide
    rw [pathChars, pathChars, List.flatMap_append, dropEndWhile_flatMap_slash h.segments, route]

end WebUrl

namespace BeaconClient

variable {naming : Naming}

/-- **The request to an endpoint, read back,** is the address of the endpoint, extended. -/
theorem parse_requestUrl (lawful : naming.Lawful) {given endpoint : String}
    (h : canonicalEndpoint naming given = .ok endpoint) :
    ∃ a : WebUrl, a.Canonical naming ∧ Url.parse naming (Text.trim given) = .ok (.web a) ∧
      Url.parse naming (requestUrl endpoint) = .ok (.web a.extended) := by
  rw [canonicalEndpoint] at h
  split at h
  · cases h
  · cases h
  · next a read =>
    cases h
    have canonical := Url.canonical_of_parse lawful read
    refine ⟨a, canonical, read, ?_⟩
    -- the endpoint is the address without slashes at its end, as `chars_extended` expects it
    have text : requestUrl (String.ofList (Text.dropEndWhile (· = '/') a.chars)) =
        String.ofList a.extended.chars := by
      rw [WebUrl.chars_extended canonical, String.ofList_append, String.ofList_toList]
      rfl
    rw [text]
    exact Url.parse_ofList_chars lawful (WebUrl.canonical_extended canonical)

/-- A client requests from its endpoints, and from no others. -/
theorem requested_prefix {ν : Type} (net : Network ν) (c : BeaconClient) (n : ν) :
    (c.fetch net n).1.requested <+: c.endpoints.map requestUrl := by
  obtain ⟨before, endpoint, rest, split_, -, requested, -⟩ :=
    fetchFrom_asks net .noEndpoints c.nonempty n
  refine ⟨rest.map requestUrl, ?_⟩
  rw [fetch, requested, split_, ← List.map_append, List.append_assoc, List.singleton_append]

/-- **What is requested from the endpoints of a client.** Every endpoint was given as a web address,
and what is requested from it is read back as that address, extended. It goes to the same host and
port, by the same scheme and for the same user, and it is a request for the list of validators
exactly if the endpoint has neither query nor fragment. -/
theorem request_isListOf_iff (lawful : naming.Lawful) {given : List String} {c : BeaconClient}
    (h : ofEndpoints naming given = .ok c) :
    List.Forall₂ (fun g e => ∃ a b : WebUrl,
      Url.parse naming (Text.trim g) = .ok (.web a) ∧
      Url.parse naming (requestUrl e) = .ok (.web b) ∧
      b = a.extended ∧ b.secure = a.secure ∧ b.userinfo = a.userinfo ∧ b.host = a.host ∧
      b.port = a.port ∧ (b.IsListOf a ↔ a.query = none ∧ a.fragment = none)) given c.endpoints ∧
    ∀ {ν : Type} (net : Network ν) (n : ν),
      (c.fetch net n).1.requested <+: c.endpoints.map requestUrl := by
  refine ⟨(endpoints_of_ofEndpoints h).imp fun g e canonical => ?_, fun net n =>
    requested_prefix net c n⟩
  obtain ⟨a, formed, given_, requested⟩ := parse_requestUrl lawful canonical
  refine ⟨a, a.extended, given_, requested, rfl, ?_, ?_, ?_, ?_,
    WebUrl.isListOf_extended_iff formed⟩
  -- the parts in front of the path are copied, wherever the route goes
  all_goals
    rw [WebUrl.extended]
    split <;> rfl

/-- The list of a node below a prefix, asked for as a user, at a port of an IPv6 address, and that
of a node with a name, at the usual port. -/
theorem request_isListOf_below_prefix :
    Naming.plain.Lawful ∧ ∃ c a b a' b',
      ofEndpoints .plain [" HTTP://user@[::1]:5052/node//", "https://Node.Example:443"] = .ok c ∧
      c.endpoints = ["http://user@[::1]:5052/node", "https://node.example"] ∧
      Url.parse .plain (Text.trim " HTTP://user@[::1]:5052/node//") = .ok (.web a) ∧
      Url.parse .plain (requestUrl "http://user@[::1]:5052/node") = .ok (.web b) ∧
      b.IsListOf a ∧ b.userinfo = "user".toList ∧ b.host = .ipv6 [0, 0, 0, 0, 0, 0, 0, 1] ∧
      b.port = some 5052 ∧
      b.pathChars = "/node/eth/v1/beacon/states/head/validators".toList ∧
      Url.parse .plain (Text.trim "https://Node.Example:443") = .ok (.web a') ∧
      Url.parse .plain (requestUrl "https://node.example") = .ok (.web b') ∧
      b'.IsListOf a' ∧ b'.secure = true ∧ b'.host = .domain "node.example".toList ∧
      b'.port = none := by
  have canonical :
      canonicalEndpoints .plain [" HTTP://user@[::1]:5052/node//", "https://Node.Example:443"] =
        .ok ["http://user@[::1]:5052/node", "https://node.example"] := by decide +kernel
  have made : ofEndpoints .plain [" HTTP://user@[::1]:5052/node//", "https://Node.Example:443"] =
      .ok ⟨["http://user@[::1]:5052/node", "https://node.example"], List.cons_ne_nil _ _⟩ := by
    rw [ofEndpoints, canonical]
  have read : Url.parse .plain (Text.trim " HTTP://user@[::1]:5052/node//") =
      .ok (.web ⟨false, "user".toList, .ipv6 [0, 0, 0, 0, 0, 0, 0, 1], some 5052,
        ["node".toList, [], []], none, none⟩) := by decide +kernel
  have read' : Url.parse .plain (Text.trim "https://Node.Example:443") =
      .ok (.web ⟨true, [], .domain "node.example".toList, none, [[]], none, none⟩) := by
    decide +kernel
  obtain ⟨all, -⟩ := request_isListOf_iff Naming.plain_lawful made
  obtain ⟨⟨a, b, given_, requested, -, -, user, host, port, list⟩, rest⟩ := List.forall₂_cons.1 all
  obtain ⟨⟨a', b', given', requested', -, secure', -, host', port', list'⟩, -⟩ :=
    List.forall₂_cons.1 rest
  cases given_.symm.trans read
  cases given'.symm.trans read'
  -- the first address has neither query nor fragment
  have list := list.2 ⟨rfl, rfl⟩
  refine ⟨Naming.plain_lawful, _, _, b, _, b', made, rfl, read, requested, list, user, host, port,
    ?_, read', requested', list'.2 ⟨rfl, rfl⟩, secure', host', port'⟩
  rw [list.path]
  decide

/-- **An endpoint with a query** is accepted. The path and query of the list end up in its query,
and what is requested is the front page. -/
theorem exists_request_astray :
    Naming.plain.Lawful ∧ ∃ c a b,
      ofEndpoints .plain ["http://endpoint-0/?x=1"] = .ok c ∧
      c.endpoints = ["http://endpoint-0/?x=1"] ∧
      Url.parse .plain (Text.trim "http://endpoint-0/?x=1") = .ok (.web a) ∧
      Url.parse .plain (requestUrl "http://endpoint-0/?x=1") = .ok (.web b) ∧
      b.pathChars = "/".toList ∧
      b.query =
        some "x=1/eth/v1/beacon/states/head/validators?status=active,pending".toList ∧
      ¬ b.IsListOf a := by
  refine ⟨Naming.plain_lawful, ⟨["http://endpoint-0/?x=1"], List.cons_ne_nil _ _⟩,
    ⟨false, [], .domain "endpoint-0".toList, none, [[]], some "x=1".toList, none⟩,
    ⟨false, [], .domain "endpoint-0".toList, none, [[]],
      some "x=1/eth/v1/beacon/states/head/validators?status=active,pending".toList, none⟩,
    ?_, rfl, ?_, ?_, ?_, rfl, ?_⟩
  · have canonical : canonicalEndpoints .plain ["http://endpoint-0/?x=1"] =
        .ok ["http://endpoint-0/?x=1"] := by decide +kernel
    rw [ofEndpoints, canonical]
  · decide +kernel
  · decide +kernel
  · decide
  · -- the path stays a bare slash, and the route is part of the query
    intro list
    exact absurd list.path (by decide)

end BeaconClient

end BlockRelay
