import BlockRelay.Proofs.Cache.Calls
import BlockRelay.Proofs.Wire.Described

/-!
# Entries that somebody else wrote

A store may be shared, so under the key of a payload a read can come across any bytes. It serves a
payload exactly if the bytes are the text of a value that describes one (`Payload.Described`, in
whatever order and spelling) and the payload passes the check of a save. Anything else is a failure
to decode, at the address of the entry. It is not taken for a missing entry, and the entry stays.

What is read is checked by the same rule as what is saved. Hence a payload that was served once can
be saved again, and is served from its own bytes then.

* `PayloadCache.decode_eq_ok_iff`, `PayloadCache.decode_of_not_described` and
  `PayloadCache.decode_of_refused` say what comes of bytes.
* `served_exactly_if_described` is the law for entries in the store in memory.
-/

namespace BlockRelay

namespace PayloadCache

variable {address : String} {bytes : Bytes} {p : Payload}

/-- Bytes are the text of a value that describes a payload. -/
def Tells (bytes : Bytes) (p : Payload) : Prop :=
  ∃ j, Json.readBytes? bytes = some j ∧ p.Described j

theorem ofBytes?_eq_some_iff : Payload.ofBytes? bytes = some p ↔ Tells bytes p := by
  rw [Payload.ofBytes?, Option.bind_eq_some_iff]
  refine exists_congr fun j => ?_
  rw [Payload.reads j p]

/-- **Bytes are decoded to the payload that they tell,** if it can be served. -/
theorem decode_eq_ok_iff (address : String) :
    decode address bytes = .ok p ↔ Tells bytes p ∧ ∃ b, p.check = .ok b := by
  rw [← ofBytes?_eq_some_iff, decode]
  constructor
  · intro h
    split at h
    · cases h
    -- the bytes are read first, and what was read is checked afterwards
    next told =>
    split at h
    · next served =>
      cases h
      exact ⟨told, _, served⟩
    · cases h
  · rintro ⟨told, b, served⟩
    rw [told]
    dsimp only
    rw [served]

/-- Bytes that tell no payload are refused as no JSON of a payload. -/
theorem decode_of_not_told (h : ∀ p, ¬ Tells bytes p) :
    decode address bytes = .error (.decode address jsonComplaint) := by
  have unread : Payload.ofBytes? bytes = none := by
    rw [Option.eq_none_iff_forall_ne_some]
    intro p told
    exact h p (ofBytes?_eq_some_iff.1 told)
  rw [decode, unread]

/-- Bytes that tell a payload which cannot be served are refused with the reason of the check. -/
theorem decode_of_refused {e : PayloadError} (told : Tells bytes p) (refused : p.check = .error e) :
    decode address bytes = .error (.decode address e.message) := by
  rw [decode, ofBytes?_eq_some_iff.2 told]
  dsimp only
  rw [refused]

/-- There is no third outcome. -/
theorem decode_cases (address : String) (bytes : Bytes) :
    (∃ p, decode address bytes = .ok p) ∨
      ∃ reason, decode address bytes = .error (.decode address reason) := by
  by_cases told : ∃ p, Tells bytes p
  · obtain ⟨p, told⟩ := told
    cases refused : p.check with
    | ok b => exact .inl ⟨p, (decode_eq_ok_iff address).2 ⟨told, b, refused⟩⟩
    | error e => exact .inr ⟨_, decode_of_refused told refused⟩
  · exact .inr ⟨_, decode_of_not_told (not_exists.1 told)⟩

end PayloadCache

/-! ### Calls of the store in memory -/

namespace MemoryStore

variable {m m' : MemoryStore} {now ttl : Span} {key : String} {bytes : Bytes}

/-- The store in memory answers at once, whatever the limit. -/
theorem service_answers {call : StoreCall} {answer : StoreAnswer} (limit : Option Span)
    (acts : m.act now call = some (answer, m')) :
    service.Answers limit ⟨now, m⟩ call answer ⟨now, m'⟩ := by
  refine ⟨⟨0⟩, rfl, ?_, rfl, acts⟩
  intro t _
  exact Nat.zero_le t.nanos

theorem act_get_of_fresh (fresh : m.lookup key now = .fresh bytes) :
    m.act now (.get key) = some (.ok (some bytes), m) := by
  rw [act, get, fresh]

/-- A write is accepted if its deadline can be expressed. -/
theorem set?_isSome (shown : now + ttl ≤ lastMoment) (m : MemoryStore) (key : String)
    (bytes : Bytes) : ∃ m', m.set? now key bytes ttl = some m' := by
  rw [set?, deadline?, if_pos shown]
  exact ⟨_, rfl⟩

/-- The entry that was put in front is there after a sweep. -/
theorem find?_sweep_insert_self (m : MemoryStore) (key : String) {v : StoredValue}
    (ahead : now < v.expiresAt) : ((m.insert key v).countWrite.sweep now).find? key = some v := by
  unfold find? sweep countWrite insert
  rw [List.filter_cons_of_pos (by exact decide_eq_true ahead),
    List.find?_cons_of_pos (by exact decide_eq_true rfl), Option.map_some]

/-- What was written is fresh until its deadline, whether or not the write ended with a sweep. -/
theorem lookup_of_set? {later : Span} (written : m.set? now key bytes ttl = some m')
    (after : now ≤ later) (before : later < now + ttl) : m'.lookup key later = .fresh bytes := by
  obtain ⟨deadline, shown, rfl⟩ := Option.map_eq_some_iff.1 written
  rw [deadline?, Option.ite_none_right_eq_some, Option.some_inj] at shown
  obtain ⟨-, rfl⟩ := shown
  -- found under its key with this deadline, the value is fresh
  have entry {m' : MemoryStore} (first : m'.find? key = some ⟨bytes, now + ttl⟩) :
      m'.lookup key later = .fresh bytes := by
    rw [lookup, first]
    exact if_pos before
  dsimp only
  -- every 256th write sweeps, which spares the entry as it has not expired
  split
  · apply entry
    exact m.find?_sweep_insert_self key (Span.lt_of_le_of_lt after before)
  · apply entry
    exact m.find?_insert_self key ⟨bytes, now + ttl⟩

end MemoryStore

/-! ### Reads and saves -/

/-- **A payload is served exactly if the bytes under its key tell one that can be served.** For any
store in memory with a fresh entry under the key of a triple:

* the read ends, with the store as it was, and serves a payload or fails to decode at this key;
* it serves a payload exactly if the bytes are the text of a value that describes the payload, and
  the payload passes the check;
* a payload that was served is accepted when it is saved under the triple, and as long as the clock
  can show the deadline, it is served again at once, unless entries do not live at all. -/
theorem served_exactly_if_described (c : PayloadCache) (m : MemoryStore) (now : Span)
    {slot : UInt64} {proposer block : String} {key : PayloadKey}
    (named : PayloadKey.ofTexts slot proposer block = .ok key) {bytes : Bytes}
    (fresh : m.lookup (key.inStore c.ns) now = .fresh bytes) (limit : Option Span) :
    ∃ r, (c.get slot proposer block).runFor MemoryStore.service limit ⟨now, m⟩ =
        .finished r ⟨now, m⟩ ∧
      ((∃ p, r = .ok (some p)) ∨ ∃ reason, r = .error (.decode (key.inStore c.ns) reason)) ∧
      (∀ p, r = .ok (some p) ↔ PayloadCache.Tells bytes p ∧ ∃ b, p.check = .ok b) ∧
      (∀ p e, PayloadCache.Tells bytes p → p.check = .error e →
        r = .error (.decode (key.inStore c.ns) e.message)) ∧
      ∀ p, r = .ok (some p) →
        (c.save slot proposer block p).Asks (.set (key.inStore c.ns) p.toBytes c.ttl)
          PayloadCache.acknowledged ∧
        (now + c.ttl ≤ lastMoment → ∃ m',
          (c.save slot proposer block p).runFor MemoryStore.service limit ⟨now, m⟩ =
            .finished (.ok ()) ⟨now, m'⟩ ∧
          (⟨0⟩ < c.ttl →
            (c.get slot proposer block).runFor MemoryStore.service limit ⟨now, m'⟩ =
              .finished (.ok (some p)) ⟨now, m'⟩)) := by
  -- the reading is one question to the store, whatever the store holds
  have reads (m : MemoryStore) {bytes : Bytes}
      (fresh : m.lookup (key.inStore c.ns) now = .fresh bytes) :
      (c.get slot proposer block).runFor MemoryStore.service limit ⟨now, m⟩ =
        .finished ((PayloadCache.decode (key.inStore c.ns) bytes).map some) ⟨now, m⟩ :=
    ((c.get_asks named).finished ..).2 (.inl ⟨_, MemoryStore.service_answers limit
      (MemoryStore.act_get_of_fresh fresh), rfl⟩)
  -- and its answer is a payload exactly if the bytes tell one that can be served
  have serves (p : Payload) :
      (PayloadCache.decode (key.inStore c.ns) bytes).map some = .ok (some p) ↔
        PayloadCache.Tells bytes p ∧ ∃ b, p.check = .ok b := by
    rw [← PayloadCache.decode_eq_ok_iff (key.inStore c.ns)]
    cases PayloadCache.decode (key.inStore c.ns) bytes with
    | ok q => rw [Except.map, Except.ok.injEq, Except.ok.injEq, Option.some_inj]
    | error e => exact iff_of_false nofun nofun
  refine ⟨_, reads m fresh, ?_, serves, ?_, ?_⟩
  · rcases PayloadCache.decode_cases (key.inStore c.ns) bytes with ⟨p, h⟩ | ⟨reason, h⟩
    · exact .inl ⟨p, congrArg (Except.map some) h⟩
    · exact .inr ⟨reason, congrArg (Except.map some) h⟩
  · intro p e told refused
    rw [PayloadCache.decode_of_refused told refused]
    rfl
  · intro p served
    obtain ⟨told, b, accepted⟩ := (serves p).1 served
    have asks := c.save_asks accepted named
    refine ⟨asks, ?_⟩
    intro shown
    obtain ⟨m', written⟩ := MemoryStore.set?_isSome shown m (key.inStore c.ns) p.toBytes
    have acts : m.act now (.set (key.inStore c.ns) p.toBytes c.ttl) = some (.ok none, m') := by
      rw [MemoryStore.act, written]
      rfl
    refine ⟨m', (asks.finished ..).2 (.inl ⟨_, MemoryStore.service_answers limit acts, rfl⟩), ?_⟩
    -- the payload's own bytes are in the store now, and they tell it
    intro lives
    have ahead : now < now + c.ttl := Nat.lt_add_of_pos_right lives
    rw [reads m' (MemoryStore.lookup_of_set? written (Nat.le_refl now.nanos) ahead)]
    have again : PayloadCache.decode (key.inStore c.ns) p.toBytes = .ok p :=
      (PayloadCache.decode_eq_ok_iff _).2
        ⟨PayloadCache.ofBytes?_eq_some_iff.1 p.ofBytes?_toBytes, b, accepted⟩
    rw [again]
    rfl

/-- `bellatrixPayload` as it is not written: the body comes first, the fork is an object, and there
is a field that no payload has. -/
def rearrangedPayload : Json :=
  .obj [("data", bellatrixPayload.body.elim .null PayloadBody.toJson), ("note", .arr [.null]),
    ("version", .obj [("bellatrix", .null)])]

theorem plain_rearrangedPayload : rearrangedPayload.plain = true := by
  have body : (bellatrixPayload.body.elim .null PayloadBody.toJson).plain = true :=
    PayloadBody.plain_toJson _
  rw [rearrangedPayload, Json.plain_obj, List.all_cons, body]
  rfl

/-- It describes the payload although its fields stand in another order and it has a strange one. -/
theorem described_rearrangedPayload : bellatrixPayload.Described rearrangedPayload where
  -- the strange field is not one of the declared ones
  declared := by
    refine .object ?_
    decide
  fork := ⟨List.mem_cons_self, _, .object (List.mem_of_getElem? (i := 2) rfl), .tagged .bellatrix⟩
  -- the body is written as usual, only its place is another
  body := by
    refine ⟨List.mem_of_getElem? (i := 1) rfl, nofun, ?_⟩
    rintro _ ⟨⟩
    exact ⟨_, .object List.mem_cons_self, PayloadBody.toJson_ne_null _,
      (PayloadBody.reads _ _).1 (PayloadBody.ofJson?_toJson _)⟩

/-- It is served all the same, and once more after it was saved. Under the same key a payload of a
fork without bodies is no miss. -/
theorem served_exactly_if_described_rearranged :
    let address := "boost-relay:cache-payload:7:0xab:0xcd"
    let get := PayloadCache.standard.get 7 "AB" "0Xcd"
    rearrangedPayload.renderBytes ≠ bellatrixPayload.toBytes ∧
    (∃ m m', MemoryStore.empty.set? ⟨0⟩ address rearrangedPayload.renderBytes ⟨5⟩ = some m ∧
      get.runFor MemoryStore.service none ⟨⟨4⟩, m⟩ =
        .finished (.ok (some bellatrixPayload)) ⟨⟨4⟩, m⟩ ∧
      (PayloadCache.standard.save 7 "AB" "0Xcd" bellatrixPayload).runFor MemoryStore.service none
        ⟨⟨4⟩, m⟩ = .finished (.ok ()) ⟨⟨4⟩, m'⟩ ∧
      get.runFor MemoryStore.service none ⟨⟨4⟩, m'⟩ =
        .finished (.ok (some bellatrixPayload)) ⟨⟨4⟩, m'⟩) ∧
    ∃ m, MemoryStore.empty.set? ⟨0⟩ address (Payload.toBytes ⟨.phase0, none⟩) ⟨5⟩ = some m ∧
      get.runFor MemoryStore.service none ⟨⟨4⟩, m⟩ =
        .finished (.error (.decode address "unsupported payload version: phase0")) ⟨⟨4⟩, m⟩ := by
  intro address get
  -- the address in the store is that of the canonical texts
  have place : PayloadKey.inStore ⟨7, "0xab", "0xcd"⟩ PayloadCache.standard.ns = address := by
    decide +kernel
  have named : PayloadKey.ofTexts 7 "AB" "0Xcd" = .ok ⟨7, "0xab", "0xcd"⟩ := by decide
  have read : Json.readBytes? rearrangedPayload.renderBytes = some rearrangedPayload :=
    Json.readBytes?_renderBytes plain_rearrangedPayload
  -- written at the start for five nanoseconds, bytes are still fresh at the fourth
  have placed (bytes : Bytes) : ∃ m, MemoryStore.empty.set? ⟨0⟩ address bytes ⟨5⟩ = some m ∧
      m.lookup (PayloadKey.inStore ⟨7, "0xab", "0xcd"⟩ PayloadCache.standard.ns) ⟨4⟩ =
        .fresh bytes := by
    have shown : (⟨0⟩ : Span) + ⟨5⟩ ≤ lastMoment := by decide
    obtain ⟨m, written⟩ := MemoryStore.set?_isSome shown .empty address bytes
    rw [place]
    exact ⟨m, written, MemoryStore.lookup_of_set? written (by decide) (by decide)⟩
  refine ⟨?_, ?_, ?_⟩
  · -- the texts differ, since their first fields have different names
    intro same
    rw [same, Payload.toBytes, Json.readBytes?_renderBytes bellatrixPayload.plain_toJson] at read
    have first : (some "version" : Option String) = some "data" :=
      congrArg (fun fields => fields.head?.map (·.1)) (Json.obj.inj (Option.some.inj read))
    exact absurd first (by decide)
  · obtain ⟨m, written, fresh⟩ := placed rearrangedPayload.renderBytes
    obtain ⟨r, ends, -, serves, -, saves⟩ :=
      served_exactly_if_described .standard m ⟨4⟩ named fresh none
    have served := (serves bellatrixPayload).2
      ⟨⟨_, read, described_rearrangedPayload⟩, _, rfl⟩
    obtain ⟨-, saved⟩ := saves bellatrixPayload served
    obtain ⟨m', accepted, again⟩ := saved (by decide)
    rw [served] at ends
    exact ⟨m, m', written, ends, accepted, again (by decide)⟩
  · obtain ⟨m, written, fresh⟩ := placed (Payload.toBytes ⟨.phase0, none⟩)
    obtain ⟨r, ends, -, -, refused, -⟩ :=
      served_exactly_if_described .standard m ⟨4⟩ named fresh none
    -- the bytes of a payload without a body tell it, although it cannot be served
    have told : PayloadCache.Tells (Payload.toBytes ⟨.phase0, none⟩) ⟨.phase0, none⟩ :=
      PayloadCache.ofBytes?_eq_some_iff.1 (Payload.ofBytes?_toBytes _)
    rw [refused _ _ told rfl, place] at ends
    exact ⟨m, written, ends⟩

end BlockRelay
