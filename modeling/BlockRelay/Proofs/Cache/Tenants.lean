import BlockRelay.Proofs.Cache.Identity
import BlockRelay.Proofs.Cache.Refinement

/-!
# Two caches over one store

Two relays may share a store in memory, each with a namespace and a lifetime of its own. Their
operations come in any order, mixed with sweeps and with the passing of time (`SharedEvent`). Both
write into one map, and the writes of one advance the counter by which the other's writes sweep.
None of this can be noticed:

* `heard_eq_alone`: what a relay is told in a shared run is what it is told in the same run without
  the operations of the other relay.

The two runs are compared step by step. `LooksAlike` relates two worlds that show the same, now
and later, under all addresses that a cache uses; the rest of the stores may differ, and so may
the counters. An operation of the cache itself ends alike in both worlds (`LooksAlike.own`), and
an operation of a cache with another namespace on one side only keeps the relation
(`LooksAlike.foreign`). Both rest on `CacheOp.does`, which says once what an operation can do to a
store: nothing, one write under the address of a triple, or one read.
-/

namespace BlockRelay

/-! ### What an operation does -/

/-- The addresses that a cache uses. -/
inductive PayloadCache.Uses (c : PayloadCache) : String → Prop where
  | entry (t : PayloadTriple) : PayloadCache.Uses c (t.key.inStore c.ns)
  | health : PayloadCache.Uses c (healthKey c.ns)

/-- No cache uses the address of a payload in another namespace. -/
theorem PayloadCache.Uses.ne_inStore {c : PayloadCache} {key ns : String} (h : c.Uses key)
    (apart : c.ns ≠ ns) (t : PayloadTriple) : key ≠ t.key.inStore ns := by
  intro same
  cases h with
  | entry u => exact apart (PayloadTriple.inStore_injective same).1
  | health => exact t.inStore_ne_healthKey ns c.ns same.symm

/-- Whether an operation is one that a relay asks of its cache. Dropping everything is not. -/
def CacheOp.isCall : CacheOp → Bool
  | .save _ _ _ _ _ => true
  | .saveSubmission _ => true
  | .get _ _ _ _ => true
  | .getByKey _ => true
  | .checkStore => true
  | .reset => false
  | .purge => false
  | .advance _ => false

/-- One write, with an answer that was fixed before it. -/
def StoreWorld.write (w : StoreWorld MemoryStore) (key : String) (value : Bytes) (ttl : Span)
    (a : CacheAnswer) : StoreRun MemoryStore CacheAnswer :=
  match w.store.set? w.now key value ttl with
  | none => .crashed
  | some store => .finished a { w with store }

/-- One read, with an answer that depends on what is found. -/
def StoreWorld.read (w : StoreWorld MemoryStore) (key : String)
    (tell : Option Bytes → CacheAnswer) : StoreRun MemoryStore CacheAnswer :=
  .finished (tell (w.store.get w.now key).1) { w with store := (w.store.get w.now key).2 }

/-- **What an operation of a cache does,** in every world alike. -/
inductive CacheOp.Does (c : PayloadCache) (op : CacheOp) : Prop where
  | nothing (a : CacheAnswer) (h : ∀ w, op.perform c w = .finished a w)
  | write (t : PayloadTriple) (value : Bytes) (a : CacheAnswer)
    (h : ∀ w, op.perform c w = w.write (t.key.inStore c.ns) value c.ttl a)
    (shown : ∀ now ops, c.DeadlinesShown now (op :: ops) → now + c.ttl ≤ lastMoment)
  | read (key : String) (used : c.Uses key) (tell : Option Bytes → CacheAnswer)
    (h : ∀ w, op.perform c w = w.read key tell)

namespace StoreProgram

variable {α : Type}

/-- A write whose continuation ends at once. -/
theorem map_run_set {key : String} {value : Bytes} {ttl : Span}
    {next : StoreAnswer → StoreProgram α} {a : α} (ends : next (.ok none) = .done a)
    (f : α → CacheAnswer) (w : StoreWorld MemoryStore) :
    ((StoreProgram.call (.set key value ttl) next).run MemoryStore.service w).map f =
      w.write key value ttl (f a) := by
  rw [run_call, MemoryStore.act, StoreWorld.write]
  cases w.store.set? w.now key value ttl with
  | none => rfl
  | some store =>
    dsimp only [Option.map_some]
    rw [ends, run_done]
    rfl

end StoreProgram

namespace CacheOp

variable {c : PayloadCache}

/-- What is told of the bytes under a triple, or of their absence. -/
def tellFound (c : PayloadCache) (t : PayloadTriple) : Option Bytes → CacheAnswer
  | none => .found (.ok none)
  | some bytes => .found ((PayloadCache.decode (t.key.inStore c.ns) bytes).map some)

/-- A read by the key of a triple. -/
theorem map_run_getByKey (c : PayloadCache) (t : PayloadTriple) (w : StoreWorld MemoryStore) :
    ((c.getByKey t.key).run MemoryStore.service w).map CacheAnswer.found =
      w.read (t.key.inStore c.ns) (tellFound c t) := by
  rw [PayloadCache.getByKey, StoreProgram.run_call, MemoryStore.act]
  dsimp only
  rw [StoreWorld.read]
  cases (w.store.get w.now (t.key.inStore c.ns)).1 with
  | none => rfl
  | some bytes => rfl

/-- **An operation does one of three things.** -/
theorem does (c : PayloadCache) {op : CacheOp} (call : op.isCall = true) : op.Does c := by
  cases op with
  | save limit slot proposer block p =>
    have shown : ∀ now ops, c.DeadlinesShown now (.save limit slot proposer block p :: ops) →
        now + c.ttl ≤ lastMoment := fun _ _ h => h.1
    -- the payload and the key are looked at before the store
    cases served : p.check with
    | error e =>
      refine .nothing (.saved (.error (.payload e))) fun w => ?_
      rw [perform, StoreProgram.runFor_eq_run, PayloadCache.save, served]
      rfl
    | ok b =>
      cases named : PayloadTriple.ofTexts slot proposer block with
      | error e =>
        refine .nothing (.saved (.error (.key e))) fun w => ?_
        rw [perform, StoreProgram.runFor_eq_run, PayloadCache.save, served,
          PayloadTriple.ofTexts_eq, named]
        rfl
      -- checked and named, the payload is written under its triple
      | ok t =>
        refine .write t p.toBytes (.saved (.ok ())) (fun w => ?_) shown
        rw [perform, StoreProgram.runFor_eq_run, PayloadCache.save, served,
          PayloadTriple.ofTexts_eq, named]
        dsimp only [Except.map]
        rw [PayloadCache.saveChecked]
        refine StoreProgram.map_run_set ?_ CacheAnswer.saved w
        rfl
  | saveSubmission s =>
    have shown : ∀ now ops, c.DeadlinesShown now (.saveSubmission s :: ops) →
        now + c.ttl ≤ lastMoment := fun _ _ h => h.1
    cases hp : s.payload with
    | error e =>
      refine .nothing (.submitted (.error (.payload e))) fun w => ?_
      rw [perform, PayloadCache.saveSubmission, hp]
      rfl
    | ok p =>
      refine .write (.ofBytes s.trace.slot s.trace.proposer s.trace.blockHash) p.toBytes
        (.submitted (.ok p)) (fun w => ?_) shown
      rw [perform, PayloadCache.saveSubmission_eq c hp]
      refine StoreProgram.map_run_set ?_ CacheAnswer.submitted w
      rfl
  -- a read needs a key, and nothing else
  | get limit slot proposer block =>
    cases named : PayloadTriple.ofTexts slot proposer block with
    | error e =>
      refine .nothing (.found (.error (.key e))) fun w => ?_
      rw [perform, StoreProgram.runFor_eq_run, PayloadCache.get, PayloadTriple.ofTexts_eq, named]
      rfl
    | ok t =>
      refine .read _ (.entry t) (tellFound c t) fun w => ?_
      rw [perform, StoreProgram.runFor_eq_run, PayloadCache.get, PayloadTriple.ofTexts_eq, named]
      exact map_run_getByKey c t w
  | getByKey source =>
    cases named : source.triple? with
    | error e =>
      refine .nothing (.found (.error (.key e))) fun w => ?_
      rw [perform, source.key?_eq, named]
      rfl
    | ok t =>
      refine .read _ (.entry t) (tellFound c t) fun w => ?_
      rw [perform, source.key?_eq, named]
      exact map_run_getByKey c t w
  | checkStore =>
    -- the answer says that there was one, and not what it was
    refine .read _ .health (fun _ => .checked (.ok ())) fun w => ?_
    rw [perform, PayloadCache.checkStore, StoreProgram.run_call, MemoryStore.act]
    rfl
  | reset => cases call
  | purge => cases call
  | advance by_ => cases call

/-- No operation takes time. -/
theorem now_of_finished {op : CacheOp} (call : op.isCall = true) {w w' : StoreWorld MemoryStore}
    {a : CacheAnswer} (h : op.perform c w = .finished a w') : w'.now = w.now := by
  cases does c call with
  | nothing a' does =>
    rw [does] at h
    cases h
    rfl
  -- a write that crashes does not finish; all that finishes leaves the clock
  | write t value a' does _ =>
    rw [does, StoreWorld.write] at h
    split at h
    · cases h
    · cases h
      rfl
  | read key _ tell does =>
    rw [does] at h
    cases h
    rfl

end CacheOp

/-! ### The relation -/

/-- **Two worlds look alike to a cache:** they have one clock, and show the same under the
addresses that the cache uses, at this time and at any later one. -/
structure LooksAlike (c : PayloadCache) (w v : StoreWorld MemoryStore) : Prop where
  now_eq : w.now = v.now
  /-- A key has at most one entry. -/
  distinct : w.store.Distinct
  distinct' : v.store.Distinct
  live_eq : ∀ later, w.now ≤ later → ∀ key, c.Uses key →
    w.store.live later key = v.store.live later key

namespace LooksAlike

variable {c d : PayloadCache} {w v : StoreWorld MemoryStore} {op : CacheOp}

theorem refl (c : PayloadCache) (h : w.store.Distinct) : LooksAlike c w w :=
  ⟨rfl, h, h, fun _ _ _ _ => rfl⟩

/-- Changes on either side that no reader of that side can see. -/
theorem unseen (h : LooksAlike c w v) {m n : MemoryStore} (distinct : m.Distinct)
    (distinct' : n.Distinct)
    (left : ∀ later, w.now ≤ later → ∀ key, m.live later key = w.store.live later key)
    (right : ∀ later, v.now ≤ later → ∀ key, n.live later key = v.store.live later key) :
    LooksAlike c { w with store := m } { v with store := n } where
  now_eq := h.now_eq
  distinct := distinct
  distinct' := distinct'
  live_eq later hle key used := by
    have hle' : v.now ≤ later := h.now_eq ▸ hle
    -- neither change shows, so what looked alike still does
    calc m.live later key
        = w.store.live later key := left later hle key
      _ = v.store.live later key := h.live_eq later hle key used
      _ = n.live later key := (right later hle' key).symm

/-- A sweep on both sides, though each drops entries of its own. -/
theorem sweep (h : LooksAlike c w v) :
    LooksAlike c { w with store := w.store.sweep w.now }
      { v with store := v.store.sweep v.now } := by
  refine h.unseen (h.distinct.sweep w.now) (h.distinct'.sweep v.now) ?_ ?_
  · intro later hle key
    exact MemoryStore.live_sweep h.distinct hle key
  · intro later hle key
    exact MemoryStore.live_sweep h.distinct' hle key

theorem advance (h : LooksAlike c w v) (by_ : Span) :
    LooksAlike c { w with now := w.now + by_ } { v with now := v.now + by_ } where
  now_eq := congrArg (· + by_) h.now_eq
  distinct := h.distinct
  distinct' := h.distinct'
  live_eq later hle :=
    h.live_eq later (Span.le_trans (Nat.le_add_right w.now.nanos by_.nanos) hle)

/-- One write on both sides. -/
theorem write (h : LooksAlike c w v) (key : String) (value : Bytes) (ttl : Span)
    (a : CacheAnswer) :
    (w.write key value ttl a).Matches (LooksAlike c) (v.write key value ttl a) := by
  -- both sides look at one clock, so the deadline is the same, or is not shown on either
  have same : deadline? v.now ttl = deadline? w.now ttl := by rw [h.now_eq]
  rw [StoreWorld.write, StoreWorld.write]
  cases hd : deadline? w.now ttl with
  | none =>
    rw [MemoryStore.set?_eq_none hd, MemoryStore.set?_eq_none (same.trans hd)]
    exact .crashed
  | some deadline =>
    obtain ⟨m, hm, distinct, self, others⟩ := MemoryStore.set?_eq_some h.distinct hd key value
    obtain ⟨n, hn, distinct', self', others'⟩ :=
      MemoryStore.set?_eq_some h.distinct' (same.trans hd) key value
    rw [hm, hn]
    refine .finished a ⟨h.now_eq, distinct, distinct', fun later hle other used => ?_⟩
    have hle' : v.now ≤ later := h.now_eq ▸ hle
    -- the two stores may have been swept at different writes, which does not show
    by_cases hkey : other = key
    · rw [hkey, self later hle, self' later hle']
    · rw [others later hle other hkey, others' later hle' other hkey]
      exact h.live_eq later hle other used

/-- One read on both sides finds the same. -/
theorem read (h : LooksAlike c w v) {key : String} (used : c.Uses key)
    (tell : Option Bytes → CacheAnswer) :
    (w.read key tell).Matches (LooksAlike c) (v.read key tell) := by
  -- the key is one that both stores agree on
  have found : (w.store.get w.now key).1 = (v.store.get v.now key).1 := by
    rw [MemoryStore.get_answer, MemoryStore.get_answer, ← h.now_eq,
      h.live_eq w.now (Nat.le_refl _) key used]
  rw [StoreWorld.read, StoreWorld.read, found]
  refine .finished _ (h.unseen (h.distinct.get _ _) (h.distinct'.get _ _) ?_ ?_)
  · intro later hle other
    exact MemoryStore.live_get h.distinct hle key other
  · intro later hle other
    exact MemoryStore.live_get h.distinct' hle key other

/-- **An operation of the cache itself** ends alike in both worlds. -/
theorem own (h : LooksAlike c w v) (call : op.isCall = true) :
    (op.perform c w).Matches (LooksAlike c) (op.perform c v) := by
  -- each call does nothing to the store, one write, or one read
  cases CacheOp.does c call with
  | nothing a does =>
    rw [does, does]
    exact .finished a h
  | write t value a does _ =>
    rw [does, does]
    exact h.write _ value c.ttl a
  | read key used tell does =>
    rw [does, does]
    exact h.read used tell

/-- **An operation in another namespace,** on one side only, is answered and does not show. -/
theorem foreign (h : LooksAlike c w v) (apart : c.ns ≠ d.ns) (call : op.isCall = true)
    {ops : List CacheOp} (shown : d.DeadlinesShown w.now (op :: ops)) :
    ∃ a m, op.perform d w = .finished a { w with store := m } ∧
      LooksAlike c { w with store := m } v := by
  cases CacheOp.does d call with
  | nothing a does => exact ⟨a, w.store, does w, h⟩
  | write t value a does represented =>
    have hd : deadline? w.now d.ttl = some (w.now + d.ttl) :=
      if_pos (represented w.now ops shown)
    obtain ⟨m, hm, distinct, -, others⟩ :=
      MemoryStore.set?_eq_some h.distinct hd (t.key.inStore d.ns) value
    refine ⟨a, m, ?_, h.now_eq, distinct, h.distinct', ?_⟩
    · rw [does, StoreWorld.write, hm]
    · intro later hle key used
      -- the address belongs to the other namespace
      rw [others later hle key (used.ne_inStore apart t)]
      exact h.live_eq later hle key used
  | read key _ tell does =>
    -- what the other cache reads may be dropped, but only if it has expired
    refine ⟨_, _, does w, h.unseen (h.distinct.get _ _) h.distinct' ?_ fun _ _ _ => rfl⟩
    intro later hle other
    exact MemoryStore.live_get h.distinct hle key other

end LooksAlike

/-! ### Shared runs -/

/-- The relays that share a store. -/
inductive Tenant where
  | first
  | second
deriving DecidableEq, Repr

def Tenant.other : Tenant → Tenant
  | .first => .second
  | .second => .first

theorem Tenant.eq_other {who tenant : Tenant} (h : tenant ≠ who) : tenant = who.other := by
  cases who <;> cases tenant <;> first | rfl | exact absurd rfl h

theorem Tenant.other_ne (who : Tenant) : who ≠ who.other := by
  cases who <;> decide

/-- An operation that a relay asks of its cache. -/
structure TenantCall where
  tenant : Tenant
  op : CacheOp
  /-- It is one that a relay may ask for. -/
  isCall : op.isCall = true := by rfl

/-- What happens to a shared store. -/
inductive SharedEvent where
  | call (c : TenantCall)
  -- expired entries are swept, and time passes
  | purge
  | advance (by_ : Span)

namespace SharedEvent

/-- Whether an event is an operation of a relay. -/
def isBy (who : Tenant) : SharedEvent → Bool
  | .call c => c.tenant = who
  | .purge => false
  | .advance _ => false

/-- An event in the run of a relay that has the store to itself. -/
def alone? (who : Tenant) : SharedEvent → Option CacheOp
  | .call c => if c.tenant = who then some c.op else none
  | .purge => some .purge
  | .advance by_ => some (.advance by_)

/-- **One event,** with the answer to whoever asked. -/
def perform (caches : Tenant → PayloadCache) (w : StoreWorld MemoryStore) :
    SharedEvent → StoreRun MemoryStore CacheAnswer
  | .call c => c.op.perform (caches c.tenant) w
  | .purge => .finished .quiet { w with store := (w.store.purge w.now).2 }
  | .advance by_ => .finished .quiet { w with now := w.now + by_ }

end SharedEvent

/-- **What a relay is told** in a shared run, up to the end of the process: everything but the
answers to the other relay. -/
def heard (caches : Tenant → PayloadCache) (who : Tenant) :
    List SharedEvent → StoreWorld MemoryStore → List CacheAnswer
  | [], _ => []
  | e :: events, w =>
    match e.perform caches w with
    | .finished a w =>
      if e.isBy who.other then heard caches who events w else a :: heard caches who events w
    | .stuck => []
    | .crashed => []

/-- The run of a relay alone: without the operations of the other. -/
def aloneRun (who : Tenant) (events : List SharedEvent) : List CacheOp :=
  events.filterMap (SharedEvent.alone? who)

/-- An operation that a relay asks for takes no time. -/
theorem PayloadCache.DeadlinesShown.tail {c : PayloadCache} {now : Span} {op : CacheOp}
    {ops : List CacheOp} (call : op.isCall = true) (h : c.DeadlinesShown now (op :: ops)) :
    c.DeadlinesShown now ops := by
  cases op with
  | save limit slot proposer block p => exact h.2
  | saveSubmission s => exact h.2
  -- only writes have deadlines
  | get limit slot proposer block => exact h
  | getByKey source => exact h
  | checkStore => exact h
  | reset => cases call
  | purge => cases call
  | advance by_ => cases call

variable {caches : Tenant → PayloadCache} {who : Tenant} {w v : StoreWorld MemoryStore}

/-- From worlds that look alike to a relay, a shared run tells it what it is told alone. -/
theorem heard_eq_of_looksAlike (apart : (caches who).ns ≠ (caches who.other).ns)
    (events : List SharedEvent)
    (shown : (caches who.other).DeadlinesShown w.now (aloneRun who.other events))
    (h : LooksAlike (caches who) w v) :
    heard caches who events w =
      answers (CacheOp.perform (caches who)) (aloneRun who events) v := by
  -- the two stores go apart, but keep looking alike to this relay
  induction events generalizing w v with
  | nil => rfl
  | cons e events ih =>
    cases e with
    | call c =>
      by_cases mine : c.tenant = who
      · -- the operation happens on both sides, and is heard
        have theirs : c.tenant ≠ who.other := mine ▸ who.other_ne
        have rest : (caches who.other).DeadlinesShown w.now (aloneRun who.other events) := by
          rw [aloneRun, List.filterMap_cons, SharedEvent.alone?, if_neg theirs] at shown
          exact shown
        have ends := h.own c.isCall
        rw [aloneRun, List.filterMap_cons, SharedEvent.alone?, if_pos mine, answers, heard,
          SharedEvent.perform, SharedEvent.isBy, decide_eq_false theirs, mine]
        -- the two runs end alike, so the cases of one decide the other
        revert ends
        generalize c.op.perform (caches who) v = right
        cases performed : c.op.perform (caches who) w with
        | finished a w' =>
          intro ends
          cases ends with
          | finished _ h' =>
            have still := CacheOp.now_of_finished c.isCall performed
            exact congrArg (a :: ·) (ih (still ▸ rest) h')
        | stuck =>
          intro ends
          cases ends
          rfl
        | crashed =>
          intro ends
          cases ends
          rfl
      · -- the operation of the other relay happens on one side only
        have theirs : c.tenant = who.other := Tenant.eq_other mine
        rw [aloneRun, List.filterMap_cons, SharedEvent.alone?, if_pos theirs] at shown
        obtain ⟨a, m, performed, h'⟩ := h.foreign apart c.isCall shown
        rw [aloneRun, List.filterMap_cons, SharedEvent.alone?, if_neg mine, heard,
          SharedEvent.perform, theirs, performed, SharedEvent.isBy, decide_eq_true theirs]
        exact ih (shown.tail c.isCall) h'
    -- sweeps and the clock are common to both runs
    | purge => exact congrArg (CacheAnswer.quiet :: ·) (ih shown h.sweep)
    | advance by_ => exact congrArg (CacheAnswer.quiet :: ·) (ih shown (h.advance by_))

/-- **Nobody notices the other relay.** Two caches with different namespaces, and any lifetimes,
share a store, whatever was in it and however many writes it has counted. As long as the clock can
show the deadlines of the other relay's entries, what a relay is told is what it is told in the
same run without the operations of the other. -/
theorem heard_eq_alone (caches : Tenant → PayloadCache)
    (apart : (caches .first).ns ≠ (caches .second).ns) (who : Tenant) (start : Span)
    {m : MemoryStore} (distinct : m.Distinct) (events : List SharedEvent)
    (shown : (caches who.other).DeadlinesShown start (aloneRun who.other events)) :
    heard caches who events ⟨start, m⟩ =
      answers (CacheOp.perform (caches who)) (aloneRun who events) ⟨start, m⟩ := by
  have apart' : (caches who).ns ≠ (caches who.other).ns := by
    cases who with
    | first => exact apart
    | second => exact apart.symm
  exact heard_eq_of_looksAlike apart' events shown (.refl _ distinct)

/-- Two relays with different lifetimes. -/
def sharingCaches : Tenant → PayloadCache
  | .first => .standard
  | .second => ⟨"boost-relay:cache-payload", .seconds 1⟩

/-- Both relays save under one triple, and the second looks for its payload when it has expired. -/
def sharedRun : List SharedEvent :=
  [.call ⟨.first, .save none 7 "0xab" "0xcd" bellatrixPayload, rfl⟩,
    .call ⟨.second, .save none 7 "0xab" "0xcd" bellatrixPayload, rfl⟩,
    .advance (.seconds 1), .purge,
    .call ⟨.second, .get none 7 "0xab" "0xcd", rfl⟩,
    .call ⟨.second, .checkStore, rfl⟩,
    .call ⟨.first, .get none 7 "0xAB" "0xCD", rfl⟩]

/-- The first relay is told of its own payload only. -/
theorem heard_sharedRun :
    (sharingCaches .first).ns ≠ (sharingCaches .second).ns ∧
      (sharingCaches .second).DeadlinesShown ⟨0⟩ (aloneRun .second sharedRun) ∧
      MemoryStore.empty.Distinct ∧
      heard sharingCaches .first sharedRun ⟨⟨0⟩, .empty⟩ =
        [.saved (.ok ()), .quiet, .quiet, .found (.ok (some bellatrixPayload))] := by
  have apart : (sharingCaches .first).ns ≠ (sharingCaches .second).ns := by decide
  have shown : (sharingCaches .second).DeadlinesShown ⟨0⟩ (aloneRun .second sharedRun) :=
    ⟨by decide, trivial⟩
  have alone := heard_eq_alone sharingCaches apart .first ⟨0⟩ .empty sharedRun shown
  have table := answers_eq_of_matches (fun _ _ op h => h.step op) (aloneRun .first sharedRun)
    (Agrees.initial .standard ⟨0⟩)
  exact ⟨apart, shown, .empty, alone.trans (table.trans rfl)⟩

end BlockRelay
