import BlockRelay.Cache.Switch
import BlockRelay.Proofs.Cache.Refinement
import BlockRelay.Proofs.Hex.Readers

/-!
# One call, or none

Whatever store stands behind a cache, an operation on a payload either refuses its input, and then
the store hears nothing of it, or makes a single call. So a caller can tell from the class of a
failure whether a call was made: input that is malformed never comes with one, and a store that is
unavailable always does.

A store is any `StoreService`: it may answer anything, fail, be long about it, or never answer.
With a time limit a call that is not answered by the deadline is given up, but it has been made
(`StoreProgram.calls`).

* `StoreProgram.Refuses` and `StoreProgram.Asks` are the two things that an operation can do, each
  for every store, limit and time.
* `CacheRequest.refuses_or_asks` says that every operation does one of them.
* `called_once_or_refused` says which of them each operation does and with which call, what the
  classes of failures mean, and what a time limit changes.
-/

namespace BlockRelay

theorem Span.add_le_add_left {a b t : Span} : t + a ≤ t + b ↔ a ≤ b := by
  rw [Span.le_def, Span.le_def, Span.nanos_add, Span.nanos_add, Nat.add_le_add_iff_left]

/-! ### What comes of a call -/

namespace StoreService

variable {σ : Type}

/-- The call is answered in time: after a wait that a limit, if there is one, leaves room for. -/
def Answers (service : StoreService σ) (limit : Option Span) (w : StoreWorld σ) (call : StoreCall)
    (answer : StoreAnswer) (w' : StoreWorld σ) : Prop :=
  ∃ wait, service.delay w.store call = some wait ∧ (∀ t, limit = some t → wait ≤ t) ∧
    w'.now = w.now + wait ∧ service.act w.store w'.now call = some (answer, w'.store)

/-- The call takes longer than a limit, or forever. -/
def Outlasts (service : StoreService σ) (limit : Span) (w : StoreWorld σ) (call : StoreCall) :
    Prop :=
  ∀ wait, service.delay w.store call = some wait → limit < wait

end StoreService

namespace StoreProgram

variable {σ α : Type}

/-- The calls up to a deadline. -/
def callsUntil (service : StoreService σ) (deadline : Option Span) :
    StoreProgram α → StoreWorld σ → List StoreCall
  | .done _, _ => []
  | .call c next, w =>
    c :: match service.delay w.store c with
      | none => []
      | some wait =>
        if deadline.all (w.now + wait ≤ ·) then
          match service.act w.store (w.now + wait) c with
          | none => []
          | some (answer, store) =>
            (next answer).callsUntil service deadline { now := w.now + wait, store }
        else []

/-- **The calls that a run makes,** in order. A call that is given up has been made. -/
def calls (service : StoreService σ) (limit : Option Span) (p : StoreProgram α)
    (w : StoreWorld σ) : List StoreCall :=
  p.callsUntil service (limit.map (w.now + ·)) w

/-- **The program refuses its input:** it fails without a call and without taking time. -/
structure Refuses (p : StoreProgram (Except CacheError α)) (e : CacheError) : Prop where
  calls : ∀ {σ : Type} (service : StoreService σ) limit w, p.calls service limit w = []
  finished : ∀ {σ : Type} (service : StoreService σ) limit w,
    p.runFor service limit w = .finished (.error e) w
  kind : e.kind = .invalidInput

/-- **The program makes one call and ends.** Its caller is told what the answer means; a failure of
the store is passed on as it is, and nothing else is taken for one. A call that outlasts the limit
is given up at the deadline. -/
structure Asks (p : StoreProgram (Except CacheError α)) (call : StoreCall)
    (told : StoreAnswer → Except CacheError α) : Prop where
  calls : ∀ {σ : Type} (service : StoreService σ) limit w, p.calls service limit w = [call]
  finished : ∀ {σ : Type} (service : StoreService σ) limit w r w',
    p.runFor service limit w = .finished r w' ↔
      (∃ answer, service.Answers limit w call answer w' ∧ r = told answer) ∨
      ∃ t, limit = some t ∧ service.Outlasts t w call ∧
        r = .error (.store (.timeout t)) ∧ w' = { w with now := w.now + t }
  told_error : ∀ e, told (.error e) = .error (.store e)
  told_ok : ∀ found e, told (.ok found) = .error e → e.kind = .decode

/-- A program that ends at once in a failure of its input refuses it, with and without a limit. -/
theorem refuses_done {e : CacheError} (kind : e.kind = .invalidInput) :
    (done (.error e : Except CacheError α)).Refuses e where
  calls _ _ _ := rfl
  finished _ limit _ := by cases limit <;> rfl
  kind := kind

section Call

variable {service : StoreService σ} {w w' : StoreWorld σ} {call : StoreCall}
  {told : StoreAnswer → Except CacheError α} {r : Except CacheError α}

/-- Without a limit, a program of one call ends when the answer comes, and only then. -/
theorem run_call_done_iff :
    (StoreProgram.call call fun answer => done (told answer)).run service w = .finished r w' ↔
      ∃ answer, service.Answers none w call answer w' ∧ r = told answer := by
  rw [run]
  constructor
  · intro h
    split at h
    · cases h
    next wait hdelay =>
    dsimp only at h
    split at h
    · cases h
    next answer store hact =>
    cases h
    have unlimited (t : Span) (limited : (none : Option Span) = some t) : wait ≤ t := by
      cases limited
    -- a call that is never answered, or that the store breaks off, ends no run; so an answer came
    exact ⟨answer, ⟨wait, hdelay, unlimited, rfl, hact⟩, rfl⟩
  · -- the answer that came is the one the run waits for
    rintro ⟨answer, ⟨wait, hdelay, -, hnow, hact⟩, rfl⟩
    rw [hnow] at hact
    rw [hdelay]
    dsimp only
    rw [hact]
    dsimp only
    rw [run_done, ← hnow]

/-- With a limit, such a program also ends at its deadline, if no answer has come by then. -/
theorem runWithin_call_done_iff {t : Span} :
    (StoreProgram.call call fun answer => done (told answer)).runWithin service t w =
        .finished r w' ↔
      (∃ answer, service.Answers (some t) w call answer w' ∧ r = told answer) ∨
      service.Outlasts t w call ∧ r = .error (.store (.timeout t)) ∧
        w' = { w with now := w.now + t } := by
  have inTime {wait : Span} (h : wait ≤ t) : ∀ u, some t = some u → wait ≤ u := by
    rintro u ⟨⟩
    exact h
  rw [runWithin, runUntil]
  constructor
  · intro h
    split at h
    · -- never answered: whatever the limit is, the wait outlasts it
      next hdelay =>
      cases h
      refine .inr ⟨?_, rfl, rfl⟩
      intro wait hwait
      rw [hdelay] at hwait
      cases hwait
    next wait hdelay =>
    dsimp only at h
    split at h
    · -- answered by the deadline, and then the store has to have gone on
      next early =>
      split at h
      · cases h
      next answer store hact =>
      cases h
      exact .inl ⟨answer, ⟨wait, hdelay, inTime (Span.add_le_add_left.1 early), rfl, hact⟩, rfl⟩
    · -- answered too late, which the caller does not wait for
      next late =>
      cases h
      refine .inr ⟨?_, rfl, rfl⟩
      intro wait' hwait'
      rw [hdelay] at hwait'
      cases hwait'
      exact Span.not_le.1 (mt Span.add_le_add_left.2 late)
  · -- the other way round, the answer or the lateness says which branch the run takes
    rintro (⟨answer, ⟨wait, hdelay, within, hnow, hact⟩, rfl⟩ | ⟨late, rfl, rfl⟩)
    · rw [hnow] at hact
      rw [hdelay]
      dsimp only
      rw [if_pos (Span.add_le_add_left.2 (within t rfl)), hact]
      dsimp only
      rw [runUntil, ← hnow]
    · cases hdelay : service.delay w.store call with
      | none => rfl
      | some wait =>
        dsimp only
        rw [if_neg (mt Span.add_le_add_left.1 (Span.not_le.2 (late wait hdelay)))]

/-- A call whose answer is passed on without another one. -/
theorem asks_call (told_error : ∀ e, told (.error e) = .error (.store e))
    (told_ok : ∀ found e, told (.ok found) = .error e → e.kind = .decode) :
    (StoreProgram.call call fun answer => done (told answer)).Asks call told where
  calls service limit w := by
    rw [StoreProgram.calls, callsUntil]
    congr 1
    -- what follows the one call is done, however the call came out
    split
    · rfl
    split
    · split <;> rfl
    · rfl
  finished service limit w r w' := by
    cases limit with
    | none =>
      show run service _ w = _ ↔ _
      rw [run_call_done_iff]
      -- without a limit nothing is given up
      exact ⟨.inl, fun h => h.resolve_right nofun⟩
    | some t =>
      show runWithin service t _ w = _ ↔ _
      rw [runWithin_call_done_iff]
      refine or_congr_right ⟨fun h => ⟨t, rfl, h⟩, ?_⟩
      rintro ⟨u, ⟨⟩, h⟩
      exact h
  told_error := told_error
  told_ok := told_ok

end Call

end StoreProgram

/-! ### What operations do -/

namespace PayloadKey

variable {slot : UInt64} {proposer block : String} {cause : HexError} {key : PayloadKey}

/-- A key is made of texts if both of them are hex, and holds their canonical forms. -/
theorem ofTexts_eq_ok_iff : ofTexts slot proposer block = .ok key ↔
    key.slot = slot ∧ Hex.normalize proposer = .ok key.proposer ∧
      Hex.normalize block = .ok key.block := by
  unfold ofTexts
  split
  · -- the texts are read in order, and the first that is malformed ends it
    next h => simp [h]
  next proposer' h =>
  split
  · next h' => simp [h']
  next block' h' =>
  obtain ⟨slot', _, _⟩ := key
  simp only [h, h', Except.ok.injEq, PayloadKey.mk.injEq, eq_comm (a := slot)]

/-- The proposer is to blame whenever it is malformed: it is read first. -/
theorem ofTexts_eq_proposer_iff :
    ofTexts slot proposer block = .error ⟨.proposer, cause⟩ ↔
      Hex.normalize proposer = .error cause := by
  unfold ofTexts
  split
  · next h => simp [h]
  next h =>
  split <;> simp [h]

/-- The block hash is to blame only where the proposer is not. -/
theorem ofTexts_eq_block_iff :
    ofTexts slot proposer block = .error ⟨.block, cause⟩ ↔
      (∃ t, Hex.normalize proposer = .ok t) ∧ Hex.normalize block = .error cause := by
  unfold ofTexts
  split
  · next h => simp [h]
  next h =>
  split
  · next h' => simp [h, h']
  · next h' => simp [h']

end PayloadKey

namespace PayloadCache

variable (c : PayloadCache) {slot : UInt64} {proposer block : String} {p : Payload}
  {b : PayloadBody} {key : PayloadKey} {s : Submission}

/-- What an answer says about the payload at an address. -/
def found (address : String) : StoreAnswer → Except CacheError (Option Payload)
  | .error e => .error (.store e)
  | .ok none => .ok none
  | .ok (some bytes) => (decode address bytes).map some

/-- Bytes that hold no payload are a failure of their own class, whether they are no JSON or cannot
be served. -/
theorem kind_of_decode {address : String} {bytes : Bytes} {e : CacheError}
    (h : decode address bytes = .error e) : e.kind = .decode := by
  unfold decode at h
  -- either the bytes are no JSON of a payload, or the payload cannot be served
  split at h
  · cases h
    rfl
  split at h
  · cases h
  · cases h
    rfl

/-- A payload that cannot be served is refused before its key is looked at. -/
theorem save_refuses_payload {e : PayloadError} (h : p.check = .error e) (slot : UInt64)
    (proposer block : String) : (c.save slot proposer block p).Refuses (.payload e) := by
  rw [save, h]
  exact StoreProgram.refuses_done rfl

/-- Of a payload that can be served, a malformed key is refused before the store is asked. -/
theorem save_refuses_key {e : KeyError} (served : p.check = .ok b)
    (h : PayloadKey.ofTexts slot proposer block = .error e) :
    (c.save slot proposer block p).Refuses (.key e) := by
  rw [save, served, h]
  exact StoreProgram.refuses_done rfl

/-- A save that is not refused is one write, and what it answers is passed on. -/
theorem save_asks (served : p.check = .ok b)
    (h : PayloadKey.ofTexts slot proposer block = .ok key) :
    (c.save slot proposer block p).Asks (.set (key.inStore c.ns) p.toBytes c.ttl) acknowledged := by
  rw [save, served, h]
  apply StoreProgram.asks_call
  · intro e
    rfl
  · intro found e failed
    cases failed

/-- A submission without a payload that can be served is refused. There is no key to be malformed:
its key is made of bytes. -/
theorem saveSubmission_refuses {e : PayloadError}
    (h : (⟨s.fork, s.body⟩ : Payload).check = .error e) :
    (c.saveSubmission s).Refuses (.payload e) := by
  have refused : s.payload = .error e := by rw [Submission.payload, h]
  rw [saveSubmission, refused]
  exact StoreProgram.refuses_done rfl

/-- A submission that is not refused is one write, under the key of its trace. -/
theorem saveSubmission_asks (h : (⟨s.fork, s.body⟩ : Payload).check = .ok b) :
    (c.saveSubmission s).Asks
      (.set ((PayloadKey.ofBytes s.trace.slot s.trace.proposer s.trace.blockHash).inStore c.ns)
        (Payload.toBytes ⟨s.fork, s.body⟩) c.ttl)
      fun answer => (acknowledged answer).map fun _ => ⟨s.fork, s.body⟩ := by
  have accepted : s.payload = .ok ⟨s.fork, s.body⟩ := by rw [Submission.payload, h]
  rw [saveSubmission_eq c accepted]
  apply StoreProgram.asks_call
  · intro e
    rfl
  · intro found e failed
    cases failed

/-- **A read** is one read of the store. What was found is decoded before it is passed on. -/
theorem getByKey_asks (key : PayloadKey) :
    (c.getByKey key).Asks (.get (key.inStore c.ns)) (found (key.inStore c.ns)) := by
  -- the cases of the program are those of `found`, answer by answer
  have eq : c.getByKey key =
      .call (.get (key.inStore c.ns)) fun answer => .done (found (key.inStore c.ns) answer) := by
    rw [getByKey]
    congr 1
    funext answer
    rcases answer with e | (_ | bytes)
    · rfl
    · rfl
    · rfl
  rw [eq]
  refine StoreProgram.asks_call (fun _ => rfl) ?_
  intro answer e h
  cases answer with
  | none => cases h
  | some bytes =>
    -- the bytes were answered, so it is they that are at fault
    cases hd : decode (key.inStore c.ns) bytes with
    | ok p =>
      rw [found, hd] at h
      cases h
    | error e' =>
      rw [found, hd] at h
      cases h
      exact kind_of_decode hd

theorem get_refuses {e : KeyError} (h : PayloadKey.ofTexts slot proposer block = .error e) :
    (c.get slot proposer block).Refuses (.key e) := by
  rw [get, h]
  exact StoreProgram.refuses_done rfl

/-- A read with a key of texts is the read of that key. -/
theorem get_asks (h : PayloadKey.ofTexts slot proposer block = .ok key) :
    (c.get slot proposer block).Asks (.get (key.inStore c.ns)) (found (key.inStore c.ns)) := by
  rw [get, h]
  exact c.getByKey_asks key

end PayloadCache

/-- An operation of a cache on one payload. -/
inductive CacheRequest where
  | save (slot : UInt64) (proposer block : String) (p : Payload)
  | saveSubmission (s : Submission)
  | get (slot : UInt64) (proposer block : String)
  | getByKey (key : PayloadKey)

namespace CacheRequest

/-- What a caller is told that is told of no failure. -/
def Reply : CacheRequest → Type
  | .save _ _ _ _ => Unit
  | .saveSubmission _ => Payload
  | .get _ _ _ => Option Payload
  | .getByKey _ => Option Payload

/-- The program of an operation. -/
def program (c : PayloadCache) : (r : CacheRequest) → StoreProgram (Except CacheError r.Reply)
  | .save slot proposer block p => c.save slot proposer block p
  | .saveSubmission s => c.saveSubmission s
  | .get slot proposer block => c.get slot proposer block
  | .getByKey key => c.getByKey key

/-- **Every operation refuses its input or makes one call.** -/
theorem refuses_or_asks (c : PayloadCache) (r : CacheRequest) :
    (∃ e, (r.program c).Refuses e) ∨ ∃ call told, (r.program c).Asks call told := by
  -- the cases follow the checks of each operation, in the order in which they are made
  cases r with
  | save slot proposer block p =>
    cases served : p.check with
    | error e => exact .inl ⟨_, c.save_refuses_payload served slot proposer block⟩
    | ok b =>
      cases h : PayloadKey.ofTexts slot proposer block with
      | error e => exact .inl ⟨_, c.save_refuses_key served h⟩
      | ok key => exact .inr ⟨_, _, c.save_asks served h⟩
  | saveSubmission s =>
    cases served : (⟨s.fork, s.body⟩ : Payload).check with
    | error e => exact .inl ⟨_, c.saveSubmission_refuses served⟩
    | ok b => exact .inr ⟨_, _, c.saveSubmission_asks served⟩
  | get slot proposer block =>
    cases h : PayloadKey.ofTexts slot proposer block with
    | error e => exact .inl ⟨_, c.get_refuses h⟩
    | ok key => exact .inr ⟨_, _, c.get_asks h⟩
  | getByKey key => exact .inr ⟨_, _, c.getByKey_asks key⟩

end CacheRequest

/-! ### What callers can tell -/

/-- The result is a failure of a class. -/
def FailsAs {α : Type} (r : Except CacheError α) (k : FailureKind) : Prop :=
  ∃ e, r = .error e ∧ e.kind = k

/-- Of what can go wrong with a cache, only a store that is unavailable is worth another try. -/
theorem CacheError.isTransient_kind_iff {e : CacheError} :
    e.kind.isTransient = true ↔ e.kind = .storeUnavailable := by
  cases e <;> simp [kind, FailureKind.isTransient]

namespace StoreProgram

variable {σ α : Type} {p : StoreProgram (Except CacheError α)} {e : CacheError}
  {call : StoreCall} {told : StoreAnswer → Except CacheError α} {service : StoreService σ}
  {limit : Option Span} {w w' : StoreWorld σ} {r : Except CacheError α}

/-- The call of a run, if it makes just one, came to nothing: the store answered with a failure, or
the call was given up. -/
def Lost (p : StoreProgram (Except CacheError α)) (service : StoreService σ) (limit : Option Span)
    (w : StoreWorld σ) : Prop :=
  ∃ call, p.calls service limit w = [call] ∧
    ((∃ e w', service.Answers limit w call (.error e) w') ∨
      ∃ t, limit = some t ∧ service.Outlasts t w call)

/-- Without a call, a failure is one of the input and never one of the store. -/
theorem Refuses.failsAs (h : p.Refuses e) (ends : p.runFor service limit w = .finished r w') :
    FailsAs r .invalidInput ∧ ¬ FailsAs r .storeUnavailable := by
  rw [h.finished] at ends
  cases ends
  refine ⟨⟨e, rfl, h.kind⟩, ?_⟩
  rintro ⟨_, ⟨⟩, unavailable⟩
  rw [h.kind] at unavailable
  cases unavailable

/-- The one call decides between a failure of the store, an answer that holds no payload, and
success. -/
theorem Asks.failsAs (h : p.Asks call told) (ends : p.runFor service limit w = .finished r w') :
    ¬ FailsAs r .invalidInput ∧ (FailsAs r .storeUnavailable ↔ p.Lost service limit w) := by
  rcases (h.finished ..).1 ends with ⟨answer, answered, rfl⟩ | ⟨t, rfl, late, rfl, -⟩
  · -- an answer came in time: the store's failure is passed on, and anything else is none
    cases answer with
    | error e =>
      rw [h.told_error]
      refine ⟨?_, iff_of_true ⟨_, rfl, rfl⟩ ⟨call, h.calls .., .inl ⟨e, w', answered⟩⟩⟩
      rintro ⟨_, ⟨⟩, ⟨⟩⟩
    | ok found =>
      have other (k : FailureKind) (hk : k ≠ .decode) : ¬ FailsAs (told (.ok found)) k := by
        rintro ⟨e, failed, rfl⟩
        exact hk (h.told_ok found e failed)
      refine ⟨other _ nofun, iff_of_false (other _ nofun) ?_⟩
      rintro ⟨call', only, lost⟩
      rw [h.calls, List.cons.injEq] at only
      obtain ⟨rfl, -⟩ := only
      -- the answer that was given was neither a failure nor late
      obtain ⟨wait, hdelay, within, hnow, hact⟩ := answered
      rcases lost with ⟨e, v, wait', hdelay', -, hnow', hact'⟩ | ⟨t, rfl, late⟩
      · rw [hdelay, Option.some.injEq] at hdelay'
        rw [hnow', ← hdelay', ← hnow, hact] at hact'
        cases hact'
      · exact Span.not_le.2 (late wait hdelay) (within t rfl)
  · -- the call was given up, which counts as lost, too
    refine ⟨?_, iff_of_true ⟨_, rfl, rfl⟩ ⟨call, h.calls .., .inr ⟨t, rfl, late⟩⟩⟩
    rintro ⟨_, ⟨⟩, ⟨⟩⟩

/-- A limit changes nothing where no call is made. -/
theorem Refuses.runWithin_iff (h : p.Refuses e) (t : Span) :
    p.runWithin service t w = .finished r w' ↔ p.run service w = .finished r w' := by
  have limited : p.runWithin service t w = _ := h.finished service (some t) w
  have plain : p.run service w = _ := h.finished service none w
  rw [limited, plain]

/-- A limit that leaves the store time to answer changes nothing. -/
theorem Asks.runWithin_iff (h : p.Asks call told) {t : Span}
    (answered : ¬ service.Outlasts t w call) :
    p.runWithin service t w = .finished r w' ↔ p.run service w = .finished r w' := by
  have limited : p.runWithin service t w = _ ↔ _ := h.finished service (some t) w r w'
  have plain : p.run service w = _ ↔ _ := h.finished service none w r w'
  rw [limited, plain]
  constructor
  · rintro (⟨answer, ⟨wait, hdelay, -, rest⟩, rfl⟩ | ⟨u, ⟨⟩, late, -⟩)
    · exact .inl ⟨answer, ⟨wait, hdelay, nofun, rest⟩, rfl⟩
    · -- a timeout would need the call to outlast the limit
      exact absurd late answered
  · rintro (⟨answer, ⟨wait, hdelay, -, rest⟩, rfl⟩ | ⟨u, ⟨⟩, -⟩)
    refine .inl ⟨answer, ⟨wait, hdelay, ?_, rest⟩, rfl⟩
    rintro u ⟨⟩
    -- whatever the wait is, it is this one
    by_contra late
    refine answered fun wait' hwait' => ?_
    rw [hdelay, Option.some.injEq] at hwait'
    rw [← hwait']
    exact Span.not_le.1 late

/-- A limit that the call outlasts ends it at the deadline, with a timeout. -/
theorem Asks.runWithin_of_outlasts (h : p.Asks call told) {t : Span}
    (late : service.Outlasts t w call) :
    p.runWithin service t w =
      .finished (.error (.store (.timeout t))) { w with now := w.now + t } :=
  (h.finished service (some t) w _ _).2 (.inr ⟨t, rfl, late, rfl, rfl⟩)

end StoreProgram

/-- **An operation makes one call, or none, and its result tells which.**

* A payload that cannot be served is refused, whatever the key; then a key of malformed texts, the
  proposer first. Otherwise a save is one write of the payload's bytes under the canonical key,
  for the lifetime of the cache, and a read is one read of the canonical key. A submission is saved
  under the key of its trace, which is the key of the texts of the same bytes.
* A result is a failure of the store, and worth another try, exactly if the one call failed or was
  given up, and a failure of the input exactly if no call was made.
* A time limit changes a result only if the call outlasts it. -/
theorem called_once_or_refused (c : PayloadCache) :
    (∀ slot proposer block p,
      (∀ e, p.check = .error e → (c.save slot proposer block p).Refuses (.payload e)) ∧
      ∀ b, p.check = .ok b →
        (∀ e, PayloadKey.ofTexts slot proposer block = .error e →
          (c.save slot proposer block p).Refuses (.key e)) ∧
        ∀ key, PayloadKey.ofTexts slot proposer block = .ok key →
          (c.save slot proposer block p).Asks (.set (key.inStore c.ns) p.toBytes c.ttl)
            PayloadCache.acknowledged) ∧
    (∀ slot proposer block,
      (∀ e, PayloadKey.ofTexts slot proposer block = .error e →
        (c.get slot proposer block).Refuses (.key e)) ∧
      ∀ key, PayloadKey.ofTexts slot proposer block = .ok key →
        (c.get slot proposer block).Asks (.get (key.inStore c.ns))
          (PayloadCache.found (key.inStore c.ns))) ∧
    (∀ slot proposer block cause key,
      (PayloadKey.ofTexts slot proposer block = .error ⟨.proposer, cause⟩ ↔
        Hex.normalize proposer = .error cause) ∧
      (PayloadKey.ofTexts slot proposer block = .error ⟨.block, cause⟩ ↔
        (∃ t, Hex.normalize proposer = .ok t) ∧ Hex.normalize block = .error cause) ∧
      (PayloadKey.ofTexts slot proposer block = .ok key ↔ key.slot = slot ∧
        Hex.normalize proposer = .ok key.proposer ∧ Hex.normalize block = .ok key.block)) ∧
    (∀ s : Submission,
      (∀ e, (⟨s.fork, s.body⟩ : Payload).check = .error e →
        (c.saveSubmission s).Refuses (.payload e)) ∧
      (∀ b, (⟨s.fork, s.body⟩ : Payload).check = .ok b →
        (c.saveSubmission s).Asks
          (.set ((PayloadKey.ofBytes s.trace.slot s.trace.proposer s.trace.blockHash).inStore c.ns)
            (Payload.toBytes ⟨s.fork, s.body⟩) c.ttl)
          fun answer => (PayloadCache.acknowledged answer).map fun _ => ⟨s.fork, s.body⟩) ∧
      PayloadKey.ofTexts s.trace.slot s.trace.proposer.text s.trace.blockHash.text =
        .ok (.ofBytes s.trace.slot s.trace.proposer s.trace.blockHash)) ∧
    ∀ (request : CacheRequest) (σ : Type) (service : StoreService σ) (w : StoreWorld σ),
      (∀ limit r w', (request.program c).runFor service limit w = .finished r w' →
        (FailsAs r .storeUnavailable ↔ (request.program c).Lost service limit w) ∧
        (FailsAs r .invalidInput ↔ (request.program c).calls service limit w = []) ∧
        ∀ e, r = .error e → (e.kind.isTransient = true ↔ e.kind = .storeUnavailable)) ∧
      ∀ t,
        ((∀ call, (request.program c).calls service (some t) w = [call] →
            ¬ service.Outlasts t w call) →
          ∀ r w', (request.program c).runWithin service t w = .finished r w' ↔
            (request.program c).run service w = .finished r w') ∧
        ∀ call, (request.program c).calls service (some t) w = [call] →
          service.Outlasts t w call →
          (request.program c).runWithin service t w =
            .finished (.error (.store (.timeout t))) { w with now := w.now + t } := by
  refine ⟨fun slot proposer block p => ⟨fun e h => c.save_refuses_payload h slot proposer block,
      fun b served => ⟨fun e h => c.save_refuses_key served h, fun key h => c.save_asks served h⟩⟩,
    fun slot proposer block => ⟨fun e h => c.get_refuses h, fun key h => c.get_asks h⟩,
    fun slot proposer block cause key => ⟨PayloadKey.ofTexts_eq_proposer_iff,
      PayloadKey.ofTexts_eq_block_iff, PayloadKey.ofTexts_eq_ok_iff⟩,
    fun s => ⟨fun e h => c.saveSubmission_refuses h, fun b h => c.saveSubmission_asks h,
      Hex.ofTexts_eq_ofBytes _ s.trace.proposer.parse_text s.trace.blockHash.parse_text⟩,
    fun request σ service w => ?_⟩
  -- the first four parts read off what each operation does; the classes and the limit only depend
  -- on which of the two things it does
  rcases request.refuses_or_asks c with ⟨e, refuses⟩ | ⟨call, told, asks⟩
  · refine ⟨fun limit r w' ends => ?_, fun t => ⟨fun _ r w' => refuses.runWithin_iff t, ?_⟩⟩
    · obtain ⟨invalid, available⟩ := refuses.failsAs ends
      refine ⟨iff_of_false available ?_, iff_of_true invalid (refuses.calls ..),
        fun _ _ => CacheError.isTransient_kind_iff⟩
      rintro ⟨call, only, -⟩
      rw [refuses.calls] at only
      cases only
    · intro call only
      rw [refuses.calls] at only
      cases only
  · refine ⟨fun limit r w' ends => ?_, fun t => ⟨fun answered r w' => ?_, ?_⟩⟩
    · obtain ⟨valid, unavailable⟩ := asks.failsAs ends
      refine ⟨unavailable, iff_of_false valid ?_, fun _ _ => CacheError.isTransient_kind_iff⟩
      intro none_
      rw [asks.calls] at none_
      cases none_
    · exact asks.runWithin_iff (answered call (asks.calls ..))
    · intro call' only late
      rw [asks.calls, List.cons.injEq] at only
      obtain ⟨rfl, -⟩ := only
      exact asks.runWithin_of_outlasts late

/-- A store that waits ten nanoseconds: a payload without a body is refused before its key, a key
before the store, and a save goes through if its limit leaves room for the wait. -/
theorem called_once_or_refused_slow :
    let w : StoreWorld SwitchedStore := ⟨⟨0⟩, ⟨.slow ⟨10⟩, .empty⟩⟩
    let save := PayloadCache.standard.save 7 "AB" "0Xcd" bellatrixPayload
    let call : StoreCall :=
      .set "boost-relay:cache-payload:7:0xab:0xcd" bellatrixPayload.toBytes ⟨45000000000⟩
    (PayloadCache.standard.save 7 "" "" ⟨.phase0, none⟩).Refuses
        (.payload (.unsupported .phase0)) ∧
      (PayloadCache.standard.save 7 "zz" "" bellatrixPayload).Refuses
        (.key ⟨.proposer, .notHex "zz"⟩) ∧
      save.Asks call PayloadCache.acknowledged ∧
      save.runWithin SwitchedStore.service ⟨9⟩ w =
        .finished (.error (.store (.timeout ⟨9⟩))) { w with now := ⟨9⟩ } ∧
      save.Lost SwitchedStore.service (some ⟨9⟩) w ∧
      ¬ save.Lost SwitchedStore.service (some ⟨10⟩) w := by
  intro w save call
  obtain ⟨saves, -, -, -, told⟩ := called_once_or_refused .standard
  have served : bellatrixPayload.check = .ok _ := rfl
  -- the texts of the key are two spellings of the canonical ones
  have address : PayloadKey.inStore ⟨7, "0xab", "0xcd"⟩ PayloadCache.standard.ns =
      "boost-relay:cache-payload:7:0xab:0xcd" := by decide +kernel
  have asks := ((saves 7 "AB" "0Xcd" bellatrixPayload).2 _ served).2 ⟨7, "0xab", "0xcd"⟩ (by decide)
  rw [address] at asks
  -- the store needs ten nanoseconds, and the limit is nine
  have late : SwitchedStore.service.Outlasts ⟨9⟩ w call := by
    rintro wait ⟨⟩
    decide
  have gone : save.runWithin SwitchedStore.service ⟨9⟩ w =
      .finished (.error (.store (.timeout ⟨9⟩))) { w with now := ⟨9⟩ } :=
    ((told (.save 7 "AB" "0Xcd" bellatrixPayload) _ SwitchedStore.service w).2 ⟨9⟩).2 call
      (asks.calls ..) late
  -- being unavailable is the class of exactly those calls that are lost
  have classes (t : Span) (r : Except CacheError Unit) (w' : StoreWorld SwitchedStore)
      (ends : save.runFor SwitchedStore.service (some t) w = .finished r w') :
      FailsAs r .storeUnavailable ↔ save.Lost SwitchedStore.service (some t) w :=
    ((told (.save 7 "AB" "0Xcd" bellatrixPayload) _ SwitchedStore.service w).1 (some t) r w'
      ends).1
  refine ⟨(saves 7 "" "" ⟨.phase0, none⟩).1 _ rfl,
    ((saves 7 "zz" "" bellatrixPayload).2 _ served).1 _ (by decide), asks, gone,
    (classes _ _ _ gone).1 ⟨_, rfl, rfl⟩, ?_⟩
  have shown : deadline? ⟨10⟩ ⟨45000000000⟩ = some ⟨45000000010⟩ := rfl
  obtain ⟨m, written, -⟩ := MemoryStore.set?_eq_some .empty shown
    "boost-relay:cache-payload:7:0xab:0xcd" bellatrixPayload.toBytes
  have acts : SwitchedStore.service.act w.store ⟨10⟩ call = some (.ok none, ⟨.slow ⟨10⟩, m⟩) := by
    simp only [SwitchedStore.service, SwitchedStore.act, MemoryStore.act, w, call, written]
    rfl
  -- with a limit of ten nanoseconds the answer is just in time
  have inTime : ∀ t : Span, some ⟨10⟩ = some t → (⟨10⟩ : Span) ≤ t := by
    rintro t ⟨⟩
    exact Nat.le_refl 10
  have saved : save.runFor SwitchedStore.service (some ⟨10⟩) w =
      .finished (.ok ()) ⟨⟨10⟩, ⟨.slow ⟨10⟩, m⟩⟩ :=
    (asks.finished ..).2 (.inl ⟨.ok none, ⟨⟨10⟩, rfl, inTime, rfl, acts⟩, rfl⟩)
  intro lost
  obtain ⟨e, failed, -⟩ := (classes _ _ _ saved).2 lost
  cases failed

end BlockRelay
