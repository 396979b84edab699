import BlockRelay.Refresh.Pass
import BlockRelay.Proofs.Beacon.Overlap
import BlockRelay.Proofs.Cache.Calls
import BlockRelay.Proofs.Cache.Identity

/-!
# How a pass can end

A pass asks the store and then the source, and whoever called it goes by what it returns. Two things
are decided by the order of the two: a store that fails keeps the source from being asked, and a
source that fails must not have changed anything.

The store is any `StoreService`, with whatever it answers to the one read that a pass makes
(`StoreService.Answers`); the source is any function of a state, so that a source whose state is the
one from before has not been asked. What the store holds is seen through a view of its entries.
About the view it is assumed that a read leaves the entries of other keys alone
(`StoreService.ReadsLeave`), which is so for the store in memory (`MemoryStore.readsLeave_find?`):
its reads drop what they find expired.

* `PassEnds` has one constructor for each way in which a pass can go, and `passEnds_runPass` says
  that there is no other.
* `runPass_installs_or_keeps` collects what a caller can rely on.
-/

namespace BlockRelay

/-! ### Reads of a store -/

/-- **A read leaves alone** what a store holds under other keys. -/
def StoreService.ReadsLeave {σ α : Type} (service : StoreService σ) (entry : σ → String → α) :
    Prop :=
  ∀ m now key answer m', service.act m now (.get key) = some (answer, m') →
    ∀ other, other ≠ key → entry m' other = entry m other

namespace MemoryStore

/-- Dropping a key that has expired changes nothing under another one. -/
theorem find?_dropExpired_of_ne (m : MemoryStore) {key other : String} (now : Span)
    (h : other ≠ key) : (m.dropExpired key now).find? other = m.find? other := by
  unfold find? dropExpired
  rw [List.find?_filter]
  congr 2
  funext e
  -- an entry of the other key passes the filter
  by_cases same : e.1 = other
  · simp [same, h]
  · simp [same]

/-- The store in memory leaves all other keys alone when one is read, though it may drop the one. -/
theorem readsLeave_find? : service.ReadsLeave find? := by
  intro m now key answer m' acts other apart
  -- the answer does not matter here, only the store that the read leaves
  have read : (m.get now key).2 = m' := by
    change some (Except.ok (m.get now key).1, (m.get now key).2) = _ at acts
    cases acts
    rfl
  rw [← read]
  unfold get
  split
  · rfl
  · exact m.find?_dropExpired_of_ne now apart
  · rfl

end MemoryStore

/-! ### Ways to go -/

section Pass

variable {σ φ : Type} {c : PayloadCache} {service : StoreService σ} {source : ValidatorSource φ}
  {now : Nat} {s : PassState σ φ} {w : StoreWorld σ}

/-- What becomes of the read that a pass begins with: the store's answer, and the clock and the
store behind it. -/
def PassState.Hears (c : PayloadCache) (service : StoreService σ) (s : PassState σ φ)
    (answer : StoreAnswer) (w : StoreWorld σ) : Prop :=
  service.Answers none s.world (.get (healthKey c.ns)) answer w

/-- The check ends exactly with an answer of the store, as the check puts it. -/
theorem run_checkStore_iff {r : Except CacheError Unit} :
    c.checkStore.run service s.world = .finished r w ↔
      ∃ answer, s.Hears c service answer w ∧ r = PayloadCache.acknowledged answer :=
  StoreProgram.run_call_done_iff

/-- If the store fails, the pass ends there, and the source is not asked. -/
theorem runPass_of_store_failed {e : StoreError} (heard : s.Hears c service (.error e) w) :
    runPass c service source now s =
      .finished (.error (.cache (.store e))) { s with world := w } := by
  have ran := run_checkStore_iff.2 ⟨_, heard, rfl⟩
  unfold runPass
  rw [ran]
  rfl

section Answered

variable {found : Option Bytes} (heard : s.Hears c service (.ok found) w)
include heard

/-- If the store answers, with an entry or without, the pass is a refresh. -/
theorem runPass_of_answered :
    runPass c service source now s =
      match s.registry.refresh source now s.source with
      | (.error e, registry, source) => .finished (.error (.beacon e)) ⟨w, registry, source⟩
      | (.ok (), registry, source) => .finished (.ok registry.count) ⟨w, registry, source⟩ := by
  have ran := run_checkStore_iff.2 ⟨_, heard, rfl⟩
  unfold runPass
  rw [ran]
  rfl

/-- If the source fails, the registry stays, and the source has been asked once. -/
theorem runPass_of_source_failed (beacon : s.registry.mode = .beacon) {e : BeaconError}
    (asked : (source.ask s.source).1 = .error e) :
    runPass c service source now s =
      .finished (.error (.beacon e)) ⟨w, s.registry, (source.ask s.source).2⟩ := by
  rw [runPass_of_answered heard]
  unfold Registry.refresh
  rw [beacon]
  dsimp only
  rw [asked]
  rfl

/-- If the source lists validators, they are installed, and the pass gives their number. -/
theorem runPass_of_listed (beacon : s.registry.mode = .beacon) {list : List ListedValidator}
    (asked : (source.ask s.source).1 = .ok list) :
    runPass c service source now s =
      .finished (.ok (canonicalKeys list).dedup.length)
        ⟨w, { s.registry with current := .ofList now list }, (source.ask s.source).2⟩ := by
  rw [runPass_of_answered heard, ← ValidatorSet.size_ofList now list]
  unfold Registry.refresh
  rw [beacon]
  dsimp only
  rw [asked]
  rfl

end Answered

/-- **All ways in which a pass can go,** with a registry that has a source. -/
inductive PassEnds (c : PayloadCache) (service : StoreService σ) (source : ValidatorSource φ)
    (now : Nat) (s : PassState σ φ) : PassEnd σ φ → Prop where
  /-- The store fails, and everything else is as it was. -/
  | storeFails (e : StoreError) (w : StoreWorld σ) (heard : s.Hears c service (.error e) w) :
    PassEnds c service source now s (.finished (.error (.cache (.store e))) { s with world := w })
  /-- The store answers, and the source fails. -/
  | sourceFails (found : Option Bytes) (w : StoreWorld σ) (e : BeaconError)
      (heard : s.Hears c service (.ok found) w) (asked : (source.ask s.source).1 = .error e) :
    PassEnds c service source now s
      (.finished (.error (.beacon e)) ⟨w, s.registry, (source.ask s.source).2⟩)
  /-- The store answers, and the list of the source is installed. -/
  | installs (found : Option Bytes) (w : StoreWorld σ) (list : List ListedValidator)
      (heard : s.Hears c service (.ok found) w) (asked : (source.ask s.source).1 = .ok list) :
    PassEnds c service source now s
      (.finished (.ok (canonicalKeys list).dedup.length)
        ⟨w, { s.registry with current := .ofList now list }, (source.ask s.source).2⟩)
  /-- The store never answers. -/
  | stuck : PassEnds c service source now s .stuck
  | crashed : PassEnds c service source now s .crashed

/-- A pass ends in one of the five ways. -/
theorem passEnds_runPass (beacon : s.registry.mode = .beacon) :
    PassEnds c service source now s (runPass c service source now s) := by
  cases ran : c.checkStore.run service s.world with
  | stuck =>
    unfold runPass
    rw [ran]
    exact .stuck
  | crashed =>
    unfold runPass
    rw [ran]
    exact .crashed
  -- the check has ended, with an answer of the store or an error of it
  | finished r w =>
    obtain ⟨answer, heard, -⟩ := run_checkStore_iff.1 ran
    -- the store answered; only after a good answer is the source asked
    cases answer with
    | error e =>
      rw [runPass_of_store_failed heard]
      exact .storeFails e w heard
    | ok found =>
      cases asked : (source.ask s.source).1 with
      | error e =>
        rw [runPass_of_source_failed heard beacon asked]
        exact .sourceFails found w e heard asked
      | ok list =>
        rw [runPass_of_listed heard beacon asked]
        exact .installs found w list heard asked

/-! ### What callers can rely on -/

/-- No payload is under the key that is read. -/
theorem PassState.Hears.entry_eq {α : Type} {entry : σ → String → α} {answer : StoreAnswer}
    (h : s.Hears c service answer w) (reads : service.ReadsLeave entry) (t : PayloadTriple)
    (ns : String) : entry w.store (t.key.inStore ns) = entry s.world.store (t.key.inStore ns) := by
  obtain ⟨wait, -, -, -, acts⟩ := h
  exact reads _ _ _ _ _ acts _ (t.inStore_ne_healthKey ns c.ns)

/-- **A pass installs a whole list, or it changes nothing and says whose fault that is.**

* It succeeds exactly if the store answers its read, with an entry or without, and the source lists;
  it returns the number of different canonical keys in the list, whose set is then installed.
* If the store fails, the source is not asked: it does not matter which source it is, and its state
  is the one from before. The failure is the store's, of the class for stores that are unavailable.
* If the source fails, the failure is the one that the source gave, of its own class.
* Whenever it fails, the registry answers every query as before, and the store holds the same under
  the key of every payload, in every namespace. -/
theorem runPass_installs_or_keeps {α : Type} {entry : σ → String → α}
    (beacon : s.registry.mode = .beacon) (reads : service.ReadsLeave entry) :
    (∀ n, (∃ s', runPass c service source now s = .finished (.ok n) s') ↔
      (∃ found w, s.Hears c service (.ok found) w) ∧
        ∃ list, (source.ask s.source).1 = .ok list ∧ n = (canonicalKeys list).dedup.length) ∧
    (∀ n s', runPass c service source now s = .finished (.ok n) s' →
      s'.registry.count = n ∧ ∃ list, (source.ask s.source).1 = .ok list ∧
        s'.registry.current = .ofList now list) ∧
    (∀ e w, s.Hears c service (.error e) w →
      (∀ source : ValidatorSource φ, runPass c service source now s =
        .finished (.error (.cache (.store e))) { s with world := w }) ∧
        (Failure.cache (.store e)).kind = .storeUnavailable) ∧
    (∀ found w e, s.Hears c service (.ok found) w → (source.ask s.source).1 = .error e →
      runPass c service source now s =
          .finished (.error (.beacon e)) ⟨w, s.registry, (source.ask s.source).2⟩ ∧
        (Failure.beacon e).kind = e.kind ∧ (Failure.beacon e).message = e.message) ∧
    (∀ e s', runPass c service source now s = .finished (.error e) s' →
      (∀ q, s'.registry.reply q = s.registry.reply q) ∧
        ∀ (t : PayloadTriple) (ns : String),
          entry s'.world.store (t.key.inStore ns) = entry s.world.store (t.key.inStore ns)) := by
  have ends : PassEnds c service source now s (runPass c service source now s) :=
    passEnds_runPass beacon
  refine ⟨fun n => ⟨?_, ?_⟩, ?_, ?_, ?_, ?_⟩
  · rintro ⟨s', ended⟩
    rw [ended] at ends
    -- of the five ways to end, only one is a success
    cases ends with
    | installs found w list heard asked => exact ⟨⟨found, w, heard⟩, list, asked, rfl⟩
  · rintro ⟨⟨found, w, heard⟩, list, asked, rfl⟩
    exact ⟨_, runPass_of_listed heard beacon asked⟩
  · intro n s' ended
    rw [ended] at ends
    cases ends with
    | installs found w list heard asked =>
      exact ⟨ValidatorSet.size_ofList now list, list, asked, rfl⟩
  · intro e w heard
    exact ⟨fun source => runPass_of_store_failed heard, rfl⟩
  · intro found w e heard asked
    exact ⟨runPass_of_source_failed heard beacon asked, rfl, rfl⟩
  · intro e s' ended
    rw [ended] at ends
    -- in both of the cases that are left, the registry is the one from before
    cases ends with
    | storeFails e w heard => exact ⟨fun q => rfl, heard.entry_eq reads⟩
    | sourceFails found w e heard asked => exact ⟨fun q => rfl, heard.entry_eq reads⟩

end Pass

/-- A store with a payload, and with an entry under the health key that has expired; a registry with
one validator. -/
def passState : PassState MemoryStore Unit where
  world := ⟨⟨5⟩, ⟨[(healthKey "boost-relay", ⟨[], ⟨5⟩⟩),
    ((PayloadTriple.key ⟨1, [0xAA], [9]⟩).inStore "boost-relay", ⟨[1], ⟨9⟩⟩)], 2⟩⟩
  registry := ⟨.beacon, .ofList 3 [⟨none, none, "0xAB"⟩]⟩
  source := ()

/-- A source that is not ready. -/
def syncing : ValidatorSource Unit := ⟨fun _ => (.error (.badResponse 503 "syncing"), ())⟩

/-- With a source that is not ready, the read has dropped the expired entry, and that is all. -/
theorem runPass_keeps_passState :
    passState.registry.mode = .beacon ∧ MemoryStore.service.ReadsLeave MemoryStore.find? ∧
    ∃ w, passState.Hears .standard MemoryStore.service (.ok none) w ∧ w.store.size = 1 ∧
      runPass .standard MemoryStore.service syncing 7 passState =
        .finished (.error (.beacon (.badResponse 503 "syncing"))) ⟨w, passState.registry, ()⟩ ∧
      (Failure.beacon (.badResponse 503 "syncing")).kind = .beaconBadResponse ∧
      w.store.find? ((PayloadTriple.key ⟨1, [0xAA], [9]⟩).inStore "boost-relay") =
        some ⟨[1], ⟨9⟩⟩ := by
  have beacon : passState.registry.mode = .beacon := rfl
  -- the health key has just expired, so the read drops it and answers that there is none
  have heard : passState.Hears .standard MemoryStore.service (.ok none)
      ⟨⟨5⟩, (passState.world.store.get ⟨5⟩ (healthKey "boost-relay")).2⟩ :=
    ⟨⟨0⟩, rfl, nofun, rfl, by decide +kernel⟩
  have pass := @runPass_installs_or_keeps MemoryStore Unit .standard MemoryStore.service syncing 7
    passState _ MemoryStore.find? beacon MemoryStore.readsLeave_find?
  obtain ⟨-, -, -, sourceFails, keeps⟩ := pass
  obtain ⟨ended, kind, -⟩ := sourceFails _ _ _ heard rfl
  refine ⟨beacon, MemoryStore.readsLeave_find?, _, heard, by decide +kernel, ended, kind, ?_⟩
  exact ((keeps _ _ ended).2 _ _).trans (by decide +kernel)

end BlockRelay
