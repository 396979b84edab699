import BlockRelay.Settings.Services
import BlockRelay.Proofs.Cache.Foreign

/-!
# The lifetime that settings give to payloads

Settings give a number of seconds, and the cache adds them to the time of a write. Settings are
accepted with any number but zero, so a deadline is always ahead of its write; but the clock cannot
show every moment, and nothing keeps the sum within its range. `Settings.saved_iff_shown` says what
follows for the cache on the store in memory: where the seconds of the sum fit the clock, a payload
is saved and can be read at once; where they do not, the process ends in the middle of the save.
`Settings.exists_accepted_crash` has settings of the second kind.
-/

namespace BlockRelay

/-- The number of seconds from which on the clock shows no moment. -/
def secondsOfClock : Nat := 0x8000000000000000

/-- Whether the clock shows a moment some seconds ahead depends on whole seconds alone. -/
theorem add_seconds_le_lastMoment_iff (now : Span) (n : Nat) :
    now + .seconds n ≤ lastMoment ↔ now.toSeconds + n < secondsOfClock := by
  rw [Span.le_def, Span.nanos_add]
  simp only [Span.seconds, Span.toSeconds, lastMoment, secondsOfClock]
  omega

namespace PayloadCache

variable {m m' : MemoryStore} {now : Span} {slot : UInt64} {proposer block : String}
  {key : PayloadKey} {p : Payload} {b : PayloadBody}

/-- A save whose deadline the clock can show is acknowledged, and the payload is fresh behind it. -/
theorem run_save_of_shown (c : PayloadCache) (limit : Option Span) (accepted : p.check = .ok b)
    (named : PayloadKey.ofTexts slot proposer block = .ok key) (shown : now + c.ttl ≤ lastMoment)
    (lives : 0 < c.ttl.nanos) (m : MemoryStore) :
    ∃ m', (c.save slot proposer block p).runFor MemoryStore.service limit ⟨now, m⟩ =
        .finished (.ok ()) ⟨now, m'⟩ ∧
      m'.lookup (key.inStore c.ns) now = .fresh p.toBytes := by
  obtain ⟨m', written⟩ := MemoryStore.set?_isSome shown m (key.inStore c.ns) p.toBytes
  have acts : m.act now (.set (key.inStore c.ns) p.toBytes c.ttl) = some (.ok none, m') := by
    rw [MemoryStore.act, written, Option.map_some]
  -- the deadline lies ahead, so the value is there for a reader at the same moment
  have ahead : now < now + c.ttl := Nat.lt_add_of_pos_right lives
  refine ⟨m', ?_, MemoryStore.lookup_of_set? written (Nat.le_refl now.nanos) ahead⟩
  rw [StoreProgram.runFor_eq_run, save, accepted]
  dsimp only
  rw [named]
  dsimp only
  rw [saveChecked, StoreProgram.run_call, acts]
  rfl

/-- A save whose deadline the clock cannot show ends the process. -/
theorem run_save_of_not_shown (c : PayloadCache) (limit : Option Span) (accepted : p.check = .ok b)
    (named : PayloadKey.ofTexts slot proposer block = .ok key) (hidden : ¬ now + c.ttl ≤ lastMoment)
    (m : MemoryStore) :
    (c.save slot proposer block p).runFor MemoryStore.service limit ⟨now, m⟩ = .crashed := by
  have none_ : deadline? now c.ttl = none := if_neg hidden
  -- without a deadline the store cannot write, and breaks off
  have acts : m.act now (.set (key.inStore c.ns) p.toBytes c.ttl) = none := by
    rw [MemoryStore.act, MemoryStore.set?_eq_none none_, Option.map_none]
  rw [StoreProgram.runFor_eq_run, save, accepted]
  dsimp only
  rw [named]
  dsimp only
  rw [saveChecked, StoreProgram.run_call, acts]

/-- A fresh payload is served under every spelling of its key. -/
theorem run_get_of_fresh (c : PayloadCache) (limit : Option Span) (accepted : p.check = .ok b)
    (named : PayloadKey.ofTexts slot proposer block = .ok key)
    (fresh : m.lookup (key.inStore c.ns) now = .fresh p.toBytes) :
    (c.get slot proposer block).runFor MemoryStore.service limit ⟨now, m⟩ =
      .finished (.ok (some p)) ⟨now, m⟩ := by
  -- the bytes are the payload's own
  have decoded : decode (key.inStore c.ns) p.toBytes = .ok p :=
    (decode_eq_ok_iff _).2 ⟨ofBytes?_eq_some_iff.1 p.ofBytes?_toBytes, b, accepted⟩
  rw [StoreProgram.runFor_eq_run, get, named]
  dsimp only
  rw [getByKey, StoreProgram.run_call, MemoryStore.act_get_of_fresh fresh]
  dsimp only
  rw [decoded]
  rfl

end PayloadCache

namespace Settings

/-- Accepted settings give payloads some time. -/
theorem ttl_ne_zero_of_check {s : Settings} (accepted : s.check = .ok ()) :
    s.store.payloadTtlSeconds ≠ 0 := by
  intro zero
  rw [check, fault?, if_pos zero] at accepted
  cases accepted

/-- **When payloads can be saved with accepted settings.** The cache of the settings saves a payload
that is valid under a key that is well-formed if the clock can show the deadline, and then serves it
at the same moment, under any spelling of the key. If the clock cannot show it, the save ends the
process. Which of the two it is depends on the seconds of the clock and of the lifetime alone. -/
theorem saved_iff_shown {s : Settings} (accepted : s.check = .ok ())
    (memory : s.store.backend = .memory) :
    ∃ c line, s.openCache = .ok (c, line) ∧
      ∀ (now : Span) (m : MemoryStore) (limit : Option Span) (p : Payload) (b : PayloadBody)
        (slot : UInt64) (proposer block : String) (key : PayloadKey),
        p.check = .ok b → PayloadKey.ofTexts slot proposer block = .ok key →
        let saved := (c.save slot proposer block p).runFor MemoryStore.service limit ⟨now, m⟩
        (now.toSeconds + s.store.payloadTtlSeconds.toNat < secondsOfClock →
          ∃ m', saved = .finished (.ok ()) ⟨now, m'⟩ ∧
            ∀ proposer' block', PayloadKey.ofTexts slot proposer' block' = .ok key →
              (c.get slot proposer' block').runFor MemoryStore.service limit ⟨now, m'⟩ =
                .finished (.ok (some p)) ⟨now, m'⟩) ∧
        (secondsOfClock ≤ now.toSeconds + s.store.payloadTtlSeconds.toNat → saved = .crashed) := by
  -- settings with a TTL of zero are not accepted
  have positive : 0 < s.payloadCache.ttl.nanos := by
    have some_ : s.store.payloadTtlSeconds.toNat ≠ 0 := fun zero =>
      ttl_ne_zero_of_check accepted (UInt64.toNat_inj.1 zero)
    simp only [payloadCache, Span.seconds]
    omega
  rw [openCache, memory]
  refine ⟨s.payloadCache, _, rfl, ?_⟩
  intro now m limit p b slot proposer block key valid named saved
  constructor
  · intro fits
    have shown : now + s.payloadCache.ttl ≤ lastMoment :=
      (add_seconds_le_lastMoment_iff now _).2 fits
    obtain ⟨m', done, fresh⟩ :=
      s.payloadCache.run_save_of_shown limit valid named shown positive m
    refine ⟨m', done, ?_⟩
    intro proposer' block' respelled
    exact s.payloadCache.run_get_of_fresh limit valid respelled fresh
  · -- the store adds before it writes, and there is no such sum
    intro beyond
    have hidden : ¬ now + s.payloadCache.ttl ≤ lastMoment := fun shown =>
      Nat.not_lt.2 beyond ((add_seconds_le_lastMoment_iff now _).1 shown)
    exact s.payloadCache.run_save_of_not_shown limit valid named hidden m

/-- With the usual lifetime, a payload is saved and served under another spelling of its key even
when the clock shows 9223372036854775762 seconds, and one second later no more. -/
theorem saved_iff_shown_standard :
    (({} : Settings).check = .ok () ∧ ({} : Settings).store.backend = .memory) ∧
    bellatrixPayload.check = .ok (bellatrixPayload.body.get rfl) ∧
    PayloadKey.ofTexts 7 "0xAB" "cd" = .ok ⟨7, "0xab", "0xcd"⟩ ∧
    (∃ m, (PayloadCache.standard.save 7 "0xAB" "cd" bellatrixPayload).runFor MemoryStore.service
        none ⟨.seconds 9223372036854775762, .empty⟩ =
          .finished (.ok ()) ⟨.seconds 9223372036854775762, m⟩ ∧
      (PayloadCache.standard.get 7 "AB" "0XCD").runFor MemoryStore.service
        none ⟨.seconds 9223372036854775762, m⟩ =
          .finished (.ok (some bellatrixPayload)) ⟨.seconds 9223372036854775762, m⟩) ∧
    (PayloadCache.standard.save 7 "0xAB" "cd" bellatrixPayload).runFor MemoryStore.service
      none ⟨.seconds 9223372036854775763, .empty⟩ = .crashed := by
  have accepted : ({} : Settings).check = .ok () := by decide
  have valid : bellatrixPayload.check = .ok (bellatrixPayload.body.get rfl) := rfl
  have named : PayloadKey.ofTexts 7 "0xAB" "cd" = .ok ⟨7, "0xab", "0xcd"⟩ := by decide
  have respelled : PayloadKey.ofTexts 7 "AB" "0XCD" = .ok ⟨7, "0xab", "0xcd"⟩ := by decide
  obtain ⟨c, line, opened, law⟩ := saved_iff_shown accepted rfl
  cases opened
  refine ⟨⟨accepted, rfl⟩, valid, named, ?_, ?_⟩
  · -- 45 s more are the last second that the clock can show
    obtain ⟨m, saved, served⟩ :=
      (law (.seconds 9223372036854775762) .empty none _ _ _ _ _ _ valid named).1 (by decide)
    exact ⟨m, saved, served _ _ respelled⟩
  · exact (law (.seconds 9223372036854775763) .empty none _ _ _ _ _ _ valid named).2 (by decide)

/-- Settings with more seconds than the clock has. -/
def endless : Settings where
  store := { payloadTtlSeconds := 0x8000000000000000 }

/-- **Not every accepted lifetime can be added to the clock:** with `endless` settings, which are
accepted, the first save ends the process. -/
theorem exists_accepted_crash :
    endless.check = .ok () ∧
    ¬ ∀ s : Settings, s.check = .ok () → s.store.backend = .memory →
      ∀ c line, s.openCache = .ok (c, line) →
      ∀ (now : Span) (m : MemoryStore) (p : Payload) (b : PayloadBody)
        (slot : UInt64) (proposer block : String) (key : PayloadKey),
        p.check = .ok b → PayloadKey.ofTexts slot proposer block = .ok key →
        ∃ m', (c.save slot proposer block p).run MemoryStore.service ⟨now, m⟩ =
            .finished (.ok ()) ⟨now, m'⟩ ∧
          (c.get slot proposer block).run MemoryStore.service ⟨now, m'⟩ =
            .finished (.ok (some p)) ⟨now, m'⟩ := by
  have accepted : endless.check = .ok () := by decide
  refine ⟨accepted, ?_⟩
  intro law
  have valid : bellatrixPayload.check = .ok (bellatrixPayload.body.get rfl) := rfl
  have named : PayloadKey.ofTexts 7 "0xAB" "cd" = .ok ⟨7, "0xab", "0xcd"⟩ := by decide
  -- the clock cannot show the deadline even at its start
  have hidden : ¬ (⟨0⟩ : Span) + endless.payloadCache.ttl ≤ lastMoment := by decide
  obtain ⟨m', saved, -⟩ := law endless accepted rfl _ _ rfl ⟨0⟩ .empty _ _ _ _ _ _ valid named
  have crashed := endless.payloadCache.run_save_of_not_shown none valid named hidden .empty
  rw [StoreProgram.runFor_eq_run, saved] at crashed
  cases crashed

end Settings

end BlockRelay
