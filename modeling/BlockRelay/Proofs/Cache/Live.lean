import Mathlib.Data.List.Nodup
import BlockRelay.Cache.Memory

/-!
# What readers of the store in memory see

Of the entries in the store a reader only ever sees those whose deadline has not come. `live` is
this view: what a key shows at a time, deadline included. Expired entries may still be there, or
may have been dropped by a read or by a sweep, and the view cannot tell. Each call has one lemma
that says what it does to the view from its own time on:

* a read answers from the view and leaves it as it was (`get_answer`, `live_get`);
* a sweep leaves it as it was (`live_sweep`);
* a write puts its value under its key and leaves all other keys as they were, whether or not it
  ends with a sweep (`set?_eq_some`).

A clear leaves nothing to see. The drops are only invisible because a key has no second entry that
would come to light: `Distinct` says so, and every call keeps it.
-/

namespace BlockRelay

theorem Span.le_trans {a b c : Span} (hab : a ≤ b) (hbc : b ≤ c) : a ≤ c := Nat.le_trans hab hbc

theorem Span.lt_of_le_of_lt {a b c : Span} (hab : a ≤ b) (hbc : b < c) : a < c :=
  Nat.lt_of_le_of_lt hab hbc

theorem Span.not_le {a b : Span} : ¬ a ≤ b ↔ b < a := Nat.not_le

theorem Span.not_lt {a b : Span} : ¬ a < b ↔ b ≤ a := Nat.not_lt

namespace MemoryStore

variable {m : MemoryStore} {now later : Span} {key other : String}

/-- A key has at most one entry. -/
def Distinct (m : MemoryStore) : Prop := (m.entries.map (·.1)).Nodup

/-- **What a key shows at a time:** its entry, if the deadline has not come. -/
def live (m : MemoryStore) (now : Span) (key : String) : Option StoredValue :=
  (m.find? key).filter fun v => now < v.expiresAt

/-- The store with only some of its entries. -/
def restrict (m : MemoryStore) (keep : String × StoredValue → Bool) : MemoryStore :=
  { m with entries := m.entries.filter keep }

theorem sweep_eq (m : MemoryStore) (now : Span) :
    m.sweep now = m.restrict fun e => now < e.2.expiresAt := rfl

theorem dropExpired_eq (m : MemoryStore) (key : String) (now : Span) :
    m.dropExpired key now = m.restrict fun e => !(e.1 = key && e.2.expiresAt ≤ now) := rfl

/-! ### One entry for a key -/

namespace Distinct

theorem empty : MemoryStore.empty.Distinct := List.nodup_nil

theorem restrict (h : m.Distinct) (keep : String × StoredValue → Bool) :
    (m.restrict keep).Distinct :=
  List.Nodup.sublist (List.filter_sublist.map _) h

theorem insert (h : m.Distinct) (key : String) (v : StoredValue) : (m.insert key v).Distinct := by
  -- the entries of the key were taken out before the new one was put in front
  refine List.nodup_cons.2 ⟨?_, List.Nodup.sublist (List.filter_sublist.map _) h⟩
  intro hmem
  obtain ⟨e, he, hkey⟩ := List.mem_map.1 hmem
  exact absurd hkey (of_decide_eq_true (List.mem_filter.1 he).2)

theorem sweep (h : m.Distinct) (now : Span) : (m.sweep now).Distinct := h.restrict _

theorem get (h : m.Distinct) (now : Span) (key : String) : (m.get now key).2.Distinct := by
  unfold MemoryStore.get
  split
  · exact h
  · exact h.restrict _
  · exact h

end Distinct

/-! ### The view -/

theorem live_eq_some {v : StoredValue} :
    m.live now key = some v ↔ m.find? key = some v ∧ now < v.expiresAt := by
  rw [live, Option.filter_eq_some_iff, decide_eq_true_iff]

/-- The entry of a key, if it is among those kept. -/
theorem find?_restrict (h : m.Distinct) (keep : String × StoredValue → Bool) (key : String) :
    (m.restrict keep).find? key = (m.find? key).filter fun v => keep (key, v) := by
  obtain ⟨entries, writes⟩ := m
  simp only [find?, restrict, Distinct] at h ⊢
  induction entries with
  | nil => rfl
  | cons e es ih =>
    obtain ⟨fresh, rest⟩ := List.nodup_cons.1 h
    have rest := ih rest
    by_cases hkey : e.1 = key
    · -- the first entry has the key
      have found (l : List (String × StoredValue)) :
          (e :: l).find? (fun e => decide (e.1 = key)) = some e :=
        List.find?_cons_of_pos (decide_eq_true hkey)
      have pair : (key, e.2) = e := by rw [← hkey]
      -- nothing else has this key, so a dropped entry leaves nothing behind
      have gone : (es.find? fun e => decide (e.1 = key)) = none := by
        rw [List.find?_eq_none]
        intro e' he' hkey'
        exact fresh (List.mem_map.2 ⟨e', he', (of_decide_eq_true hkey').trans hkey.symm⟩)
      rw [gone] at rest
      rw [found, Option.map_some, Option.filter_some, pair]
      cases hkeep : keep e with
      | false =>
        rw [List.filter_cons_of_neg (by rw [hkeep]; decide), rest]
        rfl
      | true =>
        rw [List.filter_cons_of_pos hkeep, found]
        rfl
    · -- it has another one, so the search goes on behind it either way
      have skipped (l : List (String × StoredValue)) :
          (e :: l).find? (fun e => decide (e.1 = key)) = l.find? fun e => decide (e.1 = key) :=
        List.find?_cons_of_neg (by rw [decide_eq_true_iff]; exact hkey)
      rw [skipped, ← rest]
      cases hkeep : keep e with
      | false => rw [List.filter_cons_of_neg (by rw [hkeep]; decide)]
      | true => rw [List.filter_cons_of_pos hkeep, skipped]

/-- Dropping what has expired cannot be seen. -/
theorem live_restrict (h : m.Distinct) {keep : String × StoredValue → Bool}
    (hkeep : ∀ v, later < v.expiresAt → keep (key, v) = true) :
    (m.restrict keep).live later key = m.live later key := by
  rw [live, live, find?_restrict h, Option.filter_filter]
  congr 1
  funext v
  -- what the view lets through was kept, and what was dropped it would not let through
  by_cases hv : later < v.expiresAt
  · rw [hkeep v hv, Bool.true_and]
  · simp only [hv, decide_false, Bool.and_false]

/-- No later reading can tell that a sweep took place. -/
theorem live_sweep (h : m.Distinct) (hle : now ≤ later) (key : String) :
    (m.sweep now).live later key = m.live later key := by
  rw [sweep_eq]
  refine live_restrict h fun v hv => ?_
  exact decide_eq_true (Span.lt_of_le_of_lt hle hv)

/-- No later reading can tell that an expired entry was dropped. -/
theorem live_dropExpired (h : m.Distinct) (hle : now ≤ later) (key other : String) :
    (m.dropExpired key now).live later other = m.live later other := by
  rw [dropExpired_eq]
  refine live_restrict h fun v hv => ?_
  -- the read took out what was expired at its own time, hence nothing that lives later
  have fresh : ¬ v.expiresAt ≤ now := Span.not_le.2 (Span.lt_of_le_of_lt hle hv)
  simp only [fresh, decide_false, Bool.and_false, Bool.not_false]

/-! ### Calls -/

/-- **A read answers what its key shows.** -/
theorem get_answer (m : MemoryStore) (now : Span) (key : String) :
    (m.get now key).1 = (m.live now key).map (·.bytes) := by
  -- the look and the view make the same comparison, so a deadline that is now is past for both
  unfold get lookup live
  cases m.find? key with
  | none => rfl
  | some v =>
    dsimp only
    rw [Option.filter_some]
    by_cases hv : now < v.expiresAt
    · rw [if_pos hv, decide_eq_true hv]
      rfl
    · rw [if_neg hv, decide_eq_false hv]
      rfl

/-- A read leaves the view as it was. -/
theorem live_get (h : m.Distinct) (hle : now ≤ later) (key other : String) :
    (m.get now key).2.live later other = m.live later other := by
  unfold get
  split
  · rfl
  · exact live_dropExpired h hle key other
  · rfl

theorem live_insert_self (m : MemoryStore) (key : String) (v : StoredValue) (now : Span) :
    (m.insert key v).live now key = (some v).filter fun v => now < v.expiresAt := by
  rw [live, find?_insert_self]

theorem live_insert_of_ne (m : MemoryStore) (v : StoredValue) (now : Span) (h : other ≠ key) :
    (m.insert key v).live now other = m.live now other := by
  rw [live, live, find?_insert_of_ne m v h]

/-- A write fails only when the clock cannot show the deadline. -/
theorem set?_eq_none {ttl : Span} (h : deadline? now ttl = none) (m : MemoryStore) (key : String)
    (value : Bytes) : m.set? now key value ttl = none := by
  rw [set?, h]
  rfl

/-- **What a write leaves:** its value under its key, and all other keys as they were. -/
theorem set?_eq_some {ttl deadline : Span} (h : m.Distinct) (hd : deadline? now ttl = some deadline)
    (key : String) (value : Bytes) :
    ∃ m', m.set? now key value ttl = some m' ∧ m'.Distinct ∧
      (∀ later, now ≤ later →
        m'.live later key = (some ⟨value, deadline⟩ : Option StoredValue).filter
          fun v => later < v.expiresAt) ∧
      ∀ later, now ≤ later → ∀ other, other ≠ key → m'.live later other = m.live later other := by
  have written : (m.insert key ⟨value, deadline⟩).countWrite.Distinct := h.insert key _
  have self := live_insert_self m key ⟨value, deadline⟩
  have others := fun later other (hne : other ≠ key) =>
    live_insert_of_ne m ⟨value, deadline⟩ later hne
  -- the write itself, with its number, before any sweep
  rw [set?, hd, Option.map_some]
  refine ⟨_, rfl, ?_, ?_, ?_⟩
  -- with or without a sweep behind it
  · dsimp only
    split
    · exact written.sweep now
    · exact written
  · intro later hle
    dsimp only
    split
    · rw [live_sweep written hle]
      exact self later
    · exact self later
  · intro later hle other hne
    dsimp only
    split
    · rw [live_sweep written hle]
      exact others later other hne
    · exact others later other hne

end MemoryStore

end BlockRelay
