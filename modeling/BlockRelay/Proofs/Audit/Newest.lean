import Mathlib.Data.List.Induction
import Mathlib.Data.List.Nodup
import BlockRelay.Proofs.Audit.Upsert

/-!
# The newest registration of each proposer

Registrations can be saved in any order and more than once. After a run of saves the table has one
row for each key that was accepted, and it is the first of the newest among the registrations under
that key (`FirstNewest`). This is carried through the run as an invariant of what is kept (`Holds`,
`Holds.keep`).

Hence a registration that was saved before changes nothing (`Holds.keep_of_mem`). Which is the first
matters only among registrations that are equally new: without such, what is kept does not depend
on the order (`firstNewest_iff_newest`).
-/

namespace BlockRelay

namespace RegistrationRow

variable {rs rs' kept : List RegistrationRow} {r k x : RegistrationRow}

/-- **A registration is the newest of its key:** none that fits has a greater timestamp. -/
def Newest (rs : List RegistrationRow) (r : RegistrationRow) : Prop :=
  r ∈ rs ∧ r.Fits ∧ ∀ x ∈ rs, x.Fits → x.pubkey = r.pubkey → x.timestamp ≤ r.timestamp

/-- **A registration is the first of the newest of its key:** those before it are older, and those
behind it are not newer. -/
def FirstNewest (rs : List RegistrationRow) (r : RegistrationRow) : Prop :=
  r.Fits ∧ ∃ before after, rs = before ++ r :: after ∧
    (∀ x ∈ before, x.Fits → x.pubkey = r.pubkey → x.timestamp < r.timestamp) ∧
    ∀ x ∈ after, x.Fits → x.pubkey = r.pubkey → x.timestamp ≤ r.timestamp

theorem FirstNewest.newest (h : FirstNewest rs r) : Newest rs r := by
  obtain ⟨fits, before, after, rfl, older, notNewer⟩ := h
  refine ⟨List.mem_append_right _ List.mem_cons_self, fits, fun x hx hfits same => ?_⟩
  rcases List.mem_append.1 hx with hx | hx
  · exact UInt64.le_of_lt (older x hx hfits same)
  · rcases List.mem_cons.1 hx with rfl | hx
    · exact UInt64.le_refl _
    · exact notNewer x hx hfits same

/-- The newest is the first of the newest, where no two registrations are equally new. -/
theorem firstNewest_iff_newest (distinct : ∀ a ∈ rs, ∀ b ∈ rs, a.Fits → b.Fits →
    a.pubkey = b.pubkey → a.timestamp = b.timestamp → a = b) :
    FirstNewest rs r ↔ Newest rs r := by
  refine ⟨FirstNewest.newest, fun ⟨mem, fits, notNewer⟩ => ⟨fits, ?_⟩⟩
  obtain ⟨before, after, split_, first⟩ := List.eq_append_cons_of_mem mem
  refine ⟨before, after, split_, fun x hx hfits same => ?_, fun x hx hfits same => ?_⟩
  · have hx' : x ∈ rs := split_ ▸ List.mem_append_left _ hx
    refine UInt64.lt_of_le_of_ne (notNewer x hx' hfits same) fun equal => ?_
    exact first (distinct x hx' r mem hfits fits same equal ▸ hx)
  · exact notNewer x (split_ ▸ List.mem_append_right _ (List.mem_cons_of_mem r hx)) hfits same

/-- With one more registration, the first of the newest is one of before that is not older, or the
new one if it is newer than all before. -/
theorem firstNewest_append_singleton_iff :
    FirstNewest (rs ++ [r]) k ↔
      FirstNewest rs k ∧ (r.Fits → r.pubkey = k.pubkey → r.timestamp ≤ k.timestamp) ∨
      k = r ∧ r.Fits ∧ ∀ x ∈ rs, x.Fits → x.pubkey = r.pubkey → x.timestamp < r.timestamp := by
  constructor
  · rintro ⟨fits, before, after, split_, older, notNewer⟩
    -- the new row is the one meant, or it is the last of those behind it
    rcases List.eq_nil_or_concat' after with rfl | ⟨after, last, rfl⟩
    · obtain ⟨rfl, same⟩ := List.append_inj' split_ rfl
      cases same
      exact .inr ⟨rfl, fits, older⟩
    · rw [← List.cons_append, ← List.append_assoc] at split_
      obtain ⟨rfl, same⟩ := List.append_inj' split_ rfl
      cases same
      refine .inl ⟨⟨fits, before, after, rfl, older, fun x hx => ?_⟩, ?_⟩
      · exact notNewer x (List.mem_append_left _ hx)
      · exact notNewer r (List.mem_append_right _ (List.mem_singleton_self r))
  · rintro (⟨⟨fits, before, after, rfl, older, notNewer⟩, last⟩ | ⟨rfl, fits, older⟩)
    · -- an earlier row stays first if the new one is not newer
      refine ⟨fits, before, after ++ [r], by simp, older, fun x hx => ?_⟩
      rcases List.mem_append.1 hx with hx | hx
      · exact notNewer x hx
      · cases List.mem_singleton.1 hx
        exact last
    · exact ⟨fits, rs, [], rfl, older, nofun⟩

/-! ### The invariant -/

/-- **What a table holds after a run of saves:** one row for each key that was accepted, and it is
the first of the newest. -/
structure Holds (rs kept : List RegistrationRow) : Prop where
  keys : (kept.map (·.pubkey)).Nodup
  mem_iff : ∀ k, k ∈ kept ↔ FirstNewest rs k
  known : ∀ r ∈ rs, r.Fits → ∃ k ∈ kept, k.pubkey = r.pubkey

namespace Holds

/-- A registration that does not fit changes nothing. -/
theorem keep_of_not_fits (h : Holds rs kept) (hr : ¬ r.Fits) : Holds (rs ++ [r]) kept where
  keys := h.keys
  -- a row that does not fit is never the newest that fits
  mem_iff k := by
    rw [firstNewest_append_singleton_iff, h.mem_iff]
    exact ⟨fun newest => .inl ⟨newest, fun fits => absurd fits hr⟩,
      fun either => either.elim And.left fun ⟨_, fits, _⟩ => absurd fits hr⟩
  known x hx fits := by
    rcases List.mem_append.1 hx with hx | hx
    · exact h.known x hx fits
    · cases List.mem_singleton.1 hx
      exact absurd fits hr

/-- A registration under a key that is known takes the place of an older one. -/
theorem keepNewer_of_known (h : Holds rs kept) (hr : r.Fits)
    (known : ∃ k ∈ kept, k.pubkey = r.pubkey) : Holds (rs ++ [r]) (keepNewer r kept) := by
  rw [keepNewer, if_pos known]
  refine ⟨?_, fun k => ?_, fun x hx fits => ?_⟩
  · -- the keys of the table do not change
    have same : (kept.map r.replacedBy).map (·.pubkey) = kept.map (·.pubkey) := by
      rw [List.map_map]
      exact List.map_congr_left fun k _ => pubkey_replacedBy r k
    rw [same]
    exact h.keys
  · rw [firstNewest_append_singleton_iff, List.mem_map]
    constructor
    · rintro ⟨k, hk, rfl⟩
      have newest := (h.mem_iff k).1 hk
      -- the row of the table gives way exactly if it has the key and is older
      by_cases older : k.pubkey = r.pubkey ∧ k.timestamp < r.timestamp
      · rw [replacedBy_of_older older]
        refine .inr ⟨rfl, hr, fun x hx fits same => UInt64.lt_of_le_of_lt ?_ older.2⟩
        exact newest.newest.2.2 x hx fits (same.trans older.1.symm)
      · rw [replacedBy_of_not_older older]
        exact .inl ⟨newest, fun _ same => UInt64.not_lt.1 fun less => older ⟨same.symm, less⟩⟩
    · rintro (⟨newest, notNewer⟩ | ⟨rfl, -, older⟩)
      · refine ⟨k, (h.mem_iff k).2 newest, replacedBy_of_not_older fun older => ?_⟩
        exact UInt64.not_lt.2 (notNewer hr older.1.symm) older.2
      · -- the new row beats all before it, so it beats the one in the table
        obtain ⟨k', hk', same⟩ := known
        have newest := ((h.mem_iff k').1 hk').newest
        exact ⟨k', hk', replacedBy_of_older ⟨same, older k' newest.1 newest.2.1 same⟩⟩
  · have there : ∃ k ∈ kept, k.pubkey = x.pubkey := by
      rcases List.mem_append.1 hx with hx | hx
      · exact h.known x hx fits
      · cases List.mem_singleton.1 hx
        exact known
    obtain ⟨k, hk, same⟩ := there
    exact ⟨r.replacedBy k, List.mem_map_of_mem hk, (pubkey_replacedBy r k).trans same⟩

/-- A registration under a new key is added. -/
theorem keepNewer_of_unknown (h : Holds rs kept) (hr : r.Fits)
    (unknown : ¬ ∃ k ∈ kept, k.pubkey = r.pubkey) : Holds (rs ++ [r]) (keepNewer r kept) := by
  -- no row before it that fits has the key, since the table would know it
  have alone : ∀ x ∈ rs, x.Fits → x.pubkey ≠ r.pubkey := by
    intro x hx fits same
    obtain ⟨k, hk, same'⟩ := h.known x hx fits
    exact unknown ⟨k, hk, same'.trans same⟩
  rw [keepNewer, if_neg unknown]
  refine ⟨?_, fun k => ?_, fun x hx fits => ?_⟩
  · rw [List.map_append, List.map_singleton, ← List.concat_eq_append]
    refine List.Nodup.concat (fun mem => ?_) h.keys
    obtain ⟨k, hk, same⟩ := List.mem_map.1 mem
    exact unknown ⟨k, hk, same⟩
  · rw [firstNewest_append_singleton_iff, List.mem_append, List.mem_singleton, h.mem_iff]
    refine or_congr ⟨fun newest => ⟨newest, fun _ same => ?_⟩, And.left⟩
      ⟨fun same => ⟨same, hr, fun x hx fits same => absurd same (alone x hx fits)⟩, And.left⟩
    exact absurd same.symm (alone k newest.newest.1 newest.newest.2.1)
  · rcases List.mem_append.1 hx with hx | hx
    · obtain ⟨k, hk, same⟩ := h.known x hx fits
      exact ⟨k, List.mem_append_left _ hk, same⟩
    · exact ⟨r, List.mem_append_right _ (List.mem_singleton_self r),
        (List.mem_singleton.1 hx) ▸ rfl⟩

/-- **Saving one more registration keeps the invariant.** -/
theorem keep (h : Holds rs kept) (r : RegistrationRow) :
    Holds (rs ++ [r]) (RegistrationRow.keep kept r) := by
  rw [RegistrationRow.keep]
  split
  · next hr =>
    by_cases known : ∃ k ∈ kept, k.pubkey = r.pubkey
    · exact h.keepNewer_of_known hr known
    · exact h.keepNewer_of_unknown hr known
  · next hr => exact h.keep_of_not_fits hr

end Holds

/-- **The invariant holds after every run.** -/
theorem holds_foldl (rs : List RegistrationRow) : Holds rs (rs.foldl keep []) := by
  induction rs using List.reverseRecOn with
  | nil => exact ⟨.nil, fun k => iff_of_false nofun fun h => (List.not_mem_nil h.newest.1), nofun⟩
  | append_singleton rs r ih =>
    rw [List.foldl_append]
    exact ih.keep r

/-- A registration that was saved before changes nothing. -/
theorem Holds.keep_of_mem (h : Holds rs kept) (hr : r ∈ rs) :
    RegistrationRow.keep kept r = kept := by
  rw [RegistrationRow.keep]
  split
  · next fits =>
    rw [keepNewer, if_pos (h.known r hr fits)]
    -- what is kept for the key is at least as new as `r`, since `r` was there already
    have same : ∀ k ∈ kept, r.replacedBy k = k := by
      intro k hk
      refine replacedBy_of_not_older fun older => ?_
      have notNewer := ((h.mem_iff k).1 hk).newest.2.2 r hr fits older.1.symm
      exact UInt64.not_lt.2 notNewer older.2
    rw [List.map_congr_left same, List.map_id']
  · rfl

/-- Registrations that do not fit make no difference. -/
theorem foldl_keep_filter (rs kept : List RegistrationRow) :
    (rs.filter fun r => r.Fits).foldl keep kept = rs.foldl keep kept := by
  rw [List.foldl_filter]
  refine congrArg (fun step => rs.foldl step kept) (funext₂ fun kept r => ?_)
  by_cases fits : r.Fits
  · rw [if_pos (decide_eq_true fits)]
  · rw [if_neg (by simpa using fits), keep, if_neg fits]

/-- **The order of saves does not matter** where no two registrations are equally new. -/
theorem Holds.perm {kept' : List RegistrationRow} (h : Holds rs kept) (h' : Holds rs' kept')
    (perm : rs'.Perm rs) (distinct : ∀ a ∈ rs, ∀ b ∈ rs, a.Fits → b.Fits → a.pubkey = b.pubkey →
      a.timestamp = b.timestamp → a = b) : kept'.Perm kept := by
  have distinct' : ∀ a ∈ rs', ∀ b ∈ rs', a.Fits → b.Fits → a.pubkey = b.pubkey →
      a.timestamp = b.timestamp → a = b :=
    fun a ha b hb => distinct a (perm.mem_iff.1 ha) b (perm.mem_iff.1 hb)
  -- being the newest does not depend on the order of the rows
  have newest : ∀ k, Newest rs' k ↔ Newest rs k := by
    intro k
    simp only [Newest, perm.mem_iff]
  refine (List.perm_ext_iff_of_nodup (List.Nodup.of_map _ h'.keys)
    (List.Nodup.of_map _ h.keys)).2 fun k => ?_
  rw [h'.mem_iff, h.mem_iff, firstNewest_iff_newest distinct', firstNewest_iff_newest distinct,
    newest]

end RegistrationRow

/-! ### The table -/

open RegistrationRow

/-- The table of registrations after a run of saves, from an empty one. -/
def registrationTable (t : Tables) (rs : List RegistrationRow) : List StoredRow :=
  ((saveAll t (rs.map .registration)).run (registrations t).serve []).2

/-- The table holds what keeping the rows one by one leaves, each as it is stored. -/
theorem registrationTable_eq (t : Tables) (rs : List RegistrationRow) :
    registrationTable t rs = (rs.foldl keep []).map stored := by
  have fits : ∀ k ∈ ([] : List RegistrationRow), k.Fits := nofun
  obtain ⟨results, run, -⟩ := run_saveAll_registrations t rs fits
  exact congrArg Prod.snd run

/-- **The newest registration of each proposer is kept.** Registrations that fit are accepted, and
the others are refused and have no effect. The table then has exactly one row for each key that was
accepted, and this is the first of the newest. So it changes nothing to save a registration again,
and where no two are equally new, the table is the same for every order of the saves. -/
theorem newest_registrations_are_kept (t : Tables) (rs : List RegistrationRow) :
    List.Forall₂ (fun r result => r.Fits ∧ result = .ok () ∨
        ¬ r.Fits ∧ ∃ e, result = .error (.row e))
      rs ((saveAll t (rs.map .registration)).run (registrations t).serve []).1 ∧
    registrationTable t (rs.filter fun r => r.Fits) = registrationTable t rs ∧
    ((registrationTable t rs).map (·.lookup "pubkey")).Nodup ∧
    (∀ r ∈ rs, r.Fits → ∃ row ∈ registrationTable t rs,
      row.lookup "pubkey" = some (.text r.pubkey)) ∧
    (∀ row, row ∈ registrationTable t rs ↔ ∃ r, FirstNewest rs r ∧ row = r.stored) ∧
    (∀ r ∈ rs, registrationTable t (rs ++ [r]) = registrationTable t rs) ∧
    ∀ rs' : List RegistrationRow, rs'.Perm rs →
      (∀ a ∈ rs, ∀ b ∈ rs, a.Fits → b.Fits → a.pubkey = b.pubkey → a.timestamp = b.timestamp →
        a = b) →
      (registrationTable t rs').Perm (registrationTable t rs) := by
  -- the invariant of the kept rows; each clause but the first is read off it
  have h := holds_foldl rs
  refine ⟨?_, ?_, ?_, fun r hr fits => ?_, fun row => ?_, fun r hr => ?_,
    fun rs' perm distinct => ?_⟩
  · -- a row that fits is taken, and one that does not is refused before the server is asked
    have fits : ∀ k ∈ ([] : List RegistrationRow), k.Fits := nofun
    obtain ⟨results, run, outcomes⟩ := run_saveAll_registrations t rs fits
    exact (congrArg Prod.fst run) ▸ outcomes
  · -- rows that do not fit leave no trace
    rw [registrationTable_eq, registrationTable_eq, foldl_keep_filter]
  · rw [registrationTable_eq, List.map_map]
    -- a row is stored under its key as text
    have keys : ((rs.foldl keep []).map ((·.lookup "pubkey") ∘ stored)) =
        ((rs.foldl keep []).map (·.pubkey)).map fun key => some (SqlValue.text key) := by
      rw [List.map_map]
      rfl
    rw [keys]
    exact h.keys.map fun a b same => SqlValue.text.inj (Option.some.inj same)
  · obtain ⟨k, hk, same⟩ := h.known r hr fits
    rw [registrationTable_eq]
    exact ⟨k.stored, List.mem_map_of_mem hk, congrArg (fun key => some (SqlValue.text key)) same⟩
  · rw [registrationTable_eq, List.mem_map]
    constructor
    · rintro ⟨k, hk, rfl⟩
      exact ⟨k, (h.mem_iff k).1 hk, rfl⟩
    · rintro ⟨k, newest, rfl⟩
      exact ⟨k, (h.mem_iff k).2 newest, rfl⟩
  · -- the same row again changes nothing
    rw [registrationTable_eq, registrationTable_eq, List.foldl_append, List.foldl_cons,
      List.foldl_nil, h.keep_of_mem hr]
  · rw [registrationTable_eq, registrationTable_eq]
    exact (h.perm (holds_foldl rs') perm distinct).map stored

/-- Of two registrations that are equally new the first is kept, and one that does not fit counts
for nothing. -/
theorem first_of_equally_new_is_kept :
    let older : RegistrationRow := ⟨"p", "f", 5, 30, "s"⟩
    let newest : RegistrationRow := ⟨"p", "g", 7, 31, "s"⟩
    let tied : RegistrationRow := ⟨"p", "h", 7, 30, "s"⟩
    let unfit : RegistrationRow := ⟨"p", "f", 0x8000000000000000, 30, "s"⟩
    newest.stored ∈ registrationTable (.of "dev") [older, newest, tied, unfit] ∧
    registrationTable (.of "dev") ([older, newest, tied, unfit] ++ [tied]) =
      registrationTable (.of "dev") [older, newest, tied, unfit] ∧
    (registrationTable (.of "dev") [newest, unfit, older]).Perm
      (registrationTable (.of "dev") [older, newest, unfit]) := by
  intro older newest tied unfit
  obtain ⟨-, -, -, -, mem_iff, again, -⟩ :=
    newest_registrations_are_kept (.of "dev") [older, newest, tied, unfit]
  obtain ⟨-, -, -, -, -, -, perm⟩ :=
    newest_registrations_are_kept (.of "dev") [older, newest, unfit]
  refine ⟨(mem_iff _).2 ⟨newest, ?_, rfl⟩, again tied (by decide), perm _ (by decide) (by decide)⟩
  -- `newest` stands behind an older row, and before a tied one and one that does not fit
  exact ⟨by decide, [older], [tied, unfit], rfl, by decide, by decide⟩

end BlockRelay
