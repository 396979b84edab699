import Mathlib.Data.Finset.Dedup
import Mathlib.Data.Finset.Card
import Mathlib.Data.List.Dedup
import BlockRelay.Beacon.Registry

/-!
# What the set of a list answers

A `ValidatorSet` is a table, filled from a list in one pass. Here its answers are read off the list
itself, without any table:

* `ValidatorSet.get?_ofList`: the last validator of the list whose key has the same canonical form;
* `ValidatorSet.contains_ofList`: whether there is such a validator;
* `ValidatorSet.size_ofList`: the number of different canonical keys.

`ValidatorSet.ofList_serves_last` collects them, with the canonical form written out: letters of
ASCII in lower case (`asciiLower`), and nothing else. Blanks around a key, a mark in front of it and
letters beyond ASCII are part of it.
-/

namespace BlockRelay

/-- The canonical keys of a list, in its order. -/
def canonicalKeys (list : List ListedValidator) : List String :=
  list.map fun v => canonicalKey v.pubkey

/-- The last validator of a list with a canonical key. -/
def lastListed? (list : List ListedValidator) (key : String) : Option KnownValidator :=
  (list.reverse.find? fun v => canonicalKey v.pubkey = key).map .ofListed

theorem lastListed?_nil (key : String) : lastListed? [] key = none := rfl

/-- A validator counts where no later one has its canonical key. -/
theorem lastListed?_cons (v : ListedValidator) (list : List ListedValidator) (key : String) :
    lastListed? (v :: list) key =
      (lastListed? list key).or
        (if canonicalKey v.pubkey = key then some (.ofListed v) else none) := by
  rw [lastListed?, lastListed?, List.reverse_cons, List.find?_append]
  -- a later validator with the key counts, and `v` only where there is none
  cases list.reverse.find? fun w => decide (canonicalKey w.pubkey = key) with
  | some w => rfl
  | none =>
    rw [Option.none_or, Option.map_none, Option.none_or, List.find?_singleton]
    by_cases hv : canonicalKey v.pubkey = key
    · rw [if_pos hv, if_pos (decide_eq_true hv), Option.map_some]
    · rw [if_neg hv, if_neg (by rw [decide_eq_true_iff]; exact hv), Option.map_none]

theorem lastListed?_isSome (list : List ListedValidator) (key : String) :
    (lastListed? list key).isSome = true ↔ key ∈ canonicalKeys list := by
  rw [lastListed?, Option.isSome_map, List.find?_isSome]
  simp only [List.mem_reverse, decide_eq_true_eq, canonicalKeys, List.mem_map]

namespace ValidatorSet

/-- One entry changes what is known under its own key, and nothing else. -/
theorem getElem?_add (entries : Std.HashMap String KnownValidator) (v : ListedValidator)
    (key : String) :
    (add entries v)[key]? =
      if canonicalKey v.pubkey = key then some (.ofListed v) else entries[key]? := by
  rw [add, Std.HashMap.getElem?_insert]
  by_cases hv : canonicalKey v.pubkey = key
  · rw [if_pos hv, if_pos (beq_iff_eq.2 hv)]
  · rw [if_neg hv, if_neg (by rw [beq_iff_eq]; exact hv)]

/-- The table of a list, put on top of another table. -/
theorem getElem?_foldl_add (list : List ListedValidator)
    (entries : Std.HashMap String KnownValidator) (key : String) :
    (list.foldl add entries)[key]? = (lastListed? list key).or entries[key]? := by
  induction list generalizing entries with
  | nil => rw [List.foldl_nil, lastListed?_nil, Option.none_or]
  | cons v list ih =>
    calc ((v :: list).foldl add entries)[key]?
        = (list.foldl add (add entries v))[key]? := by rw [List.foldl_cons]
      _ = (lastListed? list key).or (add entries v)[key]? := ih (add entries v)
      _ = (lastListed? (v :: list) key).or entries[key]? := by
        rw [getElem?_add, lastListed?_cons, Option.or_assoc]
        -- `v` stands below what follows it in the list, and above the table
        by_cases hv : canonicalKey v.pubkey = key
        · rw [if_pos hv, if_pos hv, Option.some_or]
        · rw [if_neg hv, if_neg hv, Option.none_or]

/-- The set knows under a key what the list says of it last. -/
theorem getElem?_entries_ofList (now : Nat) (list : List ListedValidator) (key : String) :
    (ofList now list).entries[key]? = lastListed? list key := by
  rw [ofList, getElem?_foldl_add, Std.HashMap.getElem?_empty, Option.or_none]

/-- **The validator of a key** is the last one listed under it, in any casing. -/
theorem get?_ofList (now : Nat) (list : List ListedValidator) (pubkey : String) :
    (ofList now list).get? pubkey = lastListed? list (canonicalKey pubkey) :=
  getElem?_entries_ofList now list _

/-- **A key is known** if it is listed, in any casing. -/
theorem contains_ofList (now : Nat) (list : List ListedValidator) (pubkey : String) :
    (ofList now list).contains pubkey = decide (canonicalKey pubkey ∈ canonicalKeys list) := by
  rw [contains, Std.HashMap.contains_eq_isSome_getElem?, getElem?_entries_ofList]
  by_cases listed : canonicalKey pubkey ∈ canonicalKeys list
  · rw [decide_eq_true listed, (lastListed?_isSome list _).2 listed]
  · rw [decide_eq_false listed, Bool.eq_false_iff]
    exact fun known => listed ((lastListed?_isSome list _).1 known)

/-- **The number of validators** is the number of different canonical keys. -/
theorem size_ofList (now : Nat) (list : List ListedValidator) :
    (ofList now list).size = (canonicalKeys list).dedup.length := by
  rw [size, ← Std.HashMap.length_keys]
  -- neither list has repetitions, and they have the same members
  refine List.Perm.length_eq ((List.perm_ext_iff_of_nodup ?_ (List.nodup_dedup _)).2 fun key => ?_)
  · exact Std.HashMap.nodup_keys
  · rw [Std.HashMap.mem_keys, List.mem_dedup, ← lastListed?_isSome, ← getElem?_entries_ofList now,
      Std.HashMap.mem_iff_isSome_getElem?]

end ValidatorSet

/-! ### The canonical form written out -/

/-- A text with its capital letters of ASCII in lower case and all else as it is. -/
def asciiLower (s : String) : String :=
  String.ofList (s.toList.map fun c =>
    if 65 ≤ c.toNat ∧ c.toNat ≤ 90 then Char.ofNat (c.toNat + 32) else c)

/-- The library's lower case moves the capitals of ASCII by 32 and leaves all other characters. -/
theorem toLower_eq (c : Char) :
    c.toLower = if 65 ≤ c.toNat ∧ c.toNat ≤ 90 then Char.ofNat (c.toNat + 32) else c := by
  have capital : (c.val ≥ 'A'.val ∧ c.val ≤ 'Z'.val) ↔ 65 ≤ c.toNat ∧ c.toNat ≤ 90 := Iff.rfl
  unfold Char.toLower
  by_cases h : 65 ≤ c.toNat ∧ c.toNat ≤ 90
  · rw [dif_pos (capital.2 h), if_pos h]
    apply Char.ext
    apply UInt32.toNat_inj.1
    have valid : (c.toNat + 32).isValidChar := .inl (by omega)
    have small : c.val.toNat ≤ 90 := h.2
    -- no overflow: a capital is below 91
    calc (c.val + 32).toNat
        = (c.val.toNat + 32) % 4294967296 := UInt32.toNat_add ..
      _ = c.val.toNat + 32 := Nat.mod_eq_of_lt (by omega)
      _ = (Char.ofNat (c.toNat + 32)).val.toNat := by
        rw [Char.ofNat, dif_pos valid]
        rfl
  · rw [dif_neg (mt capital.1 h), if_neg h]

/-- Keys are compared in ASCII lower case. -/
theorem canonicalKey_eq (s : String) : canonicalKey s = asciiLower s := by
  rw [canonicalKey, asciiLower]
  congr 2
  funext c
  exact toLower_eq c

example : asciiLower " 0XaB\u00c4" = " 0xab\u00c4" := by decide

/-- The last validator listed under a key has no other behind it. -/
theorem lastListed?_eq_some_iff {list : List ListedValidator} {key : String} {k : KnownValidator} :
    lastListed? list key = some k ↔ ∃ before v after, list = before ++ v :: after ∧
      canonicalKey v.pubkey = key ∧ (∀ u ∈ after, canonicalKey u.pubkey ≠ key) ∧
      k = ⟨key, v.index, v.status⟩ := by
  rw [lastListed?, Option.map_eq_some_iff]
  constructor
  · rintro ⟨v, found, rfl⟩
    obtain ⟨same, before, after, split_, none_⟩ := List.find?_eq_some_iff_append.1 found
    have same := of_decide_eq_true same
    -- the search goes backwards, so what it passed stands behind `v`
    refine ⟨after.reverse, v, before.reverse, ?_, same, ?_, ?_⟩
    · have reversed := congrArg List.reverse split_
      rw [List.reverse_reverse, List.reverse_append, List.reverse_cons, List.append_assoc]
        at reversed
      exact reversed
    · intro u hu
      have other := none_ u (List.mem_reverse.1 hu)
      rw [Bool.not_eq_true', decide_eq_false_iff_not] at other
      exact other
    · rw [KnownValidator.ofListed, same]
  · -- backwards, what stands behind `v` is passed first, and none of it has the key
    rintro ⟨before, v, after, rfl, same, none_, rfl⟩
    refine ⟨v, List.find?_eq_some_iff_append.2 ⟨decide_eq_true same, after.reverse,
      before.reverse, ?_, ?_⟩, by rw [KnownValidator.ofListed, same]⟩
    · rw [List.reverse_append, List.reverse_cons, List.append_assoc, List.singleton_append]
    · intro u hu
      rw [Bool.not_eq_true', decide_eq_false_iff_not]
      exact none_ u (List.mem_reverse.1 hu)

/-- **The set of a list serves what is listed last.** A key is known if it is listed in some casing,
and its validator is the last one listed so, under the key in lower case. The set is as large as
there are different keys, casing aside, so it is empty only for an empty list. -/
theorem ValidatorSet.ofList_serves_last (now : Nat) (list : List ListedValidator) :
    (∀ q, (ofList now list).contains q = true ↔
      ∃ v ∈ list, asciiLower v.pubkey = asciiLower q) ∧
    (∀ q k, (ofList now list).get? q = some k ↔
      ∃ before v after, list = before ++ v :: after ∧ asciiLower v.pubkey = asciiLower q ∧
        (∀ u ∈ after, asciiLower u.pubkey ≠ asciiLower q) ∧
        k = ⟨asciiLower q, v.index, v.status⟩) ∧
    (∀ q, (ofList now list).get? q = none ↔
      ∀ v ∈ list, asciiLower v.pubkey ≠ asciiLower q) ∧
    (ofList now list).size = (list.map fun v => asciiLower v.pubkey).toFinset.card ∧
    (ofList now list).size ≤ list.length ∧
    ((ofList now list).size = 0 ↔ list = []) := by
  -- the program's keys, in the words of the statement
  have keys : canonicalKeys list = list.map fun v => asciiLower v.pubkey := by
    rw [canonicalKeys]
    congr 1
    funext v
    exact canonicalKey_eq v.pubkey
  have card : (ofList now list).size = (list.map fun v => asciiLower v.pubkey).toFinset.card := by
    rw [size_ofList, keys, List.card_toFinset]
  -- the set speaks of canonical keys, the statement of lower case
  have listed (q : String) : canonicalKey q ∈ canonicalKeys list ↔
      ∃ v ∈ list, asciiLower v.pubkey = asciiLower q := by
    rw [keys, canonicalKey_eq, List.mem_map]
  refine ⟨fun q => ?_, fun q k => ?_, fun q => ?_, card, ?_, ?_⟩
  · rw [contains_ofList, decide_eq_true_iff]
    exact listed q
  · rw [get?_ofList, lastListed?_eq_some_iff]
    simp only [canonicalKey_eq]
  · rw [get?_ofList, ← Option.not_isSome_iff_eq_none, lastListed?_isSome, listed]
    push Not
    rfl
  · -- a validator that is listed twice counts once
    calc (ofList now list).size
        = (list.map fun v => asciiLower v.pubkey).toFinset.card := card
      _ ≤ (list.map fun v => asciiLower v.pubkey).length := List.toFinset_card_le _
      _ = list.length := List.length_map _
  · rw [card, Finset.card_eq_zero, List.toFinset_eq_empty_iff, List.map_eq_nil_iff]

end BlockRelay
