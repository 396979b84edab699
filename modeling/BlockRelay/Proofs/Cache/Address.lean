import Mathlib.Data.List.Basic
import BlockRelay.Cache.Key
import BlockRelay.Json.Fields
import BlockRelay.Proofs.Hex.Canonical

/-!
# Addresses of payloads

Callers name a payload by slot, proposer and block hash, as text or as bytes, and the store finds
it under one text. Behind both is the same `PayloadTriple`: the slot, and the bytes that the two
texts spell. This module relates the three:

* `KeySource` is a way of naming a payload, and `KeySource.key?_eq` says that the key made from it
  is the canonical key of the triple that it spells, or that both are refused for the same cause;
* `PayloadTriple.inStore_injective` says that the texts in the store tell triples apart, and
  namespaces too. A namespace is any text at all, so the parts are told apart from the right: no
  part of a key has a colon in it.
-/

namespace BlockRelay

/-- What a cached payload belongs to: a slot, and the bytes of a proposer and of a block hash. -/
structure PayloadTriple where
  slot : UInt64
  proposer : Bytes
  block : Bytes
deriving DecidableEq, Repr

namespace PayloadTriple

/-- The canonical key of a triple. -/
def key (t : PayloadTriple) : PayloadKey := ⟨t.slot, Hex.marked t.proposer, Hex.marked t.block⟩

/-- The triple that two texts spell. The proposer is looked at first. -/
def ofTexts (slot : UInt64) (proposer block : String) : Except KeyError PayloadTriple :=
  match Hex.spelled proposer with
  | .error cause => .error ⟨.proposer, cause⟩
  | .ok proposer =>
    match Hex.spelled block with
    | .error cause => .error ⟨.block, cause⟩
    | .ok block => .ok { slot, proposer, block }

/-- The triple of typed bytes. -/
def ofBytes (slot : UInt64) (proposer : PublicKey) (block : Hash) : PayloadTriple :=
  ⟨slot, proposer.toList, block.toList⟩

/-- The key of two texts is the key of the triple that they spell. -/
theorem ofTexts_eq (slot : UInt64) (proposer block : String) :
    PayloadKey.ofTexts slot proposer block = (ofTexts slot proposer block).map key := by
  rw [PayloadKey.ofTexts, ofTexts, Hex.normalize_eq, Hex.normalize_eq]
  cases Hex.spelled proposer with
  | error cause => rfl
  | ok proposer =>
    cases Hex.spelled block with
    | error cause => rfl
    | ok block => rfl

end PayloadTriple

/-- **How a caller comes by a key:** from texts, or from typed bytes. -/
inductive KeySource where
  -- in any casing, with or without a mark
  | texts (slot : UInt64) (proposer block : String)
  | bytes (slot : UInt64) (proposer : PublicKey) (block : Hash)

namespace KeySource

/-- The key that is made. -/
def key? : KeySource → Except KeyError PayloadKey
  | .texts slot proposer block => PayloadKey.ofTexts slot proposer block
  | .bytes slot proposer block => .ok (.ofBytes slot proposer block)

/-- The triple that the key stands for. -/
def triple? : KeySource → Except KeyError PayloadTriple
  | .texts slot proposer block => PayloadTriple.ofTexts slot proposer block
  | .bytes slot proposer block => .ok (.ofBytes slot proposer block)

/-- **A key is the canonical key of the triple that was named,** and is refused only with it. -/
theorem key?_eq (source : KeySource) : source.key? = source.triple?.map PayloadTriple.key := by
  cases source with
  | texts slot proposer block => exact PayloadTriple.ofTexts_eq slot proposer block
  | bytes slot proposer block => rfl

end KeySource

/-! ### Telling addresses apart -/

namespace PayloadKey

/-- The part behind the last colon of a list can be read off. -/
theorem split_last_colon {a b c d : List Char} (h : a ++ ':' :: b = c ++ ':' :: d)
    (hb : ':' ∉ b) (hd : ':' ∉ d) : a = c ∧ b = d := by
  rcases List.append_eq_append_iff.1 h with ⟨e, rfl, he⟩ | ⟨e, rfl, he⟩
  · cases e with
    | nil => exact ⟨(List.append_nil a).symm, (List.cons.inj he).2⟩
    | cons x e =>
      -- the colon in front of `d` would stand inside `b`
      obtain ⟨rfl, rfl⟩ := List.cons.inj he
      exact absurd (List.mem_append_right e (List.mem_cons_self)) hb
  · cases e with
    | nil => exact ⟨List.append_nil c, (List.cons.inj he).2.symm⟩
    | cons x e =>
      obtain ⟨rfl, rfl⟩ := List.cons.inj he
      exact absurd (List.mem_append_right e (List.mem_cons_self)) hd

/-- There is no colon in a canonical spelling. -/
theorem colon_notMem_marked (bs : Bytes) : ':' ∉ (Hex.marked bs).toList := by
  rw [Hex.marked, String.toList_ofList]
  intro h
  -- neither the mark nor a digit is a colon
  rcases List.mem_cons.1 h with h | h
  · exact absurd h (by decide)
  · rcases List.mem_cons.1 h with h | h
    · exact absurd h (by decide)
    · exact absurd (Hex.isDigit_encode bs ':' h) (by decide)

theorem colon_notMem_decimal (n : Nat) : ':' ∉ (Text.Decimal.text n).toList := by
  rw [Text.Decimal.text, String.toList_ofList]
  intro h
  have digit := List.all_eq_true.1 (Text.Decimal.all_isDigit_ofNat n) ':' h
  exact absurd digit (by decide)

theorem decimal_injective {m n : Nat} (h : Text.Decimal.text m = Text.Decimal.text n) : m = n := by
  have hlist := congrArg (fun s => Text.Decimal.toNat s.toList) h
  simp only [Text.Decimal.text, String.toList_ofList, Text.Decimal.toNat_ofNat] at hlist
  exact hlist

/-- The address as a list, with its last three parts behind colons. -/
theorem toList_inStore (k : PayloadKey) (ns : String) :
    (k.inStore ns).toList =
      (((ns.toList ++ ":cache-payload".toList) ++ ':' :: (Text.Decimal.text k.slot.toNat).toList) ++
        ':' :: k.proposer.toList) ++ ':' :: k.block.toList := by
  have mid : ":cache-payload:".toList = ":cache-payload".toList ++ [':'] := by decide
  have colon : ":".toList = [':'] := by decide
  simp only [inStore, text, String.toList_append, mid, colon, List.append_assoc,
    List.cons_append, List.nil_append]

end PayloadKey

/-- **Addresses tell namespaces and triples apart.** -/
theorem PayloadTriple.inStore_injective {t u : PayloadTriple} {ns ms : String}
    (h : t.key.inStore ns = u.key.inStore ms) : ns = ms ∧ t = u := by
  have hlist := congrArg String.toList h
  rw [PayloadKey.toList_inStore, PayloadKey.toList_inStore] at hlist
  -- the parts come off one after the other, and what is left is the namespace
  obtain ⟨hlist, hblock⟩ := PayloadKey.split_last_colon hlist
    (PayloadKey.colon_notMem_marked t.block) (PayloadKey.colon_notMem_marked u.block)
  obtain ⟨hlist, hproposer⟩ := PayloadKey.split_last_colon hlist
    (PayloadKey.colon_notMem_marked t.proposer) (PayloadKey.colon_notMem_marked u.proposer)
  obtain ⟨hlist, hslot⟩ := PayloadKey.split_last_colon hlist
    (PayloadKey.colon_notMem_decimal _) (PayloadKey.colon_notMem_decimal _)
  -- each part says what it was made of
  have ens : ns = ms := String.toList_inj.1 (List.append_cancel_right hlist)
  have eslot : t.slot = u.slot :=
    UInt64.toNat_inj.1 (PayloadKey.decimal_injective (String.toList_inj.1 hslot))
  have eproposer : t.proposer = u.proposer :=
    Hex.marked_injective (String.toList_inj.1 hproposer)
  have eblock : t.block = u.block := Hex.marked_injective (String.toList_inj.1 hblock)
  cases t
  cases u
  exact ⟨ens, by rw [PayloadTriple.mk.injEq]; exact ⟨eslot, eproposer, eblock⟩⟩

end BlockRelay
