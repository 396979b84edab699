import BlockRelay.Proofs.Cache.Address
import BlockRelay.Proofs.Hex.Spelling

/-!
# Which keys share an entry

Two keys address the same entry of a store exactly if they belong to one namespace and name one
slot, proposer and block. What a caller names is said here without normal forms: `KeySource.Names`
is about the bytes that its texts spell (`Hex.Spells`), and for two texts that is to say that they
are alike up to the case of digits, the mark and the blanks (`Hex.Alike`).

* `KeySource.inStore_eq_iff` is the law for all keys and all namespaces, colons included. It also
  says that no entry lies under the text that a health check reads.

That the texts in a store can be taken apart was shown in `Address.lean`
(`PayloadTriple.inStore_injective`).
-/

namespace BlockRelay

/-- **The health of a namespace has no payload under it.** -/
theorem PayloadTriple.inStore_ne_healthKey (t : PayloadTriple) (ns other : String) :
    t.key.inStore ns ≠ healthKey other := by
  intro h
  have health : ":health".toList = ':' :: "health".toList := by decide
  have hlist := congrArg String.toList h
  rw [PayloadKey.toList_inStore, healthKey, String.toList_append, health] at hlist
  -- behind the last colon one has a marked text, and the other a word
  obtain ⟨-, hblock⟩ := PayloadKey.split_last_colon hlist
    (PayloadKey.colon_notMem_marked t.block) (by decide)
  change (Hex.marked t.block).toList = 'h' :: _ at hblock
  rw [Hex.marked, String.toList_ofList] at hblock
  exact absurd (List.cons.inj hblock).1 (by decide)

namespace KeySource

variable {source : KeySource} {t : PayloadTriple}

/-- The slot that is named. -/
def slot : KeySource → UInt64
  | .texts slot _ _ => slot
  | .bytes slot _ _ => slot

/-- The text of the proposer. Typed bytes have one too. -/
def proposerText : KeySource → String
  | .texts _ proposer _ => proposer
  | .bytes _ proposer _ => proposer.text

/-- The text of the block hash. -/
def blockText : KeySource → String
  | .texts _ _ block => block
  | .bytes _ _ block => block.text

/-- **What a caller names:** a slot, and the bytes that its texts spell or that it gives. -/
def Names : KeySource → PayloadTriple → Prop
  | .texts slot proposer block, t =>
    t.slot = slot ∧ Hex.Spells proposer t.proposer ∧ Hex.Spells block t.block
  | .bytes slot proposer block, t =>
    t.slot = slot ∧ t.proposer = proposer.toList ∧ t.block = block.toList

/-- The triple that is found is the one that is named. -/
theorem names_of_triple? (h : source.triple? = .ok t) : source.Names t := by
  cases source with
  | texts slot proposer block =>
    rw [triple?, PayloadTriple.ofTexts] at h
    split at h
    · cases h
    · next ps hproposer =>
      split at h
      · cases h
      · next bs hblock =>
        cases h
        exact ⟨rfl, Hex.spelled_eq_ok_iff.1 hproposer, Hex.spelled_eq_ok_iff.1 hblock⟩
  -- keys that come as bytes need no reading
  | bytes slot proposer block =>
    cases h
    exact ⟨rfl, rfl, rfl⟩

/-- Whatever is named is spelled, also by typed bytes. -/
theorem Names.spells (h : source.Names t) :
    t.slot = source.slot ∧ Hex.Spells source.proposerText t.proposer ∧
      Hex.Spells source.blockText t.block := by
  cases source with
  | texts slot proposer block => exact h
  -- the texts made of bytes spell those bytes
  | bytes slot proposer block =>
    obtain ⟨hslot, hproposer, hblock⟩ := h
    refine ⟨hslot, ?_, ?_⟩
    · rw [hproposer]
      exact Hex.spells_text proposer (by decide)
    · rw [hblock]
      exact Hex.spells_text block (by decide)

/-- A key is the canonical key of what was named. -/
theorem exists_names {k : PayloadKey} (h : source.key? = .ok k) :
    ∃ t, source.Names t ∧ k = t.key := by
  rw [key?_eq] at h
  cases ht : source.triple? with
  | error e =>
    rw [ht] at h
    cases h
  -- a key that is made is the key of its triple
  | ok t =>
    rw [ht] at h
    cases h
    exact ⟨t, names_of_triple? ht, rfl⟩

/-- **Keys share an entry exactly if they name the same.** For any keys that callers come by, in
any two namespaces: their texts in a store are equal if and only if the namespaces are equal, and
the slots, and the bytes of the proposers and of the blocks; in terms of texts, if and only if the
texts are alike up to case, mark and blanks. And no key has the text of a health check. -/
theorem inStore_eq_iff {s₁ s₂ : KeySource} {k₁ k₂ : PayloadKey} (h₁ : s₁.key? = .ok k₁)
    (h₂ : s₂.key? = .ok k₂) (n₁ n₂ : String) :
    (∃ t₁ t₂ : PayloadTriple, s₁.Names t₁ ∧ s₂.Names t₂ ∧
      (k₁.inStore n₁ = k₂.inStore n₂ ↔
        n₁ = n₂ ∧ t₁.slot = t₂.slot ∧ t₁.proposer = t₂.proposer ∧ t₁.block = t₂.block)) ∧
    (k₁.inStore n₁ = k₂.inStore n₂ ↔
      n₁ = n₂ ∧ s₁.slot = s₂.slot ∧ Hex.Alike s₁.proposerText s₂.proposerText ∧
        Hex.Alike s₁.blockText s₂.blockText) ∧
    ∀ n, k₁.inStore n₁ ≠ healthKey n := by
  obtain ⟨t₁, names₁, rfl⟩ := exists_names h₁
  obtain ⟨t₂, names₂, rfl⟩ := exists_names h₂
  have byBytes : t₁.key.inStore n₁ = t₂.key.inStore n₂ ↔
      n₁ = n₂ ∧ t₁.slot = t₂.slot ∧ t₁.proposer = t₂.proposer ∧ t₁.block = t₂.block := by
    constructor
    · intro same
      obtain ⟨rfl, rfl⟩ := PayloadTriple.inStore_injective same
      exact ⟨rfl, rfl, rfl, rfl⟩
    · rintro ⟨rfl, hslot, hproposer, hblock⟩
      have same : t₁ = t₂ := by
        cases t₁
        cases t₂
        rw [PayloadTriple.mk.injEq]
        exact ⟨hslot, hproposer, hblock⟩
      rw [same]
  refine ⟨⟨t₁, t₂, names₁, names₂, byBytes⟩, ?_, t₁.inStore_ne_healthKey n₁⟩
  -- part by part, texts are alike if they spell the same bytes
  obtain ⟨slot₁, proposer₁, block₁⟩ := names₁.spells
  obtain ⟨slot₂, proposer₂, block₂⟩ := names₂.spells
  rw [byBytes, Hex.alike_iff proposer₁ proposer₂, Hex.alike_iff block₁ block₂, slot₁, slot₂]

/-- Two spellings of one triple, in a namespace that looks like a key itself. -/
theorem inStore_eq_spellings :
    ∃ k₁ k₂ : PayloadKey,
      (KeySource.texts 7 " 0XaB\n" "cD").key? = .ok k₁ ∧
      (KeySource.texts 7 "Ab" "\u00a00xCd").key? = .ok k₂ ∧
      k₁.inStore "eu:cache-payload:7:0xab" = k₂.inStore "eu:cache-payload:7:0xab" ∧
      k₁.inStore "eu:cache-payload:7:0xab" ≠ k₂.inStore "eu" ∧
      k₁.inStore "eu:cache-payload:7:0xab" ≠ healthKey "eu" := by
  have h₁ : (KeySource.texts 7 " 0XaB\n" "cD").key? = .ok ⟨7, "0xab", "0xcd"⟩ := rfl
  have h₂ : (KeySource.texts 7 "Ab" "\u00a00xCd").key? = .ok ⟨7, "0xab", "0xcd"⟩ := rfl
  refine ⟨_, _, h₁, h₂, rfl, ?_, ?_⟩
  · rw [Ne, (inStore_eq_iff h₁ h₂ _ _).2.1]
    rintro ⟨namespaces, -⟩
    exact absurd namespaces (by decide)
  · exact (inStore_eq_iff h₁ h₂ _ "eu").2.2 "eu"

end KeySource

end BlockRelay
