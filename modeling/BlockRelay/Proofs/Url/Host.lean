import BlockRelay.Proofs.Url.Address
import BlockRelay.Proofs.Url.Percent
import BlockRelay.Url.Web

/-!
# Hosts come back from their texts

What is read as a host is in canonical form (`Host.canonical_of_parse`), and such a host is read
back from its text (`Host.parse_chars`). In an address the host ends where its text ends: no
character of it ends an authority, and colons stand in brackets only (`splitHost_chars`).
-/

namespace BlockRelay.Url

/-! ### Characters -/

/-- A character that is visible and neither ends an authority nor the user information in it. -/
structure Inner (c : Char) : Prop where
  visible : 0x20 < c.toNat
  goesOn : endsAuthority true c = false
  noSign : c ≠ '@'

instance (c : Char) : Decidable (Inner c) :=
  decidable_of_iff (0x20 < c.toNat ∧ endsAuthority true c = false ∧ c ≠ '@')
    ⟨fun ⟨v, g, s⟩ => ⟨v, g, s⟩, fun ⟨v, g, s⟩ => ⟨v, g, s⟩⟩

theorem Inner.noSlash {c : Char} (h : Inner c) : isSlash true c = false := by
  have goesOn := h.goesOn
  simp only [endsAuthority, Bool.or_eq_false_iff] at goesOn
  exact goesOn.1.1

/-- A character of a host without brackets: it is not encoded and begins no port, either. -/
structure Plain (c : Char) : Prop extends Inner c where
  noPercent : c ≠ '%'
  noColon : c ≠ ':'
  noBracket : c ≠ '[' ∧ c ≠ ']'

/-- Domain names have such characters only. -/
theorem plain_of_allowed {c : Char} (h : isForbiddenInDomain c = false) : Plain c := by
  simp only [isForbiddenInDomain, isForbiddenInHost, Bool.or_eq_false_iff,
    decide_eq_false_iff_not] at h
  obtain ⟨⟨⟨host, control⟩, percent⟩, -⟩ := h
  obtain ⟨⟨⟨⟨⟨⟨⟨⟨⟨⟨⟨⟨⟨-, space⟩, hash⟩, slash⟩, colon⟩, -⟩, -⟩, mark⟩, sign⟩, open_⟩, back⟩, close⟩,
    -⟩, -⟩ := host
  -- neither the blank nor a control is allowed
  have visible : 0x20 < c.toNat := by
    have noSpace : c.toNat ≠ 0x20 := fun same => space (by rw [← Char.ofNat_toNat c, same])
    omega
  refine ⟨⟨visible, ?_, sign⟩, percent, colon, open_, close⟩
  simp only [endsAuthority, isSlash, Bool.or_eq_false_iff, Bool.and_eq_false_iff,
    decide_eq_false_iff_not]
  exact ⟨⟨⟨slash, .inr back⟩, mark⟩, hash⟩

namespace Host

/-- **Hosts in canonical form:** a name in ASCII that does not end in a number, an IPv4 address of
32 bits, or an IPv6 address of eight pieces of 16 bits. -/
def Canonical (naming : Naming) : Host → Prop
  | domain name =>
    asciiDomain? naming name = some name ∧ name ≠ [] ∧ endsInNumber name = false
  | ipv4 address => address < Nat.pow 256 4
  | ipv6 pieces => pieces.length = 8 ∧ ∀ n ∈ pieces, n < 65536

variable {naming : Naming} {h : Host} {cs : List Char}

/-- Whatever is read between brackets is an address of eight pieces. -/
theorem canonical_of_bracketedHost (read : bracketedHost cs = .ok h) :
    h.Canonical naming := by
  rw [bracketedHost] at read
  split at read
  · split at read
    · -- between the brackets only an address is accepted
      next pieces found =>
      cases read
      exact ipv6?_fits found
    · cases read
  · cases read

/-- **What is read as a host is in canonical form.** -/
theorem canonical_of_parse (lawful : naming.Lawful) (read : Host.parse naming cs = .ok h) :
    h.Canonical naming := by
  unfold Host.parse at read
  split at read
  · exact canonical_of_bracketedHost read
  split at read
  · cases read
  · cases read
  · -- a name that ends in a number has to be an address; any other is kept as it came out
    next name some_ formed =>
    obtain ⟨decoded, -, formed⟩ := Option.bind_eq_some_iff.1 formed
    split at read
    · split at read
      · next address found =>
        cases read
        exact ipv4?_lt found
      · cases read
    · next word =>
      cases read
      exact ⟨asciiDomain?_of_eq_some lawful formed, some_, Bool.eq_false_iff.2 word⟩

/-- A name in ASCII form is read as it is. -/
theorem parse_name {name : List Char} (fixed : asciiDomain? naming name = some name)
    (some_ : name ≠ []) :
    Host.parse naming name = if endsInNumber name then
        match ipv4? name with
        | some address => .ok (.ipv4 address)
        | none => .error .ipv4
      else .ok (.domain name) := by
  have plain : ∀ c ∈ name, Plain c := fun c hc =>
    plain_of_allowed ((asciiDomain?_eq_some_iff.1 fixed).2 c hc)
  -- no percent sign is allowed in a name, so nothing in it is decoded
  have decoded :
      (Text.Utf8.decode? (percentDecode name)).bind (asciiDomain? naming) = some name := by
    rw [percentDecode_of_plain fun c hc => (plain c hc).noPercent, Text.Utf8.decode?_encode,
      Option.bind_some, fixed]
  unfold Host.parse
  split
  · -- a name does not begin with a bracket
    exact absurd rfl (plain '[' List.mem_cons_self).noBracket.1
  · rw [decoded]
    cases name with
    | nil => exact absurd rfl some_
    | cons c name => rfl

/-- **A host in canonical form is read back from its text.** -/
theorem parse_chars (lawful : naming.Lawful) (canonical : h.Canonical naming) :
    Host.parse naming h.chars = .ok h := by
  cases h with
  -- a name does not end in a number, so it is not taken for an address
  | domain name =>
    obtain ⟨fixed, some_, word⟩ := canonical
    rw [chars, parse_name fixed some_, if_neg (Bool.eq_false_iff.1 word)]
  -- and an address always does
  | ipv4 address =>
    have some_ : Text.joined ['.'] (dotted address) ≠ [] := fun none_ => by
      have number := endsInNumber_dotted address
      rw [none_] at number
      revert number
      decide
    show Host.parse naming (Text.joined ['.'] (dotted address)) = _
    rw [parse_name (asciiDomain?_dotted lawful address) some_, if_pos (endsInNumber_dotted address),
      ipv4?_dotted canonical]
  | ipv6 pieces =>
    obtain ⟨eight, small⟩ := canonical
    show bracketedHost (ipv6Chars pieces ++ [']']) = _
    rw [bracketedHost, List.reverse_append, List.reverse_singleton, List.singleton_append]
    split
    · next inner shape =>
      cases shape
      rw [List.reverse_reverse, ipv6?_ipv6Chars eight small]
    · next other => exact (other _ rfl).elim

/-! ### Hosts in addresses -/

/-- The characters of a host without brackets. -/
theorem plain_of_mem (canonical : h.Canonical naming) (noBrackets : ∀ pieces, h ≠ .ipv6 pieces) :
    ∀ c ∈ h.chars, Plain c := by
  cases h with
  | domain name =>
    exact fun c hc => plain_of_allowed ((asciiDomain?_eq_some_iff.1 canonical.1).2 c hc)
  | ipv4 address =>
    exact fun c hc => plain_of_allowed (allowed_of_mem_dotted address c hc)
  | ipv6 pieces => exact absurd rfl (noBrackets pieces)

/-- The characters of an IPv6 address. -/
theorem inner_of_mem_ipv6Chars {pieces : List Nat} {c : Char} (hc : c ∈ ipv6Chars pieces) :
    Inner c ∧ c ≠ '[' ∧ c ≠ ']' := by
  -- all characters up to the last hexadecimal digit are tried
  have digits : ∀ n < 103, Hex.isDigit (Char.ofNat n) = true →
      Inner (Char.ofNat n) ∧ Char.ofNat n ≠ '[' ∧ Char.ofNat n ≠ ']' := by
    decide
  rcases mem_ipv6Chars hc with rfl | digit
  · decide
  · have small : c.toNat < 103 := by
      unfold Hex.isDigit Hex.value? at digit
      dsimp only at digit
      split at digit
      · omega
      split at digit
      · omega
      split at digit
      · omega
      · cases digit
    have inner := digits c.toNat small
    rw [Char.ofNat_toNat] at inner
    exact inner digit

/-- **No character of a host ends an authority.** -/
theorem inner_of_mem (canonical : h.Canonical naming) : ∀ c ∈ h.chars, Inner c := by
  by_cases brackets : ∃ pieces, h = .ipv6 pieces
  · obtain ⟨pieces, rfl⟩ := brackets
    intro c hc
    rcases List.mem_append.1 hc with hc | hc
    · rcases List.mem_append.1 hc with hc | hc
      · rw [List.mem_singleton.1 hc]
        decide
      · exact (inner_of_mem_ipv6Chars hc).1
    · rw [List.mem_singleton.1 hc]
      decide
  · -- without brackets the host consists of what a name may hold
    have plain := plain_of_mem canonical fun pieces same => brackets ⟨pieces, same⟩
    exact fun c hc => (plain c hc).toInner

theorem chars_ne_nil (canonical : h.Canonical naming) : h.chars ≠ [] := by
  cases h with
  | domain name => exact canonical.2.1
  | ipv4 address =>
    exact List.append_ne_nil_of_left_ne_nil
      (List.append_ne_nil_of_left_ne_nil (Text.Decimal.ofNat_ne_nil _) _) _
  | ipv6 pieces => exact List.append_ne_nil_of_right_ne_nil _ (List.cons_ne_nil _ _)

/-- Characters that end nothing belong to the host; colons only in brackets. -/
theorem splitHost_append (inBrackets : Bool) {cs : List Char}
    (inside : ∀ c ∈ cs, endsAuthority true c = false ∧ c ≠ '[' ∧ c ≠ ']' ∧
      (c = ':' → inBrackets = true)) (rest : List Char) :
    splitHost true inBrackets (cs ++ rest) =
      (cs ++ (splitHost true inBrackets rest).1, (splitHost true inBrackets rest).2) := by
  induction cs with
  | nil => rfl
  | cons c cs ih =>
    obtain ⟨goesOn, open_, close, colon⟩ := inside c List.mem_cons_self
    -- a colon ends the host only outside of brackets
    have stays : ¬ ((decide (c = ':') && !inBrackets) || endsAuthority true c) = true := by
      rw [goesOn, Bool.or_false, Bool.and_eq_true, decide_eq_true_eq]
      rintro ⟨rfl, out⟩
      rw [colon rfl] at out
      cases out
    rw [List.cons_append, splitHost, if_neg stays]
    dsimp only
    rw [if_neg open_, if_neg close, ih fun d hd => inside d (List.mem_cons_of_mem c hd)]
    rfl

/-- A colon or the end of the authority ends the host. -/
theorem splitHost_of_stop {rest : List Char}
    (stop : ∀ c, rest.head? = some c → c = ':' ∨ endsAuthority true c = true) :
    splitHost true false rest = ([], rest) := by
  cases rest with
  | nil => rfl
  | cons c rest =>
    refine if_pos ?_
    rcases stop c rfl with rfl | ends
    · rfl
    · rw [ends, Bool.or_true]

/-- **In an address, the host ends where its text ends.** -/
theorem splitHost_chars (canonical : h.Canonical naming) {rest : List Char}
    (stop : ∀ c, rest.head? = some c → c = ':' ∨ endsAuthority true c = true) :
    splitHost true false (h.chars ++ rest) = (h.chars, rest) := by
  by_cases brackets : ∃ pieces, h = .ipv6 pieces
  · obtain ⟨pieces, rfl⟩ := brackets
    -- between the brackets a colon is only a character
    have inside := splitHost_append true
      (fun c (hc : c ∈ ipv6Chars pieces) =>
        have ⟨inner, open_, close⟩ := inner_of_mem_ipv6Chars hc
        ⟨inner.goesOn, open_, close, fun _ => rfl⟩) (']' :: rest)
    -- behind the closing bracket a colon counts again
    have closing : splitHost true true (']' :: rest) = ([']'], rest) := by
      show ((']' :: (splitHost true false rest).1), (splitHost true false rest).2) = _
      rw [splitHost_of_stop stop]
    rw [closing] at inside
    have whole : (Host.ipv6 pieces).chars ++ rest = '[' :: (ipv6Chars pieces ++ ']' :: rest) := by
      rw [chars, List.append_assoc, List.append_assoc]
      rfl
    rw [whole]
    show ('[' :: (splitHost true true (ipv6Chars pieces ++ ']' :: rest)).1,
      (splitHost true true (ipv6Chars pieces ++ ']' :: rest)).2) = _
    rw [inside]
    rfl
  · have plain := plain_of_mem canonical fun pieces same => brackets ⟨pieces, same⟩
    rw [splitHost_append false (fun c hc =>
      ⟨(plain c hc).goesOn, (plain c hc).noBracket.1, (plain c hc).noBracket.2,
        fun colon => absurd colon (plain c hc).noColon⟩), splitHost_of_stop stop, List.append_nil]

end Host

end BlockRelay.Url
