import BlockRelay.Proofs.Text.Cuts
import BlockRelay.Proofs.Url.Host

/-!
# Authorities come back from their texts

What is read as an authority has encoded user information, a host in canonical form and a port of 16
bits or none (`canonical_of_readAuthority`). Such parts are read back from the text in which they
stand one after the other with a path behind them (`readAuthority_written`): the user information
ends at the last `@` (`readUserinfo_written`), the host at its own end, and the port at the slash
(`readPort_written`).
-/

namespace BlockRelay.Url

/-- A computation with a result is one step with a result after the other. -/
theorem ok_of_bind {α β : Type} {x : Except UrlError α} {f : α → Except UrlError β} {b : β}
    (h : x >>= f = .ok b) : ∃ a, x = .ok a ∧ f a = .ok b := by
  cases x with
  | error e => cases h
  | ok a => exact ⟨a, rfl, h⟩

/-! ### User information -/

theorem percentEncode_ne_nil (encoded : Char → Bool) {cs : List Char} (h : cs ≠ []) :
    percentEncode encoded cs ≠ [] := by
  obtain ⟨c, cs, rfl⟩ := List.exists_cons_of_ne_nil h
  -- a character has a byte, and each byte is written
  obtain ⟨b, bs, bytes, -⟩ := Text.Utf8.piece_encodeChar c []
  refine List.append_ne_nil_of_left_ne_nil ?_ _
  rw [percentChar]
  split
  · rw [Text.Utf8.encode_cons, bytes]
    exact List.cons_ne_nil _ _
  · exact List.cons_ne_nil _ _

/-- Encoded user name and password, with the colon between them, are not changed. -/
theorem encodeUserinfo_joined (user password : List Char) :
    let joined := percentEncode inUserinfo user ++
      if password.isEmpty then [] else ':' :: percentEncode inUserinfo password
    encodeUserinfo joined = joined := by
  have fixed (cs : List Char) : percentEncode inUserinfo (percentEncode inUserinfo cs) =
      percentEncode inUserinfo cs :=
    percentEncode_eq_self (not_mem_class leavesEncodings_inUserinfo)
  -- a colon in the user's name is encoded, so the first one that is left is the separator
  have noColon (cs : List Char) :
      ∀ c ∈ percentEncode inUserinfo cs, (decide (c ≠ ':')) = true := by
    intro c hc
    refine decide_eq_true ?_
    rintro rfl
    cases not_mem_class leavesEncodings_inUserinfo _ hc
  intro joined
  -- the colon is only there in front of a password that is not empty
  cases password with
  | nil =>
    have shape : joined = percentEncode inUserinfo user := List.append_nil _
    rw [shape, encodeUserinfo, List.takeWhile_eq_self_iff.2 (noColon user),
      List.dropWhile_eq_nil_iff.2 (noColon user), List.drop_nil, fixed]
    exact List.append_nil _
  | cons c password =>
    obtain ⟨d, rest, some_⟩ := List.exists_cons_of_ne_nil
      (percentEncode_ne_nil inUserinfo (List.cons_ne_nil c password))
    have shape : joined = percentEncode inUserinfo user ++ ':' :: d :: rest := by
      rw [← some_]
      rfl
    have stop : ∀ c, (':' :: d :: rest).head? = some c → decide (c ≠ ':') = false := by
      rintro _ ⟨⟩
      rfl
    obtain ⟨taken, left⟩ := Text.cut_append (noColon user) stop
    rw [shape, encodeUserinfo, taken, left, List.drop_succ_cons, List.drop_zero, fixed, ← some_,
      fixed, some_]
    rfl

/-- **User information that is encoded already** is not changed. -/
theorem encodeUserinfo_encodeUserinfo (info : List Char) :
    encodeUserinfo (encodeUserinfo info) = encodeUserinfo info :=
  encodeUserinfo_joined _ _

/-- What may stand in a user's part unencoded cannot end the authority. -/
theorem inner_of_not_inUserinfo {c : Char} (h : inUserinfo c = false) : Inner c := by
  simp only [inUserinfo, inPath, Bool.or_eq_false_iff, decide_eq_false_iff_not] at h
  obtain ⟨⟨⟨⟨⟨⟨⟨⟨⟨⟨⟨⟨⟨⟨fragment, hash⟩, mark⟩, -⟩, -⟩, slash⟩, -⟩, -⟩, -⟩, sign⟩, -⟩, back⟩, -⟩, -⟩,
    -⟩ := h
  refine ⟨visible_of_not_inFragment fragment, ?_, sign⟩
  simp only [endsAuthority, isSlash, Bool.or_eq_false_iff, Bool.and_eq_false_iff,
    decide_eq_false_iff_not]
  exact ⟨⟨⟨slash, .inr back⟩, mark⟩, hash⟩

/-- Neither can anything in it once it is encoded. -/
theorem inner_of_mem_encodeUserinfo (info : List Char) : ∀ c ∈ encodeUserinfo info, Inner c := by
  intro c hc
  rcases List.mem_append.1 hc with hc | hc
  · exact inner_of_not_inUserinfo (not_mem_class leavesEncodings_inUserinfo c hc)
  -- the password, behind its colon, if there is one
  split at hc
  · cases hc
  · cases hc with
    | head => decide
    | tail _ hc => exact inner_of_not_inUserinfo (not_mem_class leavesEncodings_inUserinfo c hc)

/-! ### Authorities -/

theorem splitLastAt_of_none {cs : List Char} (h : ∀ c ∈ cs, c ≠ '@') : splitLastAt cs = none := by
  rw [splitLastAt, Text.span_reverse_of_forall_ne h]

/-- The user's part ends at the last at sign. -/
theorem splitLastAt_append (before : List Char) {after : List Char} (h : ∀ c ∈ after, c ≠ '@') :
    splitLastAt (before ++ '@' :: after) = some (before, after) := by
  rw [splitLastAt, Text.span_reverse_append before h]
  dsimp only
  rw [List.reverse_reverse, List.reverse_reverse]

/-- User information as it is written in front of a host. -/
def userinfoChars (info : List Char) : List Char := if info.isEmpty then [] else info ++ ['@']

/-- A port as it is written behind a host. -/
def portChars (port : Option Nat) : List Char := port.elim [] fun n => ':' :: Text.Decimal.ofNat n

/-- A written port is digits behind a colon. -/
theorem inner_of_mem_portChars {port : Option Nat} : ∀ c ∈ portChars port, Inner c := by
  -- the digits are ten, so each is tried
  have digit {c : Char} (h : Text.Decimal.isDigit c = true) : Inner c :=
    of_decide_eq_true (digit_forall (fun c => Inner c) (by decide) h)
  intro c hc
  cases port with
  | none => cases hc
  | some n =>
    cases hc with
    | head => decide
    | tail _ hc => exact digit (List.all_eq_true.1 (Text.Decimal.all_isDigit_ofNat n) c hc)

/-- User information is looked for in front of the path. -/
theorem readUserinfo_append {front : List Char}
    (goesOn : ∀ c ∈ front, endsAuthority true c = false) (rest : List Char) :
    readUserinfo true (front ++ '/' :: rest) =
      match splitLastAt front with
      | none => .ok ([], front ++ '/' :: rest)
      | some (info, after) =>
        if info.isEmpty ∧ after.isEmpty then .error .emptyHost
        else .ok (encodeUserinfo info, after ++ '/' :: rest) := by
  have all : ∀ c ∈ front, (!endsAuthority true c) = true := fun c hc => by
    rw [goesOn c hc]
    rfl
  -- the authority ends at the slash
  have stop : ∀ c, ('/' :: rest).head? = some c → (!endsAuthority true c) = false := by
    rintro _ ⟨⟩
    rfl
  obtain ⟨taken, left⟩ := Text.cut_append all stop
  rw [readUserinfo, taken, left]
  cases splitLastAt front with
  | none => rfl
  | some parts => simp only [List.isEmpty_cons, Bool.not_false, and_true]

/-- **User information is read back.** -/
theorem readUserinfo_written {info cs : List Char} (fixed : encodeUserinfo info = info)
    (inner : ∀ c ∈ cs, Inner c) (rest : List Char) :
    readUserinfo true (userinfoChars info ++ (cs ++ '/' :: rest)) =
      .ok (info, cs ++ '/' :: rest) := by
  have noSign : ∀ c ∈ cs, c ≠ '@' := fun c hc => (inner c hc).noSign
  cases info with
  -- without a user's part no at sign is written
  | nil =>
    show readUserinfo true (cs ++ '/' :: rest) = _
    rw [readUserinfo_append (fun c hc => (inner c hc).goesOn), splitLastAt_of_none noSign]
  | cons d info =>
    -- with one, the at sign behind it is the last, as the host and the port have none
    have whole : userinfoChars (d :: info) ++ (cs ++ '/' :: rest) =
        (d :: info ++ '@' :: cs) ++ '/' :: rest := by
      show (d :: info ++ ['@']) ++ (cs ++ '/' :: rest) = _
      rw [List.append_assoc, List.append_assoc]
      rfl
    have goesOn : ∀ c ∈ d :: info ++ '@' :: cs, endsAuthority true c = false := by
      intro c hc
      rcases List.mem_append.1 hc with hc | hc
      · exact (inner_of_mem_encodeUserinfo (d :: info) c (by rwa [fixed])).goesOn
      cases hc with
      | head => decide
      | tail _ hc => exact (inner c hc).goesOn
    rw [whole, readUserinfo_append goesOn, splitLastAt_append (d :: info) noSign]
    dsimp only
    rw [if_neg fun none_ => Bool.false_ne_true none_.1, fixed]

/-- What follows a host: a port or not, and the end of the authority. -/
def readBehind (userinfo : List Char) (host : Host) :
    List Char → Except UrlError (Authority × List Char)
  | ':' :: r => do
    let (port, rest) ← readPort r
    return (⟨userinfo, host, port⟩, rest)
  | rest => return (⟨userinfo, host, none⟩, rest)

theorem readBehind_of_noPort (userinfo : List Char) (host : Host) {rest : List Char}
    (noPort : ∀ r, rest = ':' :: r → False) :
    readBehind userinfo host rest = .ok (⟨userinfo, host, none⟩, rest) := by
  rw [readBehind]
  · rfl
  · exact noPort

/-- Reading an authority of a known scheme, step by step. -/
theorem readAuthority_eq (naming : Naming) (cs : List Char) : readAuthority naming true cs =
    readUserinfo true cs >>= fun (userinfo, cs) =>
      if (splitHost true false cs).1.isEmpty then .error .emptyHost
      else Host.parse naming (splitHost true false cs).1 >>= fun host =>
        if host = .domain [] ∧
            ((splitHost true false cs).2.head? = some ':' ∨ !userinfo.isEmpty) then
          .error .emptyHost
        else readBehind userinfo host (splitHost true false cs).2 := by
  unfold readAuthority
  -- the same tests in the same order; only what follows the host has become a function of its own
  refine bind_congr fun (userinfo, cs) => ?_
  dsimp only
  by_cases none_ : (splitHost true false cs).1.isEmpty = true
  · rw [if_pos ⟨rfl, none_⟩, if_pos none_]
    rfl
  · rw [if_neg fun h => none_ h.2, if_neg none_, if_pos rfl]
    refine bind_congr fun host => ?_
    split
    · rfl
    · -- the port: a colon comes next, or it does not
      generalize (splitHost true false cs).2 = rest
      cases rest with
      | nil => rfl
      | cons c rest =>
        by_cases colon : c = ':'
        · subst colon
          rfl
        · have other (r : List Char) (same : c :: rest = ':' :: r) : False :=
            colon (List.cons.inj same).1
          rw [readBehind_of_noPort userinfo host other]
          split
          · next same => exact (other _ same).elim
          · rfl

/-- **A port is read back.** -/
theorem readPort_written {n : Nat} (small : n ≤ 65535) (rest : List Char) :
    readPort (Text.Decimal.ofNat n ++ '/' :: rest) = .ok (some n, '/' :: rest) := by
  have digits : ∀ c ∈ Text.Decimal.ofNat n, Text.Decimal.isDigit c = true :=
    List.all_eq_true.1 (Text.Decimal.all_isDigit_ofNat n)
  have some_ : ¬ (Text.Decimal.ofNat n).isEmpty = true := by
    rw [List.isEmpty_iff]
    exact Text.Decimal.ofNat_ne_nil n
  -- what follows the digits is a slash, which ends the authority
  have ends : ¬ (('/' :: rest).head?.any fun c => !endsAuthority true c) = true := by
    rw [List.head?_cons, Option.any_some]
    decide
  have stop : ∀ c, ('/' :: rest).head? = some c → Text.Decimal.isDigit c = false := by
    rintro _ ⟨⟩
    rfl
  obtain ⟨taken, left⟩ := Text.cut_append digits stop
  rw [readPort, taken, left, Text.Decimal.toNat_ofNat, if_neg (Nat.not_lt.2 small), if_neg ends,
    if_neg some_]

theorem readPort_le {cs rest : List Char} {port : Option Nat} (h : readPort cs = .ok (port, rest)) :
    ∀ n, port = some n → n ≤ 65535 := by
  rw [readPort] at h
  split at h
  · cases h
  -- a larger number has been refused
  next small =>
  split at h
  · cases h
  · cases h
    intro n hn
    split at hn
    · cases hn
    · cases hn
      exact Nat.not_lt.1 small

/-- **An authority is read back.** -/
theorem readAuthority_written {naming : Naming} (lawful : naming.Lawful) {info : List Char}
    {host : Host} {port : Option Nat} (fixed : encodeUserinfo info = info)
    (canonical : host.Canonical naming) (small : ∀ n, port = some n → n ≤ 65535)
    (rest : List Char) : readAuthority naming true
        (userinfoChars info ++ (host.chars ++ portChars port ++ '/' :: rest)) =
      .ok (⟨info, host, port⟩, '/' :: rest) := by
  have inner : ∀ c ∈ host.chars ++ portChars port, Inner c := fun c hc =>
    (List.mem_append.1 hc).elim (Host.inner_of_mem canonical c) (inner_of_mem_portChars c)
  -- a host ends at a colon or at the end of the authority, and there is always one of the two
  have stop : ∀ c, (portChars port ++ '/' :: rest).head? = some c →
      c = ':' ∨ endsAuthority true c = true := by
    cases port with
    | none => rintro c ⟨⟩; exact .inr (by decide)
    | some n => rintro c ⟨⟩; exact .inl rfl
  have some_ : ¬ host.chars.isEmpty = true := fun none_ =>
    Host.chars_ne_nil canonical (List.isEmpty_iff.1 none_)
  -- the empty host is no host, so this test cannot fail
  have named : ¬ (host = .domain [] ∧
      ((portChars port ++ '/' :: rest).head? = some ':' ∨ !info.isEmpty)) := by
    rintro ⟨rfl, -⟩
    exact canonical.2.1 rfl
  rw [readAuthority_eq, readUserinfo_written fixed inner, List.append_assoc]
  show (if (splitHost true false (host.chars ++ (portChars port ++ '/' :: rest))).1.isEmpty then _
    else _) = _
  rw [Host.splitHost_chars canonical stop, if_neg some_, Host.parse_chars lawful canonical]
  show (if _ then _ else readBehind info host (portChars port ++ '/' :: rest)) = _
  rw [if_neg named]
  cases port with
  | none => rfl
  | some n =>
    show (readPort (Text.Decimal.ofNat n ++ '/' :: rest) >>= fun (port, rest) => _) = _
    rw [readPort_written (small n rfl)]
    rfl

/-- **What is read as an authority** has encoded user information, a canonical host, and a port of
16 bits or none. -/
theorem canonical_of_readAuthority {naming : Naming} (lawful : naming.Lawful)
    {cs rest : List Char} {a : Authority} (h : readAuthority naming true cs = .ok (a, rest)) :
    encodeUserinfo a.userinfo = a.userinfo ∧ a.host.Canonical naming ∧
      ∀ n, a.port = some n → n ≤ 65535 := by
  rw [readAuthority_eq] at h
  obtain ⟨⟨userinfo, cs'⟩, info, h⟩ := ok_of_bind h
  dsimp only at h
  split at h
  · cases h
  obtain ⟨host, parsed, h⟩ := ok_of_bind h
  split at h
  · cases h
  -- the reader encodes what it finds, and encoding twice is encoding once
  have encoded : encodeUserinfo userinfo = userinfo := by
    rw [readUserinfo] at info
    split at info
    · cases info
      rfl
    · split at info
      · cases info
      · cases info
        exact encodeUserinfo_encodeUserinfo _
  -- what follows the host is a port, or nothing that the authority keeps
  have read : a.userinfo = userinfo ∧ a.host = host ∧ ∀ n, a.port = some n → n ≤ 65535 := by
    unfold readBehind at h
    split at h
    · obtain ⟨⟨port, rest'⟩, portRead, h⟩ := ok_of_bind h
      cases h
      exact ⟨rfl, rfl, readPort_le portRead⟩
    · cases h
      exact ⟨rfl, rfl, fun n hn => nomatch hn⟩
  obtain ⟨sameInfo, sameHost, small⟩ := read
  rw [sameInfo, sameHost]
  exact ⟨encoded, Host.canonical_of_parse lawful parsed, small⟩

end BlockRelay.Url
