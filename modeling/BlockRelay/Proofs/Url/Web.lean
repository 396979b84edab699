import BlockRelay.Proofs.Url.Authority

/-!
# Web addresses come back from their texts

What is read as a web address has parts in canonical form (`WebUrl.Canonical`,
`Url.canonical_of_parse`): every part is encoded and free of what separates it from the next. So an
address with such parts is read back from its text: the authority, the path
(`Url.pathSegments_written`), query and fragment (`Url.part_read_back`), and with its scheme the
whole (`Url.parse_ofList_chars`).
-/

namespace BlockRelay

namespace Url

/-! ### Paths -/

/-- **A segment of a path:** it is encoded, holds no slash and is no dot segment. -/
structure IsSegment (segment : List Char) : Prop where
  encoded : ∀ c ∈ segment, inPath c = false
  whole : ∀ c ∈ segment, isSlash true c = false
  noDot : isDot segment = false
  noDoubleDot : isDoubleDot segment = false

/-- A segment is known by a look at each of its characters. -/
theorem isSegment_of_all {segment : List Char}
    (all : (segment.all fun c => !inPath c && !isSlash true c) = true)
    (noDot : isDot segment = false) (noDoubleDot : isDoubleDot segment = false) :
    IsSegment segment := by
  have each : ∀ c ∈ segment, inPath c = false ∧ isSlash true c = false := fun c hc => by
    simpa using List.all_eq_true.1 all c hc
  exact ⟨fun c hc => (each c hc).1, fun c hc => (each c hc).2, noDot, noDoubleDot⟩

variable {done segments : List (List Char)}

theorem mem_parent {segment : List Char} (h : segment ∈ parent done) : segment ∈ done := by
  rw [parent] at h
  split at h
  · split at h
    · exact h
    · exact (List.dropLast_sublist _).subset h
  · cases h

/-- Segments that are no dots are put behind those that are there. -/
theorem resolveFrom_of_noDots (noDot : ∀ s ∈ segments, isDot s = false)
    (noDoubleDot : ∀ s ∈ segments, isDoubleDot s = false) :
    resolveFrom done segments = done ++ segments := by
  induction segments generalizing done with
  | nil => rw [resolveFrom, List.append_nil]
  | cons s segments ih =>
    -- each segment is kept, and none is taken back
    have single : ¬ isDot s = true := Bool.eq_false_iff.1 (noDot s List.mem_cons_self)
    have double : ¬ isDoubleDot s = true := Bool.eq_false_iff.1 (noDoubleDot s List.mem_cons_self)
    rw [resolveFrom, if_neg double, if_neg single,
      ih (fun t ht => noDot t (List.mem_cons_of_mem s ht))
        fun t ht => noDoubleDot t (List.mem_cons_of_mem s ht), List.append_assoc,
      List.singleton_append]

/-- Following dots leaves segments that are there, segments that are no dots, and empty ones. -/
theorem mem_resolveFrom {segment : List Char} (h : segment ∈ resolveFrom done segments) :
    segment ∈ done ∨ segment = [] ∨
      (segment ∈ segments ∧ isDot segment = false ∧ isDoubleDot segment = false) := by
  -- dots at the end leave an empty segment behind them
  have behind {rest : List (List Char)} {s : List Char}
      (h : s ∈ if rest.isEmpty then [[]] else []) : s = [] := by
    split at h
    · exact List.mem_singleton.1 h
    · cases h
  induction segments generalizing done with
  | nil => exact .inl h
  | cons s segments ih =>
    have later (h : segment ∈ segments ∧ isDot segment = false ∧ isDoubleDot segment = false) :
        segment ∈ s :: segments ∧ isDot segment = false ∧ isDoubleDot segment = false :=
      ⟨List.mem_cons_of_mem s h.1, h.2⟩
    rw [resolveFrom] at h
    split at h
    · rcases ih h with h | h
      · exact (List.mem_append.1 h).imp mem_parent fun h => .inl (behind h)
      · exact .inr (h.imp_right later)
    -- past this test the segment is no double dot, and past the next no dot at all
    next double =>
    split at h
    · rcases ih h with h | h
      · exact (List.mem_append.1 h).imp_right fun h => .inl (behind h)
      · exact .inr (h.imp_right later)
    next single =>
    rcases ih h with h | h
    · refine (List.mem_append.1 h).imp_right fun h => .inr ?_
      rw [List.mem_singleton.1 h]
      exact ⟨List.mem_cons_self, Bool.eq_false_iff.2 single, Bool.eq_false_iff.2 double⟩
    · exact .inr (h.imp_right later)

/-- A path has a last segment. -/
theorem resolveFrom_ne_nil (h : segments ≠ [] ∨ done ≠ []) : resolveFrom done segments ≠ [] := by
  induction segments generalizing done with
  | nil => exact h.resolve_left fun none_ => none_ rfl
  | cons s segments ih =>
    -- a dot at the very end leaves an empty segment behind
    have last (front : List (List Char)) :
        segments ≠ [] ∨ front ++ (if segments.isEmpty then [[]] else []) ≠ [] := by
      cases segments with
      | nil => exact .inr (List.append_ne_nil_of_right_ne_nil _ (List.cons_ne_nil _ _))
      | cons t segments => exact .inl (List.cons_ne_nil _ _)
    rw [resolveFrom]
    split
    · exact ih (last _)
    split
    · exact ih (last _)
    · exact ih (.inr (List.append_ne_nil_of_right_ne_nil _ (List.cons_ne_nil _ _)))

/-- **What is read as a path** has segments, and at least one. -/
theorem canonical_of_pathSegments (cs : List Char) :
    pathSegments cs ≠ [] ∧ ∀ s ∈ pathSegments cs, IsSegment s := by
  obtain ⟨rest, shape⟩ : ∃ rest, pathSegments cs =
      resolveFrom [] ((Text.pieces (isSlash true) rest).map (percentEncode inPath)) := ⟨_, rfl⟩
  rw [shape]
  have digits : ∀ n < 16, isSlash true (upperDigit n) = false := by decide
  constructor
  · refine resolveFrom_ne_nil (.inl fun none_ => ?_)
    exact Text.pieces_ne_nil _ _ (List.map_eq_nil_iff.1 none_)
  · intro s hs
    rcases mem_resolveFrom hs with hs | rfl | ⟨hs, noDot, noDoubleDot⟩
    · cases hs
    · -- the empty segment that a dot leaves
      exact isSegment_of_all rfl rfl rfl
    · obtain ⟨piece, hpiece, rfl⟩ := List.mem_map.1 hs
      -- a piece has no slash in it, and encoding adds none
      have whole : ∀ c ∈ percentEncode inPath piece, isSlash true c = false :=
        forall_mem_percentEncode (fun c hc _ => (Text.mem_of_mem_pieces hpiece c hc).2) (by decide)
          digits
      exact ⟨not_mem_class leavesEncodings_inPath, whole, noDot, noDoubleDot⟩

/-- A path is its segments with slashes between them, and one in front. -/
theorem flatMap_slash (s : List Char) (segments : List (List Char)) :
    (s :: segments).flatMap ('/' :: ·) = '/' :: Text.joined ['/'] (s :: segments) := by
  induction segments generalizing s with
  | nil => exact List.append_nil _
  | cons t segments ih =>
    rw [List.flatMap_cons, ih, Text.joined_cons_cons, List.append_assoc]
    rfl

/-- **A path is read back.** -/
theorem pathSegments_written (some_ : segments ≠ []) (h : ∀ s ∈ segments, IsSegment s) :
    pathSegments (segments.flatMap ('/' :: ·)) = segments := by
  obtain ⟨s, segments, rfl⟩ := List.exists_cons_of_ne_nil some_
  -- no segment has a slash in it, so the cuts are where the slashes were written
  have split_ : Text.pieces (isSlash true) (Text.joined ['/'] (s :: segments)) = s :: segments :=
    Text.pieces_joined (by decide) some_ fun t ht => (h t ht).whole
  have encoded : (s :: segments).map (percentEncode inPath) = s :: segments :=
    (List.map_congr_left fun t ht => percentEncode_eq_self (h t ht).encoded).trans (List.map_id _)
  rw [flatMap_slash]
  show resolveFrom [] ((Text.pieces (isSlash true) (Text.joined ['/'] (s :: segments))).map _) = _
  rw [split_, encoded, resolveFrom_of_noDots (fun t ht => (h t ht).noDot)
    fun t ht => (h t ht).noDoubleDot, List.nil_append]

/-! ### Addresses -/

/-- A query or a fragment as it is written behind its mark. -/
def partChars (mark : Char) (part : Option (List Char)) : List Char := part.elim [] (mark :: ·)

theorem partChars_head (mark : Char) (part : Option (List Char)) :
    ∀ c, (partChars mark part).head? = some c → c = mark := by
  cases part <;> rintro _ ⟨⟩
  rfl

section

variable {mark : Char} {part : Option (List Char)} {encoded : Char → Bool}

/-- If neither the sign nor the part needs encoding, nothing that is written does. -/
theorem not_mem_class_partChars (plain : ∀ cs, part = some cs → ∀ c ∈ cs, encoded c = false)
    (outside : encoded mark = false) : ∀ c ∈ partChars mark part, encoded c = false := by
  intro c hc
  cases part with
  | none => cases hc
  | some cs =>
    cases hc with
    | head => exact outside
    | tail _ hc => exact plain cs rfl c hc

/-- **A query or a fragment is read back.** -/
theorem part_read_back (plain : ∀ cs, part = some cs → ∀ c ∈ cs, encoded c = false) :
    (if (partChars mark part).isEmpty then none
      else some (percentEncode encoded ((partChars mark part).drop 1))) = part := by
  cases part with
  | none => rfl
  | some cs => exact congrArg some (percentEncode_eq_self (plain cs rfl))

/-- What is read as a query or a fragment has no character of its class. -/
theorem plain_of_part {cs : List Char} (leaves : LeavesEncodings encoded)
    (h : (if cs.isEmpty then none else some (percentEncode encoded (cs.drop 1))) = part) :
    ∀ ds, part = some ds → ∀ c ∈ ds, encoded c = false := by
  rintro ds rfl
  split at h
  · cases h
  · cases h
    exact not_mem_class leaves

end

/-- A text is cut in front of a mark. -/
theorem cut_at {cs rest : List Char} {mark : Char} (h : ∀ c ∈ cs, c ≠ mark)
    (stop : ∀ c, rest.head? = some c → c = mark) :
    (cs ++ rest).takeWhile (fun c => decide (c ≠ mark)) = cs ∧
      (cs ++ rest).dropWhile (fun c => decide (c ≠ mark)) = rest := by
  refine Text.cut_append (fun c hc => decide_eq_true (h c hc)) fun c hc => ?_
  rw [stop c hc]
  simp

/-- Slashes in front of a text are dropped. -/
theorem dropWhile_slashes {cs : List Char} (h : ∀ c, cs.head? = some c → isSlash true c = false) :
    ('/' :: '/' :: cs).dropWhile (isSlash true) = cs := by
  rw [List.dropWhile_cons_of_pos rfl, List.dropWhile_cons_of_pos rfl]
  cases cs with
  | nil => rfl
  | cons c cs => exact List.dropWhile_cons_of_neg (Bool.eq_false_iff.1 (h c rfl))

end Url

open Url

/-- **A web address with parts in canonical form.** -/
structure WebUrl.Canonical (naming : Naming) (a : WebUrl) : Prop where
  userinfo : encodeUserinfo a.userinfo = a.userinfo
  host : a.host.Canonical naming
  port : ∀ n, a.port = some n → n ≤ 65535
  /-- The usual port of the scheme is left out. -/
  unusual : a.port ≠ some (if a.secure then 443 else 80)
  path : a.path ≠ []
  segments : ∀ s ∈ a.path, IsSegment s
  query : ∀ q, a.query = some q → ∀ c ∈ q, inQuery c = false
  fragment : ∀ f, a.fragment = some f → ∀ c ∈ f, inFragment c = false

namespace WebUrl

/-- **What is read as a web address has parts in canonical form.** -/
theorem canonical_of_readWeb {naming : Naming} (lawful : naming.Lawful) {secure : Bool}
    {cs : List Char} {a : WebUrl} (h : readWeb naming secure cs = .ok a) : a.Canonical naming := by
  obtain ⟨⟨authority, rest⟩, read, h⟩ := ok_of_bind h
  cases h
  obtain ⟨userinfo, host, small⟩ := canonical_of_readAuthority lawful read
  obtain ⟨path, segments⟩ :=
    canonical_of_pathSegments ((rest.takeWhile (· ≠ '#')).takeWhile (· ≠ '?'))
  -- the usual port of the scheme is left out when an address is read
  have port (usual : Nat) :
      (∀ n, (if authority.port = some usual then none else authority.port) = some n → n ≤ 65535) ∧
        (if authority.port = some usual then none else authority.port) ≠ some usual := by
    split
    · exact ⟨fun n hn => (nomatch hn), fun same => (nomatch same)⟩
    · next unusual => exact ⟨small, unusual⟩
  exact ⟨userinfo, host, (port _).1, (port _).2, path, segments,
    plain_of_part leavesEncodings_inQuery rfl, plain_of_part leavesEncodings_inFragment rfl⟩

/-- The text of a path. -/
def pathChars (a : WebUrl) : List Char := a.path.flatMap ('/' :: ·)

/-- The text of an address behind its scheme. -/
def restChars (a : WebUrl) : List Char :=
  userinfoChars a.userinfo ++ (a.host.chars ++ portChars a.port ++
    (a.pathChars ++ partChars '?' a.query ++ partChars '#' a.fragment))

theorem chars_eq (a : WebUrl) : a.chars =
    (if a.secure then "https:".toList else "http:".toList) ++ '/' :: '/' :: a.restChars := by
  -- the two slashes belong to neither the scheme nor the rest
  have scheme : (if a.secure then "https://".toList else "http://".toList) =
      (if a.secure then "https:".toList else "http:".toList) ++ ['/', '/'] := by
    cases a.secure <;> rfl
  have info : (if a.userinfo.isEmpty then [] else a.userinfo ++ ['@']) = userinfoChars a.userinfo :=
    rfl
  rw [chars, scheme, info]
  simp only [restChars, pathChars, portChars, partChars, List.append_assoc, List.cons_append,
    List.nil_append]

variable {naming : Naming} {a : WebUrl}

/-- No character of a path is encoded in a fragment, and none ends the path. -/
theorem plain_of_mem_pathChars (h : a.Canonical naming) :
    ∀ c ∈ a.pathChars, inFragment c = false ∧ c ≠ '#' ∧ c ≠ '?' := by
  intro c hc
  obtain ⟨s, hs, hc⟩ := List.mem_flatMap.1 hc
  cases hc with
  | head => decide
  -- what a path leaves unencoded is narrower than what a query or a fragment does
  | tail _ hc =>
    have encoded := (h.segments s hs).encoded c hc
    simp only [inPath, Bool.or_eq_false_iff, decide_eq_false_iff_not] at encoded
    exact ⟨encoded.1.1.1.1, encoded.1.1.1.2, encoded.1.1.2⟩

/-- The characters of user information with its sign are visible, and no slash is among them. -/
theorem visible_of_mem_userinfoChars (h : a.Canonical naming) :
    ∀ c ∈ userinfoChars a.userinfo, 0x20 < c.toNat ∧ isSlash true c = false := by
  intro c hc
  rw [userinfoChars] at hc
  -- no user's part, no characters
  split at hc
  · cases hc
  rcases List.mem_append.1 hc with hc | hc
  · have inner := inner_of_mem_encodeUserinfo a.userinfo c (by rwa [h.userinfo])
    exact ⟨inner.visible, inner.noSlash⟩
  · rw [List.mem_singleton.1 hc]
    decide

/-- Behind its scheme and two slashes, an address begins with no slash. -/
theorem restChars_head (h : a.Canonical naming) :
    ∀ c, a.restChars.head? = some c → isSlash true c = false := by
  intro c hc
  obtain ⟨d, rest, some_⟩ := List.exists_cons_of_ne_nil (Host.chars_ne_nil h.host)
  -- the first character is one of the user information or, without any, of the host
  cases info : userinfoChars a.userinfo with
  | nil =>
    rw [restChars, info, some_] at hc
    cases hc
    exact (Host.inner_of_mem h.host c (some_ ▸ List.mem_cons_self)).noSlash
  | cons e more =>
    rw [restChars, info] at hc
    cases hc
    exact (visible_of_mem_userinfoChars h c (info ▸ List.mem_cons_self)).2

/-- **A web address is read back from its text.** -/
theorem readWeb_restChars (lawful : naming.Lawful) (h : a.Canonical naming) :
    readWeb naming a.secure ('/' :: '/' :: a.restChars) = .ok a := by
  obtain ⟨s, segments, path⟩ := List.exists_cons_of_ne_nil h.path
  have slash : a.pathChars ++ partChars '?' a.query ++ partChars '#' a.fragment =
      '/' :: (Text.joined ['/'] (s :: segments) ++ partChars '?' a.query ++
        partChars '#' a.fragment) := by
    rw [pathChars, path, flatMap_slash]
    rfl
  have authority := readAuthority_written lawful h.userinfo h.host h.port
    (Text.joined ['/'] (s :: segments) ++ partChars '?' a.query ++ partChars '#' a.fragment)
  rw [← slash] at authority
  -- the hash is searched first, and then the question mark in front of it
  have noHash : ∀ c ∈ a.pathChars ++ partChars '?' a.query, c ≠ '#' := by
    intro c hc
    rcases List.mem_append.1 hc with hc | hc
    · exact (plain_of_mem_pathChars h c hc).2.1
    · rintro rfl
      cases not_mem_class_partChars h.query (by decide) _ hc
  have noMark : ∀ c ∈ a.pathChars, c ≠ '?' := fun c hc => (plain_of_mem_pathChars h c hc).2.2
  obtain ⟨beforeHash, fromHash⟩ := cut_at noHash (partChars_head '#' a.fragment)
  obtain ⟨beforeMark, fromMark⟩ := cut_at noMark (partChars_head '?' a.query)
  -- a path in its canonical form is read as it stands
  have segmentsRead : pathSegments a.pathChars = a.path := pathSegments_written h.path h.segments
  rw [readWeb, dropWhile_slashes (restChars_head h), restChars, authority]
  show (Except.ok _ : Except UrlError WebUrl) = _
  rw [beforeHash, fromHash, beforeMark, fromMark, segmentsRead, if_neg h.unusual,
    part_read_back h.query, part_read_back h.fragment]

/-- All characters of a web address are visible. -/
theorem visible_of_mem_chars (h : a.Canonical naming) : ∀ c ∈ a.chars, 0x20 < c.toNat := by
  have scheme : ((if a.secure then "https:".toList else "http:".toList).all
      fun c => decide (0x20 < c.toNat)) = true := by
    cases a.secure <;> decide
  -- each part of the rest has its own reason to hold no blank and no control
  have rest : ∀ c ∈ a.restChars, 0x20 < c.toNat := by
    simp only [restChars, List.forall_mem_append]
    exact ⟨fun c hc => (visible_of_mem_userinfoChars h c hc).1,
      ⟨fun c hc => (Host.inner_of_mem h.host c hc).visible,
        fun c hc => (inner_of_mem_portChars c hc).visible⟩,
      ⟨fun c hc => visible_of_not_inFragment (plain_of_mem_pathChars h c hc).1,
        fun c hc => visible_of_not_inQuery (not_mem_class_partChars h.query rfl c hc)⟩,
      fun c hc => visible_of_not_inFragment (not_mem_class_partChars h.fragment rfl c hc)⟩
  rw [chars_eq, List.forall_mem_append, List.forall_mem_cons, List.forall_mem_cons]
  exact ⟨fun c hc => of_decide_eq_true (List.all_eq_true.1 scheme c hc), by decide, by decide, rest⟩

end WebUrl

namespace Url

/-- A text of visible characters counts as a whole. -/
theorem significant_ofList {cs : List Char} (visible : ∀ c ∈ cs, 0x20 < c.toNat) :
    significant (String.ofList cs) = cs := by
  have inside : ∀ c ∈ cs, isOuter c = false := fun c hc =>
    decide_eq_false (Nat.not_le.2 (visible c hc))
  -- what a reader ignores are three controls
  have counts : ∀ c ∈ cs, (!isIgnored c) = true := by
    intro c hc
    have small := visible c hc
    simp only [isIgnored, Bool.not_eq_true', Bool.or_eq_false_iff, decide_eq_false_iff_not]
    refine ⟨⟨?_, ?_⟩, ?_⟩ <;> rintro rfl <;> revert small <;> decide
  rw [significant, String.toList_ofList,
    Text.trimmed_eq_self (fun c hc => inside c (List.mem_of_mem_head? hc))
      fun c hc => inside c (List.mem_of_getLast? hc), List.filter_eq_self.2 counts]

/-- **The text of a web address is read as the address.** -/
theorem parse_ofList_chars {naming : Naming} (lawful : naming.Lawful) {a : WebUrl}
    (h : a.Canonical naming) : Url.parse naming (String.ofList a.chars) = .ok (.web a) := by
  -- what follows the scheme is read back as the address
  have read := WebUrl.readWeb_restChars lawful h
  rw [Url.parse, significant_ofList (WebUrl.visible_of_mem_chars h), WebUrl.chars_eq]
  -- the scheme is fixed text, so it is recognised by computation
  cases secure : a.secure with
  | false =>
    rw [secure] at read
    have scheme : scheme? ("http:".toList ++ '/' :: '/' :: a.restChars) =
        some ("http".toList, '/' :: '/' :: a.restChars) := rfl
    rw [if_neg Bool.false_ne_true, scheme]
    dsimp only
    rw [if_pos rfl, read]
    rfl
  | true =>
    rw [secure] at read
    have scheme : scheme? ("https:".toList ++ '/' :: '/' :: a.restChars) =
        some ("https".toList, '/' :: '/' :: a.restChars) := rfl
    rw [if_pos rfl, scheme]
    dsimp only
    rw [if_neg (by decide), if_pos rfl, read]
    rfl

/-- **What is read as a web address has parts in canonical form.** -/
theorem canonical_of_parse {naming : Naming} (lawful : naming.Lawful) {s : String} {a : WebUrl}
    (h : Url.parse naming s = .ok (.web a)) : a.Canonical naming := by
  rw [Url.parse] at h
  -- with the scheme of a web address, plain or secure, the rest is read as one
  split at h
  · cases h
  split at h
  · obtain ⟨b, read, h⟩ := ok_of_bind h
    cases h
    exact WebUrl.canonical_of_readWeb lawful read
  split at h
  · obtain ⟨b, read, h⟩ := ok_of_bind h
    cases h
    exact WebUrl.canonical_of_readWeb lawful read
  · -- whatever is found in an address with another scheme, it is no web address
    dsimp only at h
    split at h
    all_goals
      obtain ⟨_, -, other_⟩ := ok_of_bind h
      cases other_

end Url

end BlockRelay
