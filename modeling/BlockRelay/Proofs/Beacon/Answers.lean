import BlockRelay.Beacon.Response
import BlockRelay.Proofs.Json.Declared
import BlockRelay.Proofs.Json.Records

/-!
# Answers are taken whole or not at all

An answer of a beacon node is read in three layers: its bytes are a JSON value, the value has a
field with a list, and every item of the list is a validator. What an item has to look like is
said by `ListedValidator.Writes` (an item that stands for a given validator: its index is a
number, or the text of one) and `ListedValidator.Malformed` (an item that stands for none).

`answers_taken_whole` is the law: a list that was written is read as it was, one malformed item
spoils it, and an answer with an error is the node's own error where it says one.
-/

namespace BlockRelay

/-! ### Indexes as texts -/

namespace Text.Decimal

theorem toNat?_eq_some_iff {digits : List Char} {n : Nat} :
    toNat? digits = some n ↔
      digits ≠ [] ∧ (∀ c ∈ digits, isDigit c = true) ∧ toNat digits = n := by
  rw [toNat?, Option.ite_none_right_eq_some, List.all_eq_true, Option.some.injEq, and_assoc]

/-- A number is taken if it has 64 bits. -/
theorem bind_uint64_eq_some_iff {o : Option Nat} {n : UInt64} :
    (o.bind fun m => if m < 0x10000000000000000 then some (UInt64.ofNat m) else none) = some n ↔
      o = some n.toNat := by
  -- the test is the range of the type
  have bound : n.toNat < 0x10000000000000000 := n.toNat_lt
  rw [Option.bind_eq_some_iff]
  constructor
  · rintro ⟨m, rfl, h⟩
    rw [Option.ite_none_right_eq_some, Option.some.injEq] at h
    obtain ⟨small, rfl⟩ := h
    rw [UInt64.toNat_ofNat_of_lt' small]
  · rintro rfl
    refine ⟨n.toNat, rfl, ?_⟩
    rw [if_pos bound, UInt64.ofNat_toNat]

end Text.Decimal

namespace ListedValidator

/-- A text of decimal digits, with an optional plus sign in front, that stands for `n`. -/
def SpellsIndex (s : String) (n : UInt64) : Prop :=
  ∃ digits : List Char, digits ≠ [] ∧ (∀ c ∈ digits, Text.Decimal.isDigit c = true) ∧
    Text.Decimal.toNat digits = n.toNat ∧ (s.toList = digits ∨ s.toList = '+' :: digits)

/-- An index in quotation marks is read exactly if the text spells it: digits, with a plus sign or
without. -/
theorem toUInt64?_eq_some_iff {s : String} {n : UInt64} :
    Text.Decimal.toUInt64? s.toList = some n ↔ SpellsIndex s n := by
  unfold Text.Decimal.toUInt64?
  dsimp only
  rw [Text.Decimal.bind_uint64_eq_some_iff, Text.Decimal.toNat?_eq_some_iff]
  constructor
  · -- one sign is dropped, if there is one
    intro ⟨some_, all, value⟩
    refine ⟨_, some_, all, value, ?_⟩
    split
    · next signed => exact .inr signed
    · exact .inl rfl
  · rintro ⟨digits, some_, all, value, plain | signed⟩
    · -- a digit is no sign, so nothing is dropped
      have unsigned : ∀ r, s.toList ≠ '+' :: r := by
        intro r hr
        rw [plain] at hr
        have digit := all '+' (by rw [hr]; exact List.mem_cons_self)
        exact absurd digit (by decide)
      rw [plain] at unsigned ⊢
      split
      · exact absurd rfl (unsigned _)
      · exact ⟨some_, all, value⟩
    · rw [signed]
      exact ⟨some_, all, value⟩

/-! ### Items -/

/-- The items that stand for a validator: what is written of it, with its index as a number or as
the text of one. -/
inductive Writes (v : ListedValidator) : Json → Prop
  | number : Writes v v.toJson
  | quoted {n : UInt64} {s : String} (index : v.index = some n) (spells : SpellsIndex s n) :
      Writes v (.obj [
        ("index", .str s),
        ("status", v.status.elim .null .str),
        ("validator", .obj [("pubkey", .str v.pubkey)])])

/-- The items that stand for no validator: no record with a public key, or an index that is no
natural number of 64 bits. -/
inductive Malformed (j : Json) : Prop
  | noValidator (absent : ∀ x, ¬ Json.Holds names j "validator" x)
  | noPubkey {x : Json} (validator : Json.Holds names j "validator" x)
      (absent : ∀ y, ¬ Json.Holds ["pubkey"] x "pubkey" y)
  | indexText {s : String} (index : Json.Holds names j "index" (.str s))
      (spellsNone : ∀ n, ¬ SpellsIndex s n)
  | indexNumber {negative : Bool} {n : Nat}
      (index : Json.Holds names j "index" (Json.ofIntegerLiteral negative n))
      (beyond : negative = true ∧ 0 < n ∨ 0x10000000000000000 ≤ n)

variable {j : Json} {v : ListedValidator}

/-- A listed validator is read from its three fields. -/
theorem ofJson?_eq_some_iff : ofJson? j = some v ↔ ∃ index status validator,
    j.fields? names = some [index, status, validator] ∧
      Json.optional? index? index = some v.index ∧
      Json.optional? Json.text? status = some v.status ∧
      Json.required? pubkey? validator = some v.pubkey := by
  rw [ofJson?, Option.bind_eq_bind, Option.bind_eq_some_iff]
  constructor
  · rintro ⟨values, fields, h⟩
    split at h
    · -- the declared names are three, so three places come back
      next index status validator =>
      obtain ⟨i, hi, h⟩ := Option.bind_eq_some_iff.1 h
      obtain ⟨s, hs, h⟩ := Option.bind_eq_some_iff.1 h
      obtain ⟨k, hk, h⟩ := Option.bind_eq_some_iff.1 h
      cases h
      exact ⟨index, status, validator, fields, hi, hs, hk⟩
    · cases h
  · rintro ⟨index, status, validator, fields, hi, hs, hk⟩
    exact ⟨_, fields, by simp only [hi, hs, hk]; rfl⟩

theorem pubkey?_eq_some {x : Json} {k : String} (h : pubkey? x = some k) :
    Json.Holds ["pubkey"] x "pubkey" (.str k) := by
  rw [pubkey?, Option.bind_eq_bind, Option.bind_eq_some_iff] at h
  obtain ⟨values, fields, h⟩ := h
  split at h
  · -- one declared name, one place
    next pubkey =>
    obtain ⟨y, rfl, text⟩ := Option.bind_eq_some_iff.1 h
    rw [Json.text?_eq_some_iff] at text
    rw [← text]
    exact (Json.getElem?_fields?_iff (by decide) fields (i := 0) rfl).1 rfl
  · cases h

/-- No natural number of 64 bits is written beyond their range. -/
theorem index?_ofIntegerLiteral {negative : Bool} {n : Nat}
    (beyond : negative = true ∧ 0 < n ∨ 0x10000000000000000 ≤ n) :
    Json.optional? index? (some (Json.ofIntegerLiteral negative n)) = none := by
  unfold Json.ofIntegerLiteral
  split
  · next below =>
    have negative_ : ¬ (0 ≤ -(n : Int) ∧ -(n : Int) < 0x10000000000000000) := by omega
    show (if _ then _ else none : Option UInt64).map some = none
    rw [if_neg negative_, Option.map_none]
  · split
    · next kept =>
      -- a number that is kept is neither negative nor too large
      rw [Bool.not_eq_true'] at kept
      rcases beyond with ⟨negative_, -⟩ | large
      · rw [kept.1] at negative_
        cases negative_
      · omega
    · split <;> rfl

/-- **A malformed item is not read.** -/
theorem ofJson?_of_malformed (h : Malformed j) : ofJson? j = none := by
  rw [Option.eq_none_iff_forall_ne_some]
  intro v read
  obtain ⟨index, status, validator, fields, hi, -, hk⟩ := ofJson?_eq_some_iff.1 read
  obtain ⟨y, hy, key⟩ := Option.bind_eq_some_iff.1 hk
  have nodup : names.Nodup := by decide
  -- what the record holds under a name is what the reader saw in that place
  have ofIndex {x : Json} (held : Json.Holds names j "index" x) : index = some x :=
    Option.some.inj ((Json.getElem?_fields?_iff nodup fields (i := 0) rfl).2 held)
  have ofValidator {x : Json} : validator = some x ↔ Json.Holds names j "validator" x :=
    Option.some_inj.symm.trans (Json.getElem?_fields?_iff nodup fields (i := 2) rfl)
  cases h with
  -- each way of being malformed contradicts one of the three readers
  | noValidator absent => exact absent y (ofValidator.1 hy)
  | @noPubkey x held absent =>
    have same : y = x := Option.some.inj (hy.symm.trans (ofValidator.2 held))
    rw [same] at key
    exact absent _ (pubkey?_eq_some key)
  | @indexText s held spellsNone =>
    rw [ofIndex held] at hi
    obtain ⟨n, hn, -⟩ := Option.map_eq_some_iff.1 hi
    exact spellsNone n (toUInt64?_eq_some_iff.1 hn)
  | indexNumber held beyond =>
    rw [ofIndex held, index?_ofIntegerLiteral beyond] at hi
    cases hi

/-- The items of the two forms have their fields in declared order. -/
theorem fields?_item (index status validator : Json) :
    Json.fields? names (.obj [("index", index), ("status", status), ("validator", validator)]) =
      some [some index, some status, some validator] :=
  Json.fields?_self [("index", index), ("status", status), ("validator", validator)]
    (show names.Nodup by decide)

/-- What an item of either form holds beside its index. -/
theorem ofJson?_item {index : Json} {o : Option UInt64} (s : Option String) (k : String)
    (read : Json.optional? index? (some index) = some o) :
    ofJson? (.obj [("index", index), ("status", s.elim .null .str),
      ("validator", .obj [("pubkey", .str k)])]) = some ⟨o, s, k⟩ := by
  -- a missing status is written as null, which is read as missing
  have status : Json.optional? Json.text? (some (s.elim .null .str)) = some s := by
    cases s <;> rfl
  have pubkey : pubkey? (.obj [("pubkey", .str k)]) = some k := by
    have field : Json.fields? ["pubkey"] (.obj [("pubkey", .str k)]) = some [some (.str k)] :=
      Json.fields?_self [("pubkey", .str k)] (show ["pubkey"].Nodup by decide)
    rw [pubkey?, field]
    rfl
  exact ofJson?_eq_some_iff.2 ⟨_, _, _, fields?_item .., read, status, pubkey⟩

/-- **An item that stands for a validator is read as that validator.** -/
theorem ofJson?_of_writes (h : v.Writes j) : ofJson? j = some v := by
  cases h with
  -- a bare number is an unsigned integer in JSON already
  | number =>
    refine ofJson?_item v.status v.pubkey ?_
    cases v.index with
    | none => rfl
    | some n =>
      show (Json.ofUInt64 n).uint64?.map some = some (some n)
      rw [Json.uint64?_ofUInt64, Option.map_some]
  -- a text has to spell the index
  | @quoted n s index spells =>
    have read : Json.optional? index? (some (.str s)) = some v.index := by
      show (Text.Decimal.toUInt64? s.toList).map some = some v.index
      rw [toUInt64?_eq_some_iff.2 spells, index, Option.map_some]
    exact ofJson?_item v.status v.pubkey read

/-- Whichever way an item is written, it is plain. -/
theorem plain_of_writes (h : v.Writes j) : j.plain = true := by
  have status : Json.plain (v.status.elim .null .str) = true := by cases v.status <;> rfl
  -- an index that is missing is written as null
  have index : Json.plain (v.index.elim .null .ofUInt64) = true := by
    cases v.index with
    | none => rfl
    | some n => exact Json.plain_ofUInt64 n
  cases h with
  | number => simp [toJson, status, index]
  | quoted => simp [status]

end ListedValidator

/-! ### Bodies -/

/-- The body with a list of items as its only field, with blanks in front of the list. -/
def answerBytes (gap : List Char) (items : List Json) : Bytes :=
  Text.Utf8.encode ("\x7b\"data\":".toList ++ gap ++ (Json.arr items).chars ++ ['\x7d'])

open Json in
/-- **A body is read as its list,** whatever blanks are in front of it. -/
theorem readBytes?_answerBytes {gap : List Char} {items : List Json}
    (blank : ∀ c ∈ gap, isBlank c = true) (plain : ∀ x ∈ items, x.plain = true) :
    readBytes? (answerBytes gap items) = some (.obj [("data", .arr items)]) := by
  have plainItems : Json.plain (.arr items) = true := by
    rw [plain_arr, List.all_eq_true]
    exact plain
  have front : Spaced [.beginObject, .text (some "data".toList), .colon] :=
    .cons trivial rfl (.cons ⟨_, rfl⟩ rfl (.cons trivial rfl trivial))
  have back : Spaced ((Json.arr items).tokens ++ [.endObject]) :=
    (spaced_tokens _ plainItems).append (.cons trivial rfl trivial) (by simp [Token.isWord])
  -- the blanks stand between two tokens that are no words, so the scanner drops them
  have scanned := scan_gap front back (by simp [Token.isWord]) blank
  have joined : [.beginObject, .text (some "data".toList), .colon] ++
      ((Json.arr items).tokens ++ [.endObject]) = (Json.obj [("data", .arr items)]).tokens := by
    simp [tokens, tokensFields, tokensMoreFields]
  -- the bytes are those tokens spelt out, with the gap in between
  have body : ("\x7b\"data\":".toList ++ gap ++ (Json.arr items).chars ++ ['\x7d']).map some =
      spelled [.beginObject, .text (some "data".toList), .colon] ++
        (gap.map some ++ spelled ((Json.arr items).tokens ++ [.endObject])) := by
    have opening : "\x7b\"data\":".toList.map some =
        spelled [.beginObject, .text (some "data".toList), .colon] := by decide
    simp only [List.map_append, opening, List.append_assoc]
    simp [spelled, chars, Token.chars]
  rw [readBytes?, answerBytes, Text.Utf8.decode_encode, body, readSymbols?, scanned, joined,
    Option.bind_some, ofTokens?_tokens]
  simpa using plainItems

/-- A body that is a record with a list of validators: each item is read as the validator in its
place. -/
def Lists (body : Bytes) (validators : List ListedValidator) : Prop :=
  ∃ j items, Json.readBytes? body = some j ∧ Json.Declares ["data"] j ∧
    Json.Holds ["data"] j "data" (.arr items) ∧
    List.Forall₂ (fun x v => ListedValidator.ofJson? x = some v) items validators

/-- A body that is a record with a code and a message. -/
def SaysError (body : Bytes) (code : Int64) (message : String) : Prop :=
  ∃ j, Json.readBytes? body = some j ∧ Json.Declares ["code", "message"] j ∧
    Json.Holds ["code", "message"] j "code" (.ofInt64 code) ∧
    Json.Holds ["code", "message"] j "message" (.str message)

/-- A body is read as validators exactly if it lists them. -/
theorem listOf?_eq_some_iff {body : Bytes} {validators : List ListedValidator} :
    listOf? body = some validators ↔ Lists body validators := by
  rw [listOf?, Option.bind_eq_bind, Option.bind_eq_some_iff]
  constructor
  · rintro ⟨j, read, h⟩
    obtain ⟨values, fields, h⟩ := Option.bind_eq_some_iff.1 h
    split at h
    · obtain ⟨x, rfl, list⟩ := Option.bind_eq_some_iff.1 h
      have held := (Json.getElem?_fields?_iff (by decide) fields (i := 0) rfl).1 rfl
      cases x with
      -- `data` is an array, and each of its items is read
      | arr items =>
        exact ⟨j, items, read, Json.declares_of_fields? fields, held,
          Json.list?_eq_some_iff.1 list⟩
      | _ => cases list
    · cases h
  · -- the one declared name is `data`, so its place holds the items
    rintro ⟨j, items, read, declares, held, all⟩
    obtain ⟨values, fields⟩ := Json.exists_fields?_iff.2 declares
    obtain ⟨data, rfl⟩ := List.length_eq_one_iff.1 (Json.length_fields? fields)
    have data_ : data = some (.arr items) :=
      Option.some.inj ((Json.getElem?_fields?_iff (by decide) fields (i := 0) rfl).2 held)
    refine ⟨j, read, ?_⟩
    rw [fields, data_]
    exact Json.list?_eq_some_iff.2 all

theorem nodeErrorOf?_eq_some_iff {body : Bytes} {code : Int64} {message : String} :
    nodeErrorOf? body = some (code, message) ↔ SaysError body code message := by
  have nodup : ["code", "message"].Nodup := by decide
  rw [nodeErrorOf?, Option.bind_eq_bind, Option.bind_eq_some_iff]
  constructor
  · rintro ⟨j, read, h⟩
    obtain ⟨values, fields, h⟩ := Option.bind_eq_some_iff.1 h
    split at h
    · -- two declared names, two places: the code and the message
      next first second =>
      obtain ⟨c, hc, h⟩ := Option.bind_eq_some_iff.1 h
      obtain ⟨m, hm, h⟩ := Option.bind_eq_some_iff.1 h
      cases h
      obtain ⟨x, rfl, number⟩ := Option.bind_eq_some_iff.1 hc
      obtain ⟨y, rfl, text⟩ := Option.bind_eq_some_iff.1 hm
      rw [Json.int64?_eq_some_iff] at number
      rw [Json.text?_eq_some_iff] at text
      rw [number, text] at fields
      exact ⟨j, read, Json.declares_of_fields? fields,
        (Json.getElem?_fields?_iff nodup fields (i := 0) rfl).1 rfl,
        (Json.getElem?_fields?_iff nodup fields (i := 1) rfl).1 rfl⟩
    · cases h
  · -- what is held under the two names is what the reader sees in the two places
    rintro ⟨j, read, declares, heldCode, heldMessage⟩
    obtain ⟨values, fields⟩ := Json.exists_fields?_iff.2 declares
    obtain ⟨first, second, rfl⟩ := List.length_eq_two.1 (Json.length_fields? fields)
    have first_ : first = some (.ofInt64 code) :=
      Option.some.inj ((Json.getElem?_fields?_iff nodup fields (i := 0) rfl).2 heldCode)
    have second_ : second = some (.str message) :=
      Option.some.inj ((Json.getElem?_fields?_iff nodup fields (i := 1) rfl).2 heldMessage)
    refine ⟨j, read, ?_⟩
    rw [fields, first_, second_]
    simp only [Option.bind_eq_bind, Option.bind_some, Json.required?_some, Json.int64?_ofInt64]
    rfl

/-! ### The law -/

/-- A body that lists validators is answered with them, below status 300. -/
theorem validatorsOf_of_lists {url : String} {status : Nat} {body : Bytes}
    {validators : List ListedValidator} (success : status < 300) (h : Lists body validators) :
    validatorsOf url status body = .ok validators := by
  rw [validatorsOf, if_neg (Nat.not_le.2 success), listOf?_eq_some_iff.2 h]

/-- A body that lists none is no list of validators, below status 300. -/
theorem validatorsOf_of_not_lists {url : String} {status : Nat} {body : Bytes}
    (success : status < 300) (h : ∀ validators, ¬ Lists body validators) :
    ∃ reason, validatorsOf url status body = .error (.decode url reason) := by
  have unread : listOf? body = none := by
    rw [Option.eq_none_iff_forall_ne_some]
    intro validators read
    exact h validators (listOf?_eq_some_iff.1 read)
  rw [validatorsOf, if_neg (Nat.not_le.2 success), unread]
  exact ⟨_, rfl⟩

/-- What was written of a list of validators lists them, in their order. -/
theorem lists_answerBytes {gap : List Char} {validators : List ListedValidator} {items : List Json}
    (blank : ∀ c ∈ gap, Json.isBlank c = true)
    (written : List.Forall₂ ListedValidator.Writes validators items) :
    Lists (answerBytes gap items) validators := by
  -- each item is one of those written for the validators
  have plain : ∀ x ∈ items, x.plain = true := by
    intro x hx
    obtain ⟨i, hi, rfl⟩ := List.mem_iff_getElem.1 hx
    have item := (List.forall₂_iff_get.1 written).2 i (written.length_eq ▸ hi) hi
    exact ListedValidator.plain_of_writes item
  have fields : Json.fields? ["data"] (.obj [("data", .arr items)]) = some [some (.arr items)] :=
    Json.fields?_self [("data", .arr items)] (show ["data"].Nodup by decide)
  have all := (written.imp fun _ _ item => ListedValidator.ofJson?_of_writes item).flip
  exact ⟨_, items, readBytes?_answerBytes blank plain, Json.declares_of_fields? fields,
    .object (List.mem_singleton_self _), all⟩

/-- One malformed item, and nothing is listed. -/
theorem not_lists_of_malformed {body : Bytes} {j x : Json} {items : List Json}
    (read : Json.readBytes? body = some j) (held : Json.Holds ["data"] j "data" (.arr items))
    (mem : x ∈ items) (malformed : ListedValidator.Malformed x)
    (validators : List ListedValidator) : ¬ Lists body validators := by
  rintro ⟨j', items', read', declares, held', all⟩
  have same : j' = j := Option.some.inj (read'.symm.trans read)
  rw [same] at declares held'
  -- a record holds one value under a name
  obtain ⟨values, fields⟩ := Json.exists_fields?_iff.2 declares
  have value {y : Json} := Json.getElem?_fields?_iff (by decide) fields (i := 0) rfl (x := y)
  have sameItems : items' = items := by
    have eq := (value.2 held').symm.trans (value.2 held)
    rwa [Option.some_inj, Option.some_inj, Json.arr.injEq] at eq
  rw [sameItems] at all
  obtain ⟨i, hi, rfl⟩ := List.mem_iff_getElem.1 mem
  have item := (List.forall₂_iff_get.1 all).2 i hi (all.length_eq ▸ hi)
  have unread := ListedValidator.ofJson?_of_malformed malformed
  rw [List.get_eq_getElem, unread] at item
  cases item

/-- **An answer is taken whole or not at all.** With a status of success:

* the list that was written is read, whatever blanks are in front of it;
* one malformed item makes the whole answer unreadable;
* in general, all items are read, each in its place, or the answer is unreadable.

With any other status the result is a failure: the node's own error, shown as the node words it,
if the body says one. -/
theorem answers_taken_whole (url : String) (status : Nat) :
    (status < 300 →
      (∀ gap validators items, (∀ c ∈ gap, Json.isBlank c = true) →
        List.Forall₂ ListedValidator.Writes validators items →
        validatorsOf url status (answerBytes gap items) = .ok validators) ∧
      (∀ body j items x, Json.readBytes? body = some j →
        Json.Holds ["data"] j "data" (.arr items) → x ∈ items → ListedValidator.Malformed x →
        ∃ reason, validatorsOf url status body = .error (.decode url reason)) ∧
      ∀ body,
        (∃ validators, Lists body validators ∧ validatorsOf url status body = .ok validators) ∨
        (∀ validators, ¬ Lists body validators) ∧
          ∃ reason, validatorsOf url status body = .error (.decode url reason)) ∧
    (300 ≤ status → ∀ body,
      (∀ code message, SaysError body code message →
        validatorsOf url status body = .error (.badResponse code message) ∧
        (BeaconError.badResponse code message).message = message) ∧
      ((∀ code message, ¬ SaysError body code message) →
        ∃ reason, validatorsOf url status body = .error (.decode url reason))) := by
  refine ⟨fun success => ⟨?_, ?_, ?_⟩, fun failure body => ⟨?_, ?_⟩⟩
  · intro gap validators items blank written
    exact validatorsOf_of_lists success (lists_answerBytes blank written)
  · -- nothing lies between: a body lists validators, or the answer is an error
    intro body j items x read held mem malformed
    exact validatorsOf_of_not_lists success (not_lists_of_malformed read held mem malformed)
  · intro body
    by_cases listed : ∃ validators, Lists body validators
    · obtain ⟨validators, h⟩ := listed
      exact .inl ⟨validators, h, validatorsOf_of_lists success h⟩
    · have none_ := not_exists.1 listed
      exact .inr ⟨none_, validatorsOf_of_not_lists success none_⟩
  · intro code message worded
    rw [validatorsOf, if_pos failure, nodeErrorOf?_eq_some_iff.2 worded]
    exact ⟨rfl, rfl⟩
  · -- the reader of node errors gives nothing, so its answer is the decoding error
    intro silent
    have unread : nodeErrorOf? body = none := by
      rw [Option.eq_none_iff_forall_ne_some]
      rintro ⟨code, message⟩ read
      exact silent code message (nodeErrorOf?_eq_some_iff.1 read)
    rw [validatorsOf, if_pos failure, unread]
    exact ⟨_, rfl⟩

/-- Two validators, the second with its index as a text with a sign and zeros; the same list with
`7x` as that index; an error, and a body without any. -/
theorem answers_taken_whole_signed :
    validatorsOf "http://node" 200 (answerBytes [' '] [
        ListedValidator.toJson ⟨none, none, "0xAB"⟩,
        .obj [("index", .str "+007"), ("status", .str "active"),
          ("validator", .obj [("pubkey", .str "\"")])]]) =
      .ok [⟨none, none, "0xAB"⟩, ⟨some 7, some "active", "\""⟩] ∧
    (∃ reason, validatorsOf "http://node" 200 (Json.obj [("data", .arr [
        ListedValidator.toJson ⟨none, none, "0xAB"⟩,
        .obj [("index", .str "7x"), ("validator", .obj [("pubkey", .str "0xcd")])]])]).renderBytes =
      .error (.decode "http://node" reason)) ∧
    validatorsOf "http://node" 404
        (Json.obj [("code", .int 404), ("message", .str "State not found")]).renderBytes =
      .error (.badResponse 404 "State not found") ∧
    ∃ reason, validatorsOf "http://node" 502 Json.null.renderBytes =
      .error (.decode "http://node" reason) := by
  let item : Json := .obj [("index", .str "7x"), ("validator", .obj [("pubkey", .str "0xcd")])]
  -- the sign and the zeros in front do not count
  have spells : ListedValidator.SpellsIndex "+007" 7 :=
    ⟨['0', '0', '7'], by decide, List.all_eq_true.1 (by decide), by decide, .inr (by decide)⟩
  have quoted : ListedValidator.Writes ⟨some 7, some "active", "\""⟩ _ := .quoted rfl spells
  -- one item of two is enough: its index is no number
  have malformed : ListedValidator.Malformed item := by
    refine .indexText (s := "7x") (.object List.mem_cons_self) fun n spelled => ?_
    have unread : Text.Decimal.toUInt64? "7x".toList = none := by decide
    rw [ListedValidator.toUInt64?_eq_some_iff.2 spelled] at unread
    cases unread
  have worded : SaysError
      (Json.obj [("code", .int 404), ("message", .str "State not found")]).renderBytes 404
      "State not found" :=
    ⟨_, Json.readBytes?_renderBytes (by decide), .object (by decide), .object (.head _),
      .object (.tail _ (.head _))⟩
  -- null declares nothing
  have silent : ∀ code message, ¬ SaysError Json.null.renderBytes code message := by
    rintro code message ⟨j, read, declares, -⟩
    rw [Json.readBytes?_renderBytes rfl] at read
    cases read
    cases declares
  refine ⟨?_, ?_, ?_, ?_⟩
  · exact ((answers_taken_whole _ _).1 (by decide)).1 _ _ _ (List.all_eq_true.1 (by decide))
      (.cons .number (.cons quoted .nil))
  · exact ((answers_taken_whole _ _).1 (by decide)).2.1 _ _ _ item
      (Json.readBytes?_renderBytes (by decide)) (.object (List.mem_singleton_self _))
      (by simp [item]) malformed
  · exact (((answers_taken_whole _ _).2 (by decide) _).1 _ _ worded).1
  · exact ((answers_taken_whole _ _).2 (by decide) _).2 silent

end BlockRelay
