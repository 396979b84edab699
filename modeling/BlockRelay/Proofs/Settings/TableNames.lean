import Mathlib.Data.List.TakeWhile
import Mathlib.Logic.Function.Defs
import BlockRelay.Proofs.Audit.Words

/-!
# The names that a table prefix leads to

The names of tables and indexes are put into statements without quotes, so the database should read
each of them as one word, and since it cuts names behind 63 bytes, no two should be cut to the same
name. All that stands between the settings and the statements is the check of the table prefix.
`Settings.names_of_accepted` says how far the check goes: names never have characters other than
those of words, so no name reaches into the text behind it. But a prefix is accepted that begins
with a digit, and then no statement has its words any more; and a prefix of any length is accepted,
though names are legal up to 29 characters of it, and stay apart up to 37.
`Settings.exists_accepted_not_identifier` has a prefix of the first kind.
-/

namespace BlockRelay

namespace Sql

/-- The most bytes that a database keeps of a name. -/
def longestName : Nat := 63

/-- **A name that needs no quotes:** a word, kept as a whole. -/
structure IsIdentifier (name : String) : Prop where
  word : IsWord name.toList
  kept : Text.Utf8.size name.toList ≤ longestName

/-- What the database makes of a name without quotes: its letters in lower case, and no more of them
than it keeps. -/
def stored (name : String) : List Char := (name.toList.map Char.toLower).take longestName

/-- Every word that is read is a word. -/
theorem isWord_of_mem_tokens {w cs : List Char} (h : .word w ∈ tokens cs) : IsWord w := by
  induction cs using tokens.induct with
  | case1 =>
    rw [tokens] at h
    cases h
  -- a word begins here and goes on as long as its characters do
  | case2 c cs begins ih =>
    rw [tokens, if_pos begins] at h
    cases h with
    | head =>
      refine ⟨⟨c, _, rfl, begins⟩, fun d hd => ?_⟩
      cases hd with
      | head => exact (Bool.and_eq_true_iff.1 begins).1
      | tail _ hd => exact List.mem_takeWhile_imp hd
    | tail _ h => exact ih h
  -- a number, a blank and a sign are no words, so the word comes later
  | case3 c cs begins digit ih =>
    rw [tokens, if_neg begins, if_pos digit] at h
    cases h with
    | tail _ h => exact ih h
  | case4 c cs begins digit blank ih =>
    rw [tokens, if_neg begins, if_neg digit, if_pos blank] at h
    exact ih h
  | case5 c cs begins digit blank ih =>
    rw [tokens, if_neg begins, if_neg digit, if_neg blank] at h
    cases h with
    | tail _ h => exact ih h

/-- The characters of words take one byte each. -/
theorem size_of_tableChars {cs : List Char} (h : ∀ c ∈ cs, isTableChar c = true) :
    Text.Utf8.size cs = cs.length := by
  -- letters, digits and the underscore are ASCII, one byte each
  have single {c : Char} (hc : isTableChar c = true) : c.utf8Size = 1 := by
    rw [Char.utf8Size_eq_one_iff]
    simp only [isTableChar, Bool.or_eq_true, Bool.and_eq_true, decide_eq_true_eq] at hc
    rw [UInt32.le_iff_toNat_le]
    show c.toNat ≤ 127
    rcases hc with hc | rfl
    · omega
    · decide
  induction cs with
  | nil => rfl
  | cons c cs ih =>
    rw [Text.Utf8.size, List.map_cons, List.foldr_cons, single (h c List.mem_cons_self),
      ← Text.Utf8.size, ih fun d hd => h d (List.mem_cons_of_mem c hd), List.length_cons]
    omega

end Sql

/-! ### Names and prefixes -/

/-- A text begins with a digit. -/
def beginsWithDigit (s : String) : Bool := s.toList.head?.any Text.Decimal.isDigit

namespace Relation

/-- All that has a name. -/
def all : List Relation :=
  [registration, submission, simulation, delivery, submissionIndex, deliveryIndex]

theorem mem_all (r : Relation) : r ∈ all := by cases r <;> decide

variable {deployment : String}

theorem mem_name {r : Relation} {c : Char} (h : c ∈ (r.name deployment).toList) :
    c ∈ deployment.toList ∨ c ∈ r.ending.toList := by
  rwa [toList_name, List.mem_append] at h

/-- **Names have the characters of words only.** -/
theorem tableChars_name (accepted : isTablePrefix deployment = true) (r : Relation) :
    ∀ c ∈ (r.name deployment).toList, isTableChar c = true := by
  have endings : ∀ r ∈ all, r.ending.toList.all isTableChar = true := by decide +kernel
  intro c hc
  rcases mem_name hc with hc | hc
  · exact List.all_eq_true.1 (Bool.and_eq_true_iff.1 accepted).2 c hc
  · exact List.all_eq_true.1 (endings r r.mem_all) c hc

/-- A name is a word if the prefix does not begin with a digit. -/
theorem isWord_name_iff (accepted : isTablePrefix deployment = true) (r : Relation) :
    Sql.IsWord (r.name deployment).toList ↔ beginsWithDigit deployment = false := by
  obtain ⟨some_, chars⟩ := Bool.and_eq_true_iff.1 accepted
  have consists := tableChars_name accepted r
  rw [toList_name] at consists ⊢
  rw [beginsWithDigit]
  -- all characters are allowed in words, so the first one decides
  cases shape : deployment.toList with
  | nil =>
    rw [shape] at some_
    cases some_
  | cons c cs =>
    rw [shape] at consists
    have first : isTableChar c = true := consists c (.head _)
    constructor
    · rintro ⟨⟨d, ds, shape, begins⟩, -⟩
      cases shape
      exact Bool.not_inj (Bool.and_eq_true_iff.1 begins).2
    · intro noDigit
      refine ⟨⟨c, _, rfl, ?_⟩, consists⟩
      exact Bool.and_eq_true_iff.2 ⟨first, congrArg not noDigit⟩

/-- The longest ending has 34 characters. -/
theorem length_ending_le (r : Relation) : r.ending.toList.length ≤ 34 := by cases r <;> decide

/-- **Names are legal** for short prefixes that do not begin with a digit. -/
theorem isIdentifier_name_iff (accepted : isTablePrefix deployment = true) :
    (∀ r : Relation, Sql.IsIdentifier (r.name deployment)) ↔
      beginsWithDigit deployment = false ∧ deployment.toList.length ≤ 29 := by
  have size (r : Relation) : Text.Utf8.size (r.name deployment).toList =
      deployment.toList.length + r.ending.toList.length := by
    rw [Sql.size_of_tableChars (tableChars_name accepted r), toList_name, List.length_append]
  constructor
  · intro legal
    -- the longest name decides about all of them
    have kept := (legal submissionIndex).kept
    rw [size, show submissionIndex.ending.toList.length = 34 by decide, Sql.longestName] at kept
    exact ⟨(isWord_name_iff accepted _).1 (legal submissionIndex).word, by omega⟩
  · rintro ⟨noDigit, short⟩ r
    refine ⟨(isWord_name_iff accepted r).2 noDigit, ?_⟩
    have ending := r.length_ending_le
    rw [size, Sql.longestName]
    omega

/-- What is kept of a name, and how much of that is the ending. -/
theorem stored_name (r : Relation) : Sql.stored (r.name deployment) =
    (deployment.toList.map Char.toLower).take Sql.longestName ++
      r.ending.toList.take (Sql.longestName - deployment.toList.length) := by
  have lower : ∀ r ∈ all, r.ending.toList.map Char.toLower = r.ending.toList := by decide +kernel
  rw [Sql.stored, toList_name, List.map_append, lower r r.mem_all, List.take_append,
    List.length_map]

/-- **Names are kept apart** if the first 26 characters of their endings are kept: the name of a
table is the beginning of the name of its index. -/
theorem stored_name_injective_iff :
    (Function.Injective fun r : Relation => Sql.stored (r.name deployment)) ↔
      deployment.toList.length ≤ 37 := by
  constructor
  · intro apart
    -- with less than 26 characters of the endings left, a table and its index have one name
    by_contra long
    have same : submission.ending.toList.take 25 = submissionIndex.ending.toList.take 25 := by
      decide +kernel
    have cut : Sql.longestName - deployment.toList.length ≤ 25 := by
      rw [Sql.longestName]
      omega
    have clash : Sql.stored (submission.name deployment) =
        Sql.stored (submissionIndex.name deployment) := by
      rw [stored_name, stored_name, ← Nat.min_eq_left cut, ← List.take_take, same, List.take_take]
    cases apart clash
  · -- with 26 characters left, no two endings are cut to the same
    intro short a b same
    have endings : ∀ a ∈ all, ∀ b ∈ all,
        a.ending.toList.take 26 = b.ending.toList.take 26 → a = b := by
      decide +kernel
    have kept : 26 ≤ Sql.longestName - deployment.toList.length := by
      rw [Sql.longestName]
      omega
    have cut : Sql.stored (a.name deployment) = Sql.stored (b.name deployment) := same
    rw [stored_name, stored_name, List.append_cancel_left_eq] at cut
    refine endings a a.mem_all b b.mem_all ?_
    rw [← Nat.min_eq_left kept, ← List.take_take, cut, List.take_take]

end Relation

/-! ### Statements -/

namespace Sql

/-- The names in a statement, in order. -/
def Template.names : Template → List Relation
  | .text _ => []
  | .named _ r rest => r :: rest.names

/-- Each name in a template is among its tokens as a word. -/
theorem Template.word_mem_tokens {deployment : String} {t : Template} {r : Relation}
    (h : r ∈ t.names) : .word (r.name deployment).toList ∈ t.tokens deployment := by
  induction t with
  | text s => cases h
  | named s r' rest ih =>
    cases h with
    | head => exact List.mem_append_right _ List.mem_cons_self
    | tail _ h => exact List.mem_append_right _ (List.mem_cons_of_mem _ (ih h))

/-- **Statements have their words** if the prefix does not begin with a digit, and not otherwise. -/
theorem tokens_sent_iff {deployment : String} (accepted : isTablePrefix deployment = true) :
    (∀ sql, Sent (.of deployment) sql → ∃ t ∈ statements, sql = t.spelled deployment ∧
        tokens sql.toList = t.tokens deployment) ↔
      beginsWithDigit deployment = false := by
  constructor
  · intro read
    have sent : Sent (.of deployment) _ := .making (.head _)
    obtain ⟨t, ht, -, same⟩ := read _ sent
    have named : ∀ t ∈ statements, t.names ≠ [] := by decide +kernel
    obtain ⟨r, hr⟩ := List.exists_mem_of_ne_nil _ (named t ht)
    -- one statement is enough: it names a relation, and that name has to come out as a word
    have word : .word (r.name deployment).toList ∈ t.tokens deployment :=
      Template.word_mem_tokens hr
    rw [← same] at word
    exact (r.isWord_name_iff accepted).1 (isWord_of_mem_tokens word)
  · intro noDigit sql sent
    exact sent.tokens fun r => (r.isWord_name_iff accepted).2 noDigit

end Sql

namespace Settings

/-- The table prefix of accepted settings is one. -/
theorem isTablePrefix_of_check {s : Settings} {db : DatabaseSettings} (accepted : s.check = .ok ())
    (given : s.database = some db) : isTablePrefix db.tablePrefix = true := by
  by_contra not_
  rw [check, fault?, given] at accepted
  dsimp only at accepted
  rw [if_neg not_] at accepted
  split_ifs at accepted

/-- **What the names of accepted settings are like.** They have the characters of words only. They
are all legal without quotes if the prefix does not begin with a digit and has at most 29
characters. The database keeps them apart if it has at most 37. And every statement that makes the
tables or inserts a row is read with one word for every name if the prefix does not begin with a
digit. None of these conditions is part of the check. -/
theorem names_of_accepted {s : Settings} {db : DatabaseSettings} (accepted : s.check = .ok ())
    (given : s.database = some db) :
    (∀ r : Relation, ∀ c ∈ (r.name db.tablePrefix).toList, isTableChar c = true) ∧
    ((∀ r : Relation, Sql.IsIdentifier (r.name db.tablePrefix)) ↔
      beginsWithDigit db.tablePrefix = false ∧ db.tablePrefix.toList.length ≤ 29) ∧
    ((Function.Injective fun r : Relation => Sql.stored (r.name db.tablePrefix)) ↔
      db.tablePrefix.toList.length ≤ 37) ∧
    ((∀ sql, Sql.Sent (.of db.tablePrefix) sql → ∃ t ∈ Sql.statements,
        sql = t.spelled db.tablePrefix ∧ Sql.tokens sql.toList = t.tokens db.tablePrefix) ↔
      beginsWithDigit db.tablePrefix = false) := by
  have ofPrefix := isTablePrefix_of_check accepted given
  exact ⟨Relation.tableChars_name ofPrefix, Relation.isIdentifier_name_iff ofPrefix,
    Relation.stored_name_injective_iff, Sql.tokens_sent_iff ofPrefix⟩

/-- Settings with audit records under a table prefix. -/
def withPrefix (deployment : String) : Settings where
  database := some { url := "postgres://localhost", tablePrefix := deployment }

/-- The names of the usual deployment are legal and kept apart, and what it sends has its words.
With 38 characters in place of three, they are kept apart no more. -/
theorem names_of_accepted_dev :
    ((withPrefix "dev").check = .ok () ∧ (∀ r : Relation, Sql.IsIdentifier (r.name "dev")) ∧
      (Function.Injective fun r : Relation => Sql.stored (r.name "dev")) ∧
      ∀ sql, Sql.Sent (.of "dev") sql → ∃ t ∈ Sql.statements, sql = t.spelled "dev" ∧
        Sql.tokens sql.toList = t.tokens "dev") ∧
    let long := String.ofList (List.replicate 38 'x')
    (withPrefix long).check = .ok () ∧
      ¬ Function.Injective fun r : Relation => Sql.stored (r.name long) := by
  constructor
  · have accepted : (withPrefix "dev").check = .ok () := by decide +kernel
    obtain ⟨-, legal, apart, read⟩ := names_of_accepted accepted rfl
    exact ⟨accepted, legal.2 (by decide), apart.2 (by decide), read.2 (by decide)⟩
  · intro long
    have accepted : (withPrefix long).check = .ok () := by decide +kernel
    refine ⟨accepted, fun apart => ?_⟩
    -- 38 characters leave too few for the endings, so two names are cut to the same
    have short := (names_of_accepted accepted rfl).2.2.1.1 apart
    revert short
    decide +kernel

/-- **Not every accepted table prefix leads to legal names:** one that begins with a digit is
accepted, and where a name should stand in a statement, there are a number and a word. -/
theorem exists_accepted_not_identifier :
    (withPrefix "1dev").check = .ok () ∧
    (¬ ∀ (s : Settings) (db : DatabaseSettings), s.check = .ok () → s.database = some db →
      ∀ r : Relation, Sql.IsIdentifier (r.name db.tablePrefix)) ∧
    Sql.Sent (.of "1dev") ("CREATE INDEX IF NOT EXISTS " ++ "1dev_payload_delivered_slot_idx" ++
      " ON " ++ "1dev_payload_delivered" ++ " (slot)") ∧
    (Sql.tokens ("CREATE INDEX IF NOT EXISTS " ++ "1dev_payload_delivered_slot_idx" ++
      " ON " ++ "1dev_payload_delivered" ++ " (slot)").toList).drop 5 =
        [.number "1".toList, .word "dev_payload_delivered_slot_idx".toList, .word "ON".toList,
          .number "1".toList, .word "dev_payload_delivered".toList, .mark '(',
          .word "slot".toList, .mark ')'] := by
  have accepted : (withPrefix "1dev").check = .ok () := by decide +kernel
  refine ⟨accepted, fun law => ?_, .making ?_, by cbv⟩
  · have word := (law (withPrefix "1dev") _ accepted rfl .delivery).word
    exact absurd ((Relation.isWord_name_iff (by decide) _).1 word) (by decide)
  · exact .tail _ (.tail _ (.tail _ (.tail _ (.tail _ (.head _)))))

end Settings

end BlockRelay
