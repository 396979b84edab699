import Mathlib.Data.List.Basic
import BlockRelay.Proofs.Text.Cuts
import BlockRelay.Settings.Basic

/-!
# Statements as a database reads them

The names of tables are put into statements as they are, without quotes. So which words a statement
has depends on what the names begin with. `Sql.tokens` reads a statement word by word, as far as
names are concerned: a word begins with a letter or an underscore and goes on with letters, digits
and underscores; digits that begin no word are a number; whatever else is not blank stands for
itself.

A `Template` is a statement with places for names, which stand apart from the text around them.
`Template.tokens_spelled` is the main statement: if the names are words, a statement has the tokens
of its template with one word in every place. `Sent.template` says that whatever is sent to an audit
database, to make its tables or to insert rows, is spelled from one of ten templates.
-/

namespace BlockRelay

/-! ### Names of tables and indexes -/

/-- What has a name of its own in the audit database. -/
inductive Relation where
  | registration
  | submission
  | simulation
  | delivery
  | submissionIndex
  | deliveryIndex
deriving DecidableEq, Repr

namespace Relation

/-- What the name ends with. -/
def ending : Relation → String
  | .registration => "_validator_registration"
  | .submission => "_builder_block_submission"
  | .simulation => "_builder_block_sim_result"
  | .delivery => "_payload_delivered"
  | .submissionIndex => "_builder_block_submission_slot_idx"
  | .deliveryIndex => "_payload_delivered_slot_idx"

/-- The name in a deployment. -/
def name (deployment : String) (r : Relation) : String := deployment ++ r.ending

theorem toList_name (deployment : String) (r : Relation) :
    (r.name deployment).toList = deployment.toList ++ r.ending.toList := String.toList_append

theorem slotIndex_submission (deployment : String) :
    Tables.slotIndex (Tables.of deployment).submission = submissionIndex.name deployment :=
  String.append_assoc ..

theorem slotIndex_delivery (deployment : String) :
    Tables.slotIndex (Tables.of deployment).delivery = deliveryIndex.name deployment :=
  String.append_assoc ..

end Relation

namespace Sql

/-! ### Words -/

/-- What a statement is made of. -/
inductive Token where
  | word (cs : List Char)
  | number (cs : List Char)
  | mark (c : Char)
deriving DecidableEq, Repr

/-- Letters and the underscore. -/
def beginsWord (c : Char) : Bool := isTableChar c && !Text.Decimal.isDigit c

/-- **The tokens of a statement.** -/
def tokens : List Char → List Token
  | [] => []
  | c :: cs =>
    if beginsWord c then .word (c :: cs.takeWhile isTableChar) :: tokens (cs.dropWhile isTableChar)
    else if Text.Decimal.isDigit c then
      .number (c :: cs.takeWhile Text.Decimal.isDigit) ::
        tokens (cs.dropWhile Text.Decimal.isDigit)
    else if Text.isBlank c then tokens cs
    else .mark c :: tokens cs
termination_by cs => cs.length
decreasing_by
  · exact Nat.lt_succ_of_le (List.dropWhile_suffix _).length_le
  · exact Nat.lt_succ_of_le (List.dropWhile_suffix _).length_le
  · exact Nat.lt_succ_self _
  · exact Nat.lt_succ_self _

/-- A text that is one word. -/
structure IsWord (cs : List Char) : Prop where
  begins : ∃ c r, cs = c :: r ∧ beginsWord c = true
  goesOn : ∀ c ∈ cs, isTableChar c = true

/-- No character of a word stands at the beginning of a text. -/
def StartsApart (cs : List Char) : Prop := ∀ c, cs.head? = some c → isTableChar c = false

/-- No character of a word stands at the end of a text. -/
def EndsApart (cs : List Char) : Prop := ∀ c, cs.getLast? = some c → isTableChar c = false

/-- What ends apart from a word, ends apart from it at the back too. -/
theorem EndsApart.suffix {cs ds : List Char} (h : EndsApart cs) (back : ds <:+ cs) :
    EndsApart ds := by
  obtain ⟨front, rfl⟩ := back
  intro c hc
  exact h c (by rw [List.getLast?_append, hc]; rfl)

theorem isTableChar_of_isDigit {c : Char} (h : Text.Decimal.isDigit c = true) :
    isTableChar c = true := by
  simp only [Text.Decimal.isDigit, Bool.and_eq_true, decide_eq_true_eq] at h
  simp [isTableChar, h]

/-- A word in front of what stands apart is one token. -/
theorem tokens_word_append {cs after : List Char} (h : IsWord cs) (apart : StartsApart after) :
    tokens (cs ++ after) = .word cs :: tokens after := by
  obtain ⟨⟨c, r, rfl, begins⟩, goesOn⟩ := h
  have inside : ∀ d ∈ r, isTableChar d = true := fun d hd => goesOn d (List.mem_cons_of_mem c hd)
  obtain ⟨taken, left⟩ := Text.cut_append inside apart
  rw [List.cons_append, tokens, if_pos begins, taken, left]

/-- A run of characters that ends in a text is not changed by what follows the text. -/
theorem run_append {p : Char → Bool} {cs : List Char} (h : ∃ d ∈ cs, p d = false)
    (after : List Char) :
    (cs ++ after).takeWhile p = cs.takeWhile p ∧
      (cs ++ after).dropWhile p = cs.dropWhile p ++ after := by
  induction cs with
  | nil =>
    obtain ⟨d, hd, -⟩ := h
    cases hd
  | cons c cs ih =>
    rw [List.cons_append]
    by_cases hc : p c = true
    · have later : ∃ d ∈ cs, p d = false := by
        -- the character that stops the run is not the first one, so it comes later
        obtain ⟨d, hd, stops⟩ := h
        rcases List.mem_cons.1 hd with rfl | hd
        · rw [hc] at stops
          cases stops
        · exact ⟨d, hd, stops⟩
      obtain ⟨same, rest⟩ := ih later
      rw [List.takeWhile_cons_of_pos hc, List.takeWhile_cons_of_pos hc, same,
        List.dropWhile_cons_of_pos hc, List.dropWhile_cons_of_pos hc, rest]
      exact ⟨rfl, rfl⟩
    · -- the run is over at once, whatever follows
      rw [List.takeWhile_cons_of_neg hc, List.takeWhile_cons_of_neg hc,
        List.dropWhile_cons_of_neg hc, List.dropWhile_cons_of_neg hc]
      exact ⟨rfl, rfl⟩

/-- What stands behind a text that ends apart is read by itself. -/
theorem tokens_append {cs : List Char} (h : EndsApart cs) (after : List Char) :
    tokens (cs ++ after) = tokens cs ++ tokens after := by
  -- a word or a number that the text begins with ends before the last character of the text
  have stops {c : Char} {cs : List Char} (h : EndsApart (c :: cs)) (hc : isTableChar c = true) :
      ∃ d ∈ cs, isTableChar d = false := by
    obtain rfl | ⟨front, last, rfl⟩ := List.eq_nil_or_concat' cs
    · rw [h c rfl] at hc
      cases hc
    · refine ⟨last, List.mem_append_right _ (List.mem_singleton_self last), h last ?_⟩
      rw [← List.cons_append, List.getLast?_concat]
  induction cs using tokens.induct with
  | case1 => rw [List.nil_append, tokens, List.nil_append]
  -- the word ends within the text, so what comes after cannot lengthen it
  | case2 c cs begins ih =>
    have hc : isTableChar c = true := (Bool.and_eq_true_iff.1 begins).1
    obtain ⟨same, rest⟩ := run_append (stops h hc) after
    have back : cs.dropWhile isTableChar <:+ c :: cs :=
      (List.dropWhile_suffix _).trans (List.suffix_cons c cs)
    rw [List.cons_append, tokens, if_pos begins, same, rest, ih (h.suffix back), tokens,
      if_pos begins, List.cons_append]
  -- so does the number, at a character that is not even one of a word
  | case3 c cs begins digit ih =>
    obtain ⟨d, hd, apart⟩ := stops h (isTableChar_of_isDigit digit)
    have noDigit : Text.Decimal.isDigit d = false := by
      rw [Bool.eq_false_iff]
      intro hdigit
      rw [isTableChar_of_isDigit hdigit] at apart
      cases apart
    obtain ⟨same, rest⟩ := run_append ⟨d, hd, noDigit⟩ after
    have back : cs.dropWhile Text.Decimal.isDigit <:+ c :: cs :=
      (List.dropWhile_suffix _).trans (List.suffix_cons c cs)
    rw [List.cons_append, tokens, if_neg begins, if_pos digit, same, rest, ih (h.suffix back),
      tokens, if_neg begins, if_pos digit, List.cons_append]
  | case4 c cs begins digit blank ih =>
    rw [List.cons_append, tokens, if_neg begins, if_neg digit, if_pos blank,
      ih (h.suffix (List.suffix_cons c cs)), tokens, if_neg begins, if_neg digit, if_pos blank]
  | case5 c cs begins digit blank ih =>
    rw [List.cons_append, tokens, if_neg begins, if_neg digit, if_neg blank,
      ih (h.suffix (List.suffix_cons c cs)), tokens, if_neg begins, if_neg digit, if_neg blank,
      List.cons_append]

/-! ### Templates -/

/-- **A statement with places for names.** -/
inductive Template where
  | text (s : String)
  /-- A text, a name behind it, and what follows the name. -/
  | named (s : String) (r : Relation) (rest : Template)

namespace Template

/-- The statement with the names of a deployment in its places. -/
def spelled (deployment : String) : Template → String
  | .text s => s
  | .named s r rest => s ++ r.name deployment ++ rest.spelled deployment

/-- The tokens of the statement, with one word in every place. -/
def tokens (deployment : String) : Template → List Token
  | .text s => Sql.tokens s.toList
  | .named s r rest =>
    Sql.tokens s.toList ++ .word (r.name deployment).toList :: rest.tokens deployment

/-- The text in front of the first place. -/
def front : Template → String
  | .text s => s
  | .named s _ _ => s

/-- Whether the places stand apart from the text around them. -/
def apart : Template → Bool
  | .text _ => true
  | .named s _ rest =>
    s.toList.getLast?.any (!isTableChar ·) && rest.front.toList.head?.any (!isTableChar ·) &&
      rest.apart

/-- **A statement has the tokens of its template,** if the names are words. -/
theorem tokens_spelled {deployment : String}
    (words : ∀ r, IsWord (Relation.name deployment r).toList) {t : Template} (h : t.apart = true) :
    Sql.tokens (t.spelled deployment).toList = t.tokens deployment := by
  induction t with
  | text s => rfl
  | named s r rest ih =>
    simp only [apart, Bool.and_eq_true, Option.any_eq_true, Bool.not_eq_true'] at h
    obtain ⟨⟨⟨last, hlast, before⟩, first, hfirst, behind⟩, later⟩ := h
    -- the text before the name ends in a character that no word has
    have ends : EndsApart s.toList := by
      intro c hc
      rw [hlast] at hc
      cases hc
      exact before
    -- and what follows begins with one, whether it is the end or another piece
    have starts : StartsApart (rest.spelled deployment).toList := by
      have head : (rest.spelled deployment).toList.head? = some first := by
        cases rest with
        | text s' => exact hfirst
        | named s' r' rest' =>
          rw [spelled, String.toList_append, String.toList_append, List.append_assoc,
            List.head?_append, show s'.toList.head? = some first from hfirst]
          rfl
      intro c hc
      rw [head] at hc
      cases hc
      exact behind
    rw [spelled, String.toList_append, String.toList_append, List.append_assoc, tokens_append ends,
      tokens_word_append (words r) starts, ih later, tokens]

/-- A place between a blank and a mark stands apart. -/
theorem apart_named {s : String} {rest : Template} {mark : Char} (r : Relation)
    (before : s.toList.getLast? = some ' ') (behind : rest.front.toList.head? = some mark)
    (not_ : isTableChar mark = false) (later : rest.apart = true) :
    (named s r rest).apart = true := by
  rw [apart, before, behind, later, Option.any_some, Option.any_some, not_]
  decide

end Template

/-- A text begins like its first piece. -/
theorem head?_append {s : String} {c : Char} (h : s.toList.head? = some c) (t : String) :
    (s ++ t).toList.head? = some c := by
  rw [String.toList_append, List.head?_append, h]
  rfl

/-- A text ends like its last piece. -/
theorem getLast?_append (s : String) {t : String} {c : Char} (h : t.toList.getLast? = some c) :
    (s ++ t).toList.getLast? = some c := by
  rw [String.toList_append, List.getLast?_append, h]
  rfl

/-! ### The statements of the audit database -/

/-- The statement that makes a table. -/
def create (r : Relation) (columns : List String) : Template :=
  .named "CREATE TABLE IF NOT EXISTS " r
    (.text (" ( " ++ ", ".intercalate (Tables.keyColumns ++ columns) ++ " )"))

/-- The statement that makes an index over the slots of a table. -/
def createIndex (index table : Relation) : Template :=
  .named "CREATE INDEX IF NOT EXISTS " index (.named " ON " table (.text " (slot)"))

/-- The statement that makes the table of simulations, which refers to that of submissions. -/
def createSimulation : Template :=
  .named "CREATE TABLE IF NOT EXISTS " .simulation
    (.named (" ( " ++ ", ".intercalate (Tables.keyColumns ++
        ["block_submission_id bigint references"]) ++ " ") .submission
      (.text "(id) ON DELETE CASCADE, success boolean NOT NULL, error text NOT NULL )"))

/-- The statements that make the tables. -/
def schema : List Template := [
  create .registration
    ["pubkey varchar(98) NOT NULL UNIQUE", "fee_recipient varchar(42) NOT NULL",
      "timestamp bigint NOT NULL", "gas_limit bigint NOT NULL", "signature text NOT NULL"],
  create .submission (Tables.bidColumns ++ ["payload json NOT NULL"]),
  createSimulation,
  create .delivery (Tables.bidColumns ++
    ["execution_payload json NOT NULL", "bid_trace json NOT NULL",
      "bid_trace_builder_sig text NOT NULL", "signed_builder_bid json NOT NULL",
      "signed_blinded_beacon_block json NOT NULL"]),
  createIndex .submissionIndex .submission,
  createIndex .deliveryIndex .delivery]

theorem append_regroup (a b c d e : String) :
    a ++ b ++ (c ++ d ++ e) = a ++ b ++ c ++ d ++ e := by
  simp only [String.append_assoc]

/-- The template for making a table spells what the program sends. -/
theorem spelled_create (deployment : String) (r : Relation) (columns : List String) :
    (create r columns).spelled deployment = Tables.create (r.name deployment) columns :=
  append_regroup ..

theorem spelled_createIndex (deployment : String) (index table : Relation) :
    (createIndex index table).spelled deployment = "CREATE INDEX IF NOT EXISTS " ++
      index.name deployment ++ " ON " ++ table.name deployment ++ " (slot)" :=
  append_regroup ..

/-- The statement that makes the table of simulations names the table of submissions, too. -/
theorem spelled_createSimulation (deployment : String) :
    createSimulation.spelled deployment = Tables.create (Relation.simulation.name deployment)
        ["block_submission_id bigint references " ++ Relation.submission.name deployment ++
            "(id) ON DELETE CASCADE",
          "success boolean NOT NULL", "error text NOT NULL"] := by
  -- the name of the submissions stands in the middle of a column, so the text is cut there
  have reference : "block_submission_id bigint references " =
      "block_submission_id bigint references" ++ " " := by
    decide
  have ending : "(id) ON DELETE CASCADE, success boolean NOT NULL, error text NOT NULL )" =
      "(id) ON DELETE CASCADE" ++ (", " ++ ("success boolean NOT NULL" ++ (", " ++
        ("error text NOT NULL" ++ " )")))) := by
    decide
  unfold createSimulation Tables.create Template.spelled Template.spelled Template.spelled
  rw [ending, reference]
  simp only [Tables.keyColumns, List.cons_append, List.nil_append,
    String.intercalate_cons_cons, String.intercalate_singleton, String.append_assoc]

/-- All statements that make the tables are templates, in their order. -/
theorem schema_eq (deployment : String) :
    (Tables.of deployment).schema = schema.map (Template.spelled deployment) := by
  unfold schema Tables.schema Tables.createSlotIndex
  rw [Relation.slotIndex_submission, Relation.slotIndex_delivery]
  simp only [List.map_cons, List.map_nil, spelled_create, spelled_createIndex,
    spelled_createSimulation]
  rfl

/-- The statement that inserts a registration, or replaces an older one. -/
def insertRegistration : Template :=
  .named "INSERT INTO " .registration
    (.named (" (pubkey, fee_recipient, timestamp, gas_limit, signature) VALUES " ++
        "($1, $2, $3, $4, $5) ON CONFLICT (pubkey) DO UPDATE SET " ++
        "fee_recipient = EXCLUDED.fee_recipient, timestamp = EXCLUDED.timestamp, " ++
        "gas_limit = EXCLUDED.gas_limit, signature = EXCLUDED.signature WHERE" ++ " ")
      .registration (.text ".timestamp < EXCLUDED.timestamp"))

/-- The statement that inserts a row of fixed columns. -/
def insert (r : Relation) (columns : String) : Template := .named "INSERT INTO " r (.text columns)

/-- The statements that insert rows. -/
def inserts : List Template := [
  insertRegistration,
  insert .submission (submissionColumns ++ " RETURNING id"),
  insert .simulation " (block_submission_id, success, error) VALUES ($1, $2, $3)",
  insert .delivery deliveryColumns]

/-- All statements. -/
def statements : List Template := schema ++ inserts

/-- **The texts that are sent to an audit database** with these tables: the statements that make
the tables, and those that insert rows. -/
inductive Sent (t : Tables) : String → Prop where
  | making {sql : String} (h : sql ∈ t.schema) : Sent t sql
  | registration {r : RegistrationRow} {st : Statement} (h : r.insert t = .ok st) : Sent t st.sql
  | submission {r : SubmissionRow} {st : Statement} (h : r.insert t = .ok st) : Sent t st.sql
  | simulation (r : SimulationRow) : Sent t (r.insert t).sql
  | delivery {r : DeliveryRow} {st : Statement} (h : r.insert t = .ok st) : Sent t st.sql

/-- The text of a statement does not depend on the parameters that are found before it. -/
theorem sql_of_bind {α : Type} {found : Except RowError α} {f : α → Except RowError Statement}
    {st : Statement} {sql : String} (h : found >>= f = .ok st)
    (same : ∀ a st, f a = .ok st → st.sql = sql) : st.sql = sql := by
  cases found with
  | error e => cases h
  | ok a => exact same a st h

/-- The one template that names its table twice. -/
theorem spelled_insertRegistration (deployment : String) :
    insertRegistration.spelled deployment = "INSERT INTO " ++
      Relation.registration.name deployment ++
      " (pubkey, fee_recipient, timestamp, gas_limit, signature) VALUES ($1, $2, $3, $4, $5)" ++
      replaceOlder (Relation.registration.name deployment) := by
  -- all text between the two names, which the program puts together from parts
  have middle : " (pubkey, fee_recipient, timestamp, gas_limit, signature) VALUES " ++
        "($1, $2, $3, $4, $5) ON CONFLICT (pubkey) DO UPDATE SET " ++
        "fee_recipient = EXCLUDED.fee_recipient, timestamp = EXCLUDED.timestamp, " ++
        "gas_limit = EXCLUDED.gas_limit, signature = EXCLUDED.signature WHERE" ++ " " =
      " (pubkey, fee_recipient, timestamp, gas_limit, signature) VALUES ($1, $2, $3, $4, $5)" ++
        (" ON CONFLICT (pubkey) DO UPDATE SET fee_recipient = EXCLUDED.fee_recipient, " ++
        ("timestamp = EXCLUDED.timestamp, gas_limit = EXCLUDED.gas_limit, " ++
        "signature = EXCLUDED.signature WHERE ")) := by
    decide +kernel
  unfold insertRegistration Template.spelled Template.spelled Template.spelled replaceOlder
  rw [middle]
  simp only [String.append_assoc]

/-- **Whatever is sent is spelled from a template.** -/
theorem Sent.template {deployment sql : String} (h : Sent (.of deployment) sql) :
    ∃ t ∈ statements, sql = t.spelled deployment := by
  have inserted {t : Template} (ht : t ∈ inserts) : t ∈ statements :=
    List.mem_append_right _ ht
  cases h with
  | making h =>
    rw [schema_eq] at h
    obtain ⟨t, ht, rfl⟩ := List.mem_map.1 h
    exact ⟨t, List.mem_append_left _ ht, rfl⟩
  -- the values may fail to be bound; if they are, the text is the template's
  | registration h =>
    refine ⟨insertRegistration, inserted (by simp [inserts]), ?_⟩
    rw [spelled_insertRegistration]
    refine sql_of_bind h fun a st h => sql_of_bind h fun b st h => ?_
    cases h
    rfl
  -- the one statement that asks for something back
  | submission h =>
    refine ⟨insert .submission _, inserted (.tail _ (.head _)), ?_⟩
    refine sql_of_bind h fun a st h => ?_
    cases h
    exact String.append_assoc ..
  | simulation r => exact ⟨insert .simulation _, inserted (.tail _ (.tail _ (.head _))), rfl⟩
  | delivery h =>
    refine ⟨insert .delivery _, inserted (.tail _ (.tail _ (.tail _ (.head _)))), ?_⟩
    refine sql_of_bind h fun a st h => ?_
    cases h
    rfl

/-- In each template the names stand apart from the words around them. -/
theorem apart_create (r : Relation) (columns : List String) : (create r columns).apart = true := by
  have behind : (" ( " ++ ", ".intercalate (Tables.keyColumns ++ columns) ++ " )").toList.head? =
      some ' ' := head?_append (head?_append (by decide) _) _
  exact Template.apart_named r (by decide) behind (by decide) rfl

theorem apart_createIndex (index table : Relation) : (createIndex index table).apart = true := by
  have inner : (Template.named " ON " table (.text " (slot)")).apart = true :=
    Template.apart_named table (by decide) rfl (by decide) rfl
  have behind : " ON ".toList.head? = some ' ' := rfl
  exact Template.apart_named index (by decide) behind (by decide) inner

theorem apart_createSimulation : createSimulation.apart = true := by
  refine Template.apart_named _ (by decide) (head?_append (head?_append rfl _) _) (by decide) ?_
  exact Template.apart_named _ (getLast?_append _ (by decide)) rfl (by decide) rfl

theorem apart_insertRegistration : insertRegistration.apart = true := by
  refine Template.apart_named _ (by decide) (head?_append (head?_append (head?_append
    (head?_append rfl _) _) _) _) (by decide) ?_
  exact Template.apart_named _ (getLast?_append _ (by decide)) rfl (by decide) rfl

theorem apart_insert {columns : String} (r : Relation) (h : columns.toList.head? = some ' ') :
    (insert r columns).apart = true :=
  Template.apart_named r (by decide) h (by decide) rfl

/-- The places of all statements stand apart. -/
theorem apart_of_mem : ∀ t ∈ statements, t.apart = true := by
  have bid (rest : String) : (" (" ++ bidNames ++ rest).toList.head? = some ' ' :=
    head?_append (head?_append (by decide) _) rest
  simp only [statements, schema, inserts, List.cons_append, List.nil_append, List.forall_mem_cons,
    apart_create, apart_createIndex, apart_createSimulation, apart_insertRegistration, true_and]
  refine ⟨apart_insert _ ?_, apart_insert _ (by decide), apart_insert _ ?_, by simp⟩
  · exact head?_append (head?_append (bid _) _) _
  · exact head?_append (head?_append (head?_append (bid _) _) _) _

/-- **What is sent has the tokens of a template,** if the names are words. -/
theorem Sent.tokens {deployment sql : String} (h : Sent (.of deployment) sql)
    (words : ∀ r, IsWord (Relation.name deployment r).toList) :
    ∃ t ∈ statements, sql = t.spelled deployment ∧
      Sql.tokens sql.toList = t.tokens deployment := by
  obtain ⟨t, ht, rfl⟩ := h.template
  exact ⟨t, ht, rfl, Template.tokens_spelled words (apart_of_mem t ht)⟩

end Sql

end BlockRelay
