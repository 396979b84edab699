import BlockRelay.Proofs.Audit.Inserts

/-!
# Verdicts behind their submissions

What a program and a server say to each other is a list of calls with their answers
(`DbProgram.exchanges`). Whatever the server answers, saving a record can go in few ways: its row
does not fit, its statement fails, its statement is answered and that is all, or the verdict on a
submission follows under the number that the submission's row was given (`AuditRecord.Saved`).

The laws are read off these ways one record at a time (`Saved.sends_verdict_iff`,
`Saved.verdict_follows`, `Saved.failed_iff`), and records that are saved one after the other do not
get in each other's way (`exists_writings`).
-/

namespace BlockRelay

/-- A call and its answer. -/
abbrev Exchange := DbCall × DbAnswer

namespace DbProgram

variable {α β σ : Type} {serve : σ → DbCall → DbAnswer × σ}

/-- **What a program and a server say to each other,** in order. -/
def exchanges (serve : σ → DbCall → DbAnswer × σ) : DbProgram α → σ → List Exchange
  | .done _, _ => []
  | .call c next, s => (c, (serve s c).1) :: (next (serve s c).1).exchanges serve (serve s c).2

theorem run_bind (p : DbProgram α) (f : α → DbProgram β) (s : σ) :
    (p.bind f).run serve s = (f (p.run serve s).1).run serve (p.run serve s).2 := by
  induction p generalizing s with
  | done a => rfl
  | call c next ih => exact ih (serve s c).1 (serve s c).2

/-- And what the second says to the server follows what the first said. -/
theorem exchanges_bind (p : DbProgram α) (f : α → DbProgram β) (s : σ) :
    (p.bind f).exchanges serve s =
      p.exchanges serve s ++ (f (p.run serve s).1).exchanges serve (p.run serve s).2 := by
  induction p generalizing s with
  | done a => rfl
  | call c next ih =>
    rw [bind, exchanges, ih]
    rfl

section AndThen

variable {p : DbProgram (Except DbError α)} {f : α → DbProgram (Except DbError β)} {s : σ}

/-- After a failure nothing is said any more. -/
theorem andThen_of_error {e : DbError} (h : (p.run serve s).1 = .error e) :
    (p.andThen f).exchanges serve s = p.exchanges serve s ∧
      (p.andThen f).run serve s = (.error e, (p.run serve s).2) := by
  rw [andThen, exchanges_bind, run_bind, h]
  exact ⟨List.append_nil _, rfl⟩

/-- After a success the rest of the program goes on from where the server then is. -/
theorem andThen_of_ok {a : α} (h : (p.run serve s).1 = .ok a) :
    (p.andThen f).exchanges serve s =
        p.exchanges serve s ++ (f a).exchanges serve (p.run serve s).2 ∧
      (p.andThen f).run serve s = (f a).run serve (p.run serve s).2 := by
  rw [andThen, exchanges_bind, run_bind, h]
  exact ⟨rfl, rfl⟩

end AndThen

end DbProgram

/-! ### A statement -/

/-- **What is said about a statement:** there is no connection for it, or it is answered. -/
inductive Statement.Sent (st : Statement) : List Exchange → DbAnswer → Prop
  | unconnected (e : DbError) : Sent st [(.acquire, .error e)] (.error e)
  | answered (c : Option Int64) (answer : DbAnswer) :
      Sent st [(.acquire, .ok c), (.execute st, answer)] answer

/-- Only a statement that was sent over a connection can be answered. -/
theorem Statement.Sent.of_ok {st : Statement} {ex : List Exchange} {id : Option Int64}
    (h : st.Sent ex (.ok id)) : ∃ c, ex = [(.acquire, .ok c), (.execute st, .ok id)] := by
  cases h with
  | answered c => exact ⟨c, rfl⟩

section Statements

variable {σ : Type} {serve : σ → DbCall → DbAnswer × σ}

/-- What is done with an answer without a call makes no difference to what is said. -/
theorem Statement.Sent.andThen_done {α : Type} {st : Statement} {p : DbProgram DbAnswer} {s : σ}
    {f : Option Int64 → DbProgram (Except DbError α)} {g : Option Int64 → Except DbError α}
    (h : st.Sent (p.exchanges serve s) (p.run serve s).1) (silent : ∀ id, f id = .done (g id)) :
    ∃ answer, st.Sent ((p.andThen f).exchanges serve s) answer ∧
      ((p.andThen f).run serve s).1 = answer.bind g := by
  cases answer : (p.run serve s).1 with
  -- the program ends where the server refused, so what follows is not run
  | error e =>
    obtain ⟨said, result⟩ := DbProgram.andThen_of_error (f := f) answer
    refine ⟨.error e, ?_, congrArg Prod.fst result⟩
    rw [said, ← answer]
    exact h
  -- and what follows an answer says nothing more
  | ok id =>
    obtain ⟨said, result⟩ := DbProgram.andThen_of_ok (f := f) answer
    rw [silent] at said result
    refine ⟨.ok id, ?_, congrArg Prod.fst result⟩
    rw [said, DbProgram.exchanges, List.append_nil, ← answer]
    exact h

variable (serve)

/-- Sending a statement is asking for a connection, and then, if there is one, for the statement. -/
theorem sent_sendStatement (st : Statement) (s : σ) :
    st.Sent ((sendStatement st).exchanges serve s) ((sendStatement st).run serve s).1 := by
  have asked : ((DbProgram.ask .acquire).run serve s).1 = (serve s .acquire).1 := rfl
  rw [sendStatement]
  -- without a connection the statement is never sent
  cases h : (serve s .acquire).1 with
  | error e =>
    have refused := DbProgram.andThen_of_error (f := fun _ => .ask (.execute st)) (asked.trans h)
    rw [refused.1, refused.2, DbProgram.ask, DbProgram.exchanges, h]
    exact .unconnected e
  | ok c =>
    have granted := DbProgram.andThen_of_ok (f := fun _ => .ask (.execute st)) (asked.trans h)
    rw [granted.1, granted.2, DbProgram.ask, DbProgram.exchanges, h]
    exact .answered c _

/-- A statement that was made of a row is sent, if the row fits. -/
theorem sent_sendInsert {insert : Except RowError Statement} {st : Statement}
    (fits : insert = .ok st) (s : σ) :
    st.Sent ((sendInsert insert).exchanges serve s) ((sendInsert insert).run serve s).1 := by
  rw [fits]
  exact sent_sendStatement serve st s

end Statements

/-! ### A record -/

/-- The reason that a verdict gives; none for a valid block. -/
def Verdict.reason : Verdict → String
  | .valid => ""
  | .invalid reason => reason

/-- The statement that a record comes to in the first place. -/
def AuditRecord.insert (t : Tables) : AuditRecord → Except RowError Statement
  | .registration row => row.insert t
  | .submission row _ => row.insert t
  | .delivery row => row.insert t

/-- **The ways in which saving a record can go.** -/
inductive AuditRecord.Saved (t : Tables) :
    AuditRecord → List Exchange → Except DbError Unit → Prop
  /-- Its row does not fit. -/
  | unfit {r : AuditRecord} {e : RowError} (insert : r.insert t = .error e) :
      Saved t r [] (.error (.row e))
  /-- There is no connection for its statement. -/
  | unconnected {r : AuditRecord} {st : Statement} {e : DbError} (insert : r.insert t = .ok st) :
      Saved t r [(.acquire, .error e)] (.error e)
  /-- Its statement fails. -/
  | refused {r : AuditRecord} {st : Statement} {c : Option Int64} {e : DbError}
      (insert : r.insert t = .ok st) :
      Saved t r [(.acquire, .ok c), (.execute st, .error e)] (.error e)
  /-- A submission is not given the number of a row. -/
  | unnumbered {row : SubmissionRow} {verdict : Option Verdict} {st : Statement}
      {c : Option Int64} (insert : row.insert t = .ok st) :
      Saved t (.submission row verdict) [(.acquire, .ok c), (.execute st, .ok none)]
        (.error .noRow)
  /-- Its statement is answered, and there is no verdict to be saved. -/
  | alone {r : AuditRecord} {st : Statement} {c id : Option Int64} (insert : r.insert t = .ok st)
      (plain : ∀ row v, r ≠ .submission row (some v))
      (numbered : ∀ row, r = .submission row none → id ≠ none) :
      Saved t r [(.acquire, .ok c), (.execute st, .ok id)] (.ok ())
  /-- A submission is given the number of a row, but there is no connection for its verdict. -/
  | unjudged {row : SubmissionRow} {v : Verdict} {st : Statement} {c : Option Int64} {id : Int64}
      {e : DbError} (insert : row.insert t = .ok st) :
      Saved t (.submission row (some v))
        [(.acquire, .ok c), (.execute st, .ok (some id)), (.acquire, .error e)] (.error e)
  /-- A submission is given the number of a row, and its verdict is sent. -/
  | judged {row : SubmissionRow} {v : Verdict} {st : Statement} {c c' : Option Int64} {id : Int64}
      {answer : DbAnswer} (insert : row.insert t = .ok st) :
      Saved t (.submission row (some v))
        [(.acquire, .ok c), (.execute st, .ok (some id)), (.acquire, .ok c'),
          (.execute ((SimulationRow.ofVerdict id v).insert t), answer)]
        (answer.map fun _ => ())

/-- A statement fails, or there is no connection for it. -/
theorem AuditRecord.Saved.of_error {t : Tables} {r : AuditRecord} {st : Statement}
    {ex : List Exchange} {e : DbError} (insert : r.insert t = .ok st)
    (sent : st.Sent ex (.error e)) : r.Saved t ex (.error e) := by
  cases sent with
  | unconnected => exact .unconnected insert
  | answered => exact .refused insert

/-- A verdict follows its submission, or there is no connection for it. -/
theorem AuditRecord.Saved.of_verdict {t : Tables} {row : SubmissionRow} {v : Verdict}
    {st : Statement} {c : Option Int64} {id : Int64} {ex : List Exchange} {answer : DbAnswer}
    (insert : row.insert t = .ok st)
    (sent : ((SimulationRow.ofVerdict id v).insert t).Sent ex answer) :
    (AuditRecord.submission row (some v)).Saved t
      ([(.acquire, .ok c), (.execute st, .ok (some id))] ++ ex) (answer.map fun _ => ()) := by
  cases sent with
  | unconnected => exact .unjudged insert
  | answered => exact .judged insert

section Save

variable {t : Tables} {σ : Type} (serve : σ → DbCall → DbAnswer × σ)

/-- A record whose statement is sent and forgotten. -/
theorem AuditRecord.saved_discard {r : AuditRecord} (plain : ∀ row v, r ≠ .submission row v)
    (s : σ) :
    r.Saved t ((discard (sendInsert (r.insert t))).exchanges serve s)
      ((discard (sendInsert (r.insert t))).run serve s).1 := by
  -- a row that does not fit has no statement; the others send one statement at most
  cases insert : r.insert t with
  | error e => exact .unfit insert
  | ok st =>
    obtain ⟨answer, sent, result⟩ :=
      (sent_sendInsert serve rfl s).andThen_done fun _ => rfl
    rw [discard, result]
    cases answer with
    | error e => exact .of_error insert sent
    | ok id =>
      obtain ⟨c, said⟩ := sent.of_ok
      rw [said]
      exact .alone insert (fun row v => plain row (some v)) fun row h => absurd h (plain row _)

/-- A submission is answered with a failure, or with the number of its row. -/
theorem sent_saveSubmission {row : SubmissionRow} {st : Statement} (insert : row.insert t = .ok st)
    (s : σ) :
    ∃ answer, st.Sent ((saveSubmission t row).exchanges serve s) answer ∧
      ((saveSubmission t row).run serve s).1 =
        answer.bind fun id => id.elim (.error .noRow) .ok :=
  (sent_sendInsert serve insert s).andThen_done fun id => by cases id <;> rfl

/-- Saving a verdict sends its one statement, and what the server returns is dropped. -/
theorem sent_saveSimulation (t : Tables) (row : SimulationRow) (s : σ) :
    ∃ answer, (row.insert t).Sent ((saveSimulation t row).exchanges serve s) answer ∧
      ((saveSimulation t row).run serve s).1 = answer.map fun _ => () := by
  obtain ⟨answer, sent, result⟩ :=
    (sent_sendStatement serve (row.insert t) s).andThen_done
      (f := fun _ => .done (.ok ())) fun _ => rfl
  exact ⟨answer, sent, result.trans (by cases answer <;> rfl)⟩

/-- A submission, and the verdict on it. -/
theorem AuditRecord.saved_submission (row : SubmissionRow) (verdict : Option Verdict) (s : σ) :
    (AuditRecord.submission row verdict).Saved t
      (((AuditRecord.submission row verdict).save t).exchanges serve s)
      (((AuditRecord.submission row verdict).save t).run serve s).1 := by
  cases insert : row.insert t with
  | error e =>
    rw [AuditRecord.save, saveSubmission, insert]
    exact .unfit insert
  | ok st =>
    obtain ⟨answer, sent, number⟩ := sent_saveSubmission serve insert s
    rw [AuditRecord.save]
    cases answer with
    | error e =>
      obtain ⟨said, result⟩ := DbProgram.andThen_of_error (β := Unit) number
      rw [said, result]
      exact .of_error insert sent
    | ok id =>
      cases id with
      -- the server took the row and returned no id: an error, and no verdict is sent
      | none =>
        obtain ⟨said, result⟩ := DbProgram.andThen_of_error (β := Unit) number
        rw [said, result]
        obtain ⟨c, said⟩ := sent.of_ok
        rw [said]
        exact .unnumbered insert
      -- only now does the verdict matter
      | some id =>
        obtain ⟨said, result⟩ := DbProgram.andThen_of_ok (β := Unit) number
        rw [said, result]
        cases verdict with
        | none =>
          obtain ⟨c, said⟩ := sent.of_ok
          rw [said, DbProgram.exchanges, List.append_nil]
          exact .alone insert nofun fun _ _ => nofun
        -- the second statement goes out under the id that the first was answered with
        | some v =>
          obtain ⟨answer, verdict, outcome⟩ :=
            sent_saveSimulation serve t (.ofVerdict id v)
              ((saveSubmission t row).run serve s).2
          obtain ⟨c, said⟩ := sent.of_ok
          rw [said]
          exact outcome ▸ .of_verdict insert verdict

/-- **Saving a record goes in one of these ways,** whatever the server answers. -/
theorem AuditRecord.saved_save (t : Tables) (serve : σ → DbCall → DbAnswer × σ) (r : AuditRecord)
    (s : σ) : r.Saved t ((r.save t).exchanges serve s) ((r.save t).run serve s).1 := by
  cases r with
  | registration row => exact saved_discard serve (fun _ _ h => by cases h) s
  | submission row verdict => exact saved_submission serve row verdict s
  | delivery row => exact saved_discard serve (fun _ _ h => by cases h) s

end Save

/-! ### What is sent for a record -/

/-- The statements that reach the server, with its answers. -/
def statements (ex : List Exchange) : List (Statement × DbAnswer) :=
  ex.filterMap fun
    | (.execute st, answer) => some (st, answer)
    | _ => none

/-- No connection is refused. -/
def Connected (ex : List Exchange) : Prop := ∀ e, (DbCall.acquire, Except.error e) ∉ ex

section Laws

variable {t : Tables} {r : AuditRecord} {st : Statement} {ex : List Exchange} {a answer : DbAnswer}
  {result : Except DbError Unit}

/-- As many parameters as fields, if all can be bound. -/
theorem RowFields.length_of_params {fields : RowFields} {ps : List SqlValue}
    (h : fields.params = .ok ps) : ps.length = fields.length := by
  induction fields generalizing ps with
  | nil =>
    cases h
    rfl
  | cons f fields ih =>
    rw [RowFields.params, List.mapM_cons] at h
    -- binding stops at the first error, so here neither the first nor the rest has one
    cases first : f.2.param f.1 with
    | error e =>
      rw [first] at h
      cases h
    | ok p =>
      cases rest : RowFields.params fields with
      | error e =>
        rw [first, ← RowFields.params, rest] at h
        cases h
      | ok ps' =>
        rw [first, ← RowFields.params, rest] at h
        cases h
        rw [List.length_cons, List.length_cons, ih rest]

theorem length_of_insertOf {table ending : String} {fields : RowFields}
    (h : insertOf table fields ending = .ok st) : st.params.length = fields.length := by
  rw [insertOf] at h
  cases params : fields.params with
  -- without parameters there is no statement
  | error e =>
    rw [params] at h
    cases h
  | ok ps =>
    rw [params] at h
    cases h
    exact RowFields.length_of_params params

/-- The statement of a record is no insert of an outcome: it has more parameters. -/
theorem AuditRecord.insert_ne_simulation (insert : r.insert t = .ok st) (o : SimulationRow) :
    st ≠ o.insert t := by
  -- a verdict's statement has three parameters, and no other statement has so few
  have more : 3 < st.params.length := by
    cases r with
    | registration row =>
      rw [AuditRecord.insert, row.insert_eq] at insert
      calc 3 < 5 := by decide
        _ = st.params.length := (length_of_insertOf insert).symm
    | submission row verdict =>
      rw [AuditRecord.insert, row.insert_eq] at insert
      calc 3 < 13 := by decide
        _ = st.params.length := (length_of_insertOf insert).symm
    | delivery row =>
      rw [AuditRecord.insert, row.insert_eq] at insert
      calc 3 < 17 := by decide
        _ = st.params.length := (length_of_insertOf insert).symm
  rintro rfl
  exact absurd more (Nat.lt_irrefl 3)

/-- The statement about a verdict determines the verdict's row. -/
theorem SimulationRow.insert_injective (t : Tables) :
    Function.Injective (SimulationRow.insert t) := by
  intro o o' same
  cases o
  cases o'
  cases congrArg Statement.params same
  rfl

namespace AuditRecord

/-- The statement of a record alone is no insert of an outcome. -/
theorem simulation_notMem (insert : r.insert t = .ok st) (o : SimulationRow) (a : DbAnswer) :
    (o.insert t, a) ∉ [(st, answer)] := by
  intro mem
  exact insert_ne_simulation insert o (Prod.ext_iff.1 (List.mem_singleton.1 mem)).1.symm

namespace Saved

/-- What reaches the server: nothing, or the statement of the record alone, or that and the verdict
under the number that the statement was answered with. -/
theorem statements_cases (h : r.Saved t ex result) :
    statements ex = [] ∨
    (∃ st a, r.insert t = .ok st ∧ statements ex = [(st, a)] ∧
      ∀ row v id, r = .submission row (some v) → a = .ok (some id) → ¬ Connected ex) ∨
    ∃ row v st id a, r = .submission row (some v) ∧ row.insert t = .ok st ∧ Connected ex ∧
      statements ex = [(st, .ok (some id)), ((SimulationRow.ofVerdict id v).insert t, a)] := by
  cases h with
  -- nothing was sent in the first two cases, and one statement in the next three
  | unfit => exact .inl rfl
  | unconnected => exact .inl rfl
  | refused insert => exact .inr (.inl ⟨_, _, insert, rfl, fun _ _ _ _ => nofun⟩)
  | unnumbered insert => exact .inr (.inl ⟨_, _, insert, rfl, fun _ _ _ _ => nofun⟩)
  | alone insert plain =>
    exact .inr (.inl ⟨_, _, insert, rfl, fun row v _ judged _ => absurd judged (plain row v)⟩)
  -- the connection for the verdict was refused, which `Connected` excludes
  | @unjudged _ _ _ _ _ e insert =>
    refine .inr (.inl ⟨_, _, insert, rfl, fun _ _ _ _ _ connected => connected e ?_⟩)
    exact .tail _ (.tail _ (.head _))
  | judged insert =>
    refine .inr (.inr ⟨_, _, _, _, _, rfl, insert, fun e refused => ?_, rfl⟩)
    simp at refused

/-- Nothing but the statement of a record itself and outcomes of simulations is sent for it. -/
theorem own (h : r.Saved t ex result) (sent : (st, answer) ∈ statements ex) :
    r.insert t = .ok st ∨ ∃ o : SimulationRow, st = o.insert t := by
  -- of the two statements, the first is the record's own, and the second a verdict
  rcases h.statements_cases with none_ | ⟨_, _, insert, alone, -⟩ |
      ⟨_, _, _, _, _, rfl, insert, -, both⟩
  · rw [none_] at sent
    cases sent
  · rw [alone] at sent
    cases List.mem_singleton.1 sent
    exact .inl insert
  · rw [both] at sent
    rcases List.mem_cons.1 sent with first | second
    · cases first
      exact .inl insert
    · cases List.mem_singleton.1 second
      exact .inr ⟨_, rfl⟩

/-- **A verdict follows its submission:** where an outcome is sent, the statement before is the
submission's own, and the outcome is the submission's verdict under the number of its row. -/
theorem verdict_follows (h : r.Saved t ex result) {o : SimulationRow}
    (sent : (o.insert t, answer) ∈ statements ex) :
    ∃ row v st id, r = .submission row (some v) ∧ row.insert t = .ok st ∧ Connected ex ∧
      statements ex = [(st, .ok (some id)), (o.insert t, answer)] ∧ o = .ofVerdict id v := by
  rcases h.statements_cases with none_ | ⟨_, _, insert, alone, -⟩ |
      ⟨row, v, st, id, a, rfl, insert, connected, both⟩
  · rw [none_] at sent
    cases sent
  · -- the one statement is the record's own, and that is never a verdict
    rw [alone] at sent
    exact absurd sent (simulation_notMem insert o answer)
  · rw [both] at sent
    rcases List.mem_cons.1 sent with first | second
    · exact absurd (List.mem_singleton.2 first)
        (simulation_notMem (r := .submission row (some v)) insert o answer)
    · obtain ⟨same, rfl⟩ := Prod.ext_iff.1 (List.mem_singleton.1 second)
      -- the statement that was sent is the one about `v`, so the rows are the same
      obtain rfl := SimulationRow.insert_injective t same
      exact ⟨row, v, st, id, rfl, insert, connected, both, rfl⟩

/-- **A verdict is sent** if and only if its submission was given the number of a row, unless there
is no connection for it. -/
theorem sends_verdict_iff (h : r.Saved t ex result) :
    (∃ (o : SimulationRow) (a : DbAnswer), (o.insert t, a) ∈ statements ex) ↔
      Connected ex ∧ ∃ row v st id, r = .submission row (some v) ∧ row.insert t = .ok st ∧
        (st, .ok (some id)) ∈ statements ex := by
  constructor
  · rintro ⟨o, a, sent⟩
    obtain ⟨row, v, st, id, judged, insert, connected, both, -⟩ := h.verdict_follows sent
    exact ⟨connected, row, v, st, id, judged, insert, both ▸ List.mem_cons_self⟩
  · rintro ⟨connected, row, v, st, id, rfl, insert, sent⟩
    rcases h.statements_cases with none_ | ⟨_, _, -, alone, unjudged⟩ |
        ⟨_, _, _, _, _, -, -, -, both⟩
    · rw [none_] at sent
      cases sent
    · rw [alone] at sent
      cases List.mem_singleton.1 sent
      -- an id came back and no verdict was sent: a connection must have been refused
      exact absurd connected (unjudged _ _ _ rfl rfl)
    · rw [both]
      exact ⟨_, _, .tail _ (.head _)⟩

/-- **Saving fails** if and only if the statement of the record cannot be made, or something that
is said about the record fails, or a submission is given no number of a row. -/
theorem failed_iff (h : r.Saved t ex result) :
    (∃ e, result = .error e) ↔
      (∃ e, r.insert t = .error e) ∨ (∃ c e, (c, .error e) ∈ ex) ∨
        ∃ row verdict st, r = .submission row verdict ∧ row.insert t = .ok st ∧
          (st, .ok none) ∈ statements ex := by
  cases h with
  -- the outcomes in turn: each failure has its cause, and the two successes have none
  | unfit insert => exact iff_of_true ⟨_, rfl⟩ (.inl ⟨_, insert⟩)
  | unconnected insert => exact iff_of_true ⟨_, rfl⟩ (.inr (.inl ⟨_, _, .head _⟩))
  | refused insert => exact iff_of_true ⟨_, rfl⟩ (.inr (.inl ⟨_, _, .tail _ (.head _)⟩))
  | unnumbered insert =>
    exact iff_of_true ⟨_, rfl⟩ (.inr (.inr ⟨_, _, _, rfl, insert, List.mem_cons_self⟩))
  | @alone r _ _ id insert plain numbered =>
    refine iff_of_false nofun ?_
    -- the row fits, the server took it, and a submission got its id
    rintro (⟨e, unfit⟩ | ⟨c, e, failed⟩ | ⟨row, verdict, _, rfl, -, unnumbered⟩)
    · rw [insert] at unfit
      cases unfit
    · simp at failed
    · cases List.mem_singleton.1 unnumbered
      cases verdict with
      | none => exact numbered row rfl rfl
      | some v => exact plain row v rfl
  | unjudged insert =>
    exact iff_of_true ⟨_, rfl⟩ (.inr (.inl ⟨_, _, .tail _ (.tail _ (.head _))⟩))
  | @judged row v st c c' id answer insert =>
    cases answer with
    | error e =>
      exact iff_of_true ⟨e, rfl⟩ (.inr (.inl ⟨_, e, .tail _ (.tail _ (.tail _ (.head _)))⟩))
    -- both statements were answered, so none of the three causes is there
    | ok a =>
      refine iff_of_false nofun ?_
      rintro (⟨e, unfit⟩ | ⟨c, e, failed⟩ | ⟨row', _, st', same, insert', unnumbered⟩)
      · rw [AuditRecord.insert, insert] at unfit
        cases unfit
      · simp at failed
      · cases same
        rcases List.mem_cons.1 unnumbered with first | second
        · cases first
        · cases List.mem_singleton.1 second
          exact insert_ne_simulation (r := .submission row (some v)) insert' _ rfl

/-- The statement of a record is sent, unless there is no connection for it. -/
theorem sends_own (h : r.Saved t ex result) (insert : r.insert t = .ok st) :
    ¬ Connected ex ∨ ∃ a, (st, a) ∈ statements ex := by
  cases h with
  | unfit unfit =>
    rw [insert] at unfit
    cases unfit
  | unconnected => exact .inl fun connected => connected _ (.head _)
  -- in all other cases the own statement went out first
  | refused same | unnumbered same | alone same | unjudged same | judged same =>
    cases insert.symm.trans same
    exact .inr ⟨_, .head _⟩

/-- Of a record that does not fit the server hears nothing. -/
theorem of_unfit (h : r.Saved t ex result) {e : RowError} (unfit : r.insert t = .error e) :
    ex = [] ∧ result = .error (.row e) := by
  cases h with
  | unfit same =>
    cases unfit.symm.trans same
    exact ⟨rfl, rfl⟩
  | unconnected insert | refused insert | unnumbered insert | alone insert | unjudged insert
  | judged insert => cases unfit.symm.trans insert

end Saved

end AuditRecord

end Laws

/-! ### Records one after the other -/

/-- Saves records one after the other, whatever becomes of those before. -/
def saveAll (t : Tables) : List AuditRecord → DbProgram (List (Except DbError Unit))
  | [] => .done []
  | r :: rs => (r.save t).bind fun result => (saveAll t rs).bind fun rest => .done (result :: rest)

/-- A record that was saved, or not: what was said about it, and what came of it. -/
structure Writing where
  record : AuditRecord
  exchanges : List Exchange
  result : Except DbError Unit

/-- The statements that reached the server for a record, with its answers. -/
def Writing.sent (w : Writing) : List (Statement × DbAnswer) := statements w.exchanges

section Run

variable {σ : Type} (serve : σ → DbCall → DbAnswer × σ)

/-- **A run falls into writings,** one for each record, and each of them goes in one of the ways in
which saving can go. -/
theorem exists_writings (t : Tables) (records : List AuditRecord) (s : σ) :
    ∃ ws : List Writing, ws.map (·.record) = records ∧
      ws.map (·.result) = ((saveAll t records).run serve s).1 ∧
      ws.flatMap (·.exchanges) = (saveAll t records).exchanges serve s ∧
      ∀ w ∈ ws, w.record.Saved t w.exchanges w.result := by
  -- the server is in another state for each record
  induction records generalizing s with
  | nil => exact ⟨[], rfl, rfl, rfl, nofun⟩
  | cons r rs ih =>
    obtain ⟨ws, records_, results, said, saved⟩ := ih ((r.save t).run serve s).2
    refine ⟨⟨r, (r.save t).exchanges serve s, ((r.save t).run serve s).1⟩ :: ws, ?_, ?_, ?_, ?_⟩
    · rw [List.map_cons, records_]
    · rw [List.map_cons, results, saveAll, DbProgram.run_bind, DbProgram.run_bind]
      rfl
    · rw [List.flatMap_cons, said, saveAll, DbProgram.exchanges_bind, DbProgram.exchanges_bind,
        DbProgram.exchanges, List.append_nil]
    · intro w hw
      rcases List.mem_cons.1 hw with rfl | hw
      · exact r.saved_save t serve s
      · exact saved w hw

end Run

/-- **Verdicts follow their submissions,** over every run and whatever the server answers. For a
record an outcome is sent if and only if it carries a verdict and its own submission was given the
number of a row (unless there is no connection for it); the outcome comes directly behind that
submission, and it has the number of its row and the success and reason of its verdict. Saving a
record fails if and only if its statement cannot be made or something fails that is said about it.
Nothing is said about a record that does not fit. -/
theorem verdicts_follow_submissions (t : Tables) {σ : Type}
    (serve : σ → DbCall → DbAnswer × σ) (records : List AuditRecord) (s : σ) :
    ∃ ws : List Writing, ws.map (·.record) = records ∧
      ws.map (·.result) = ((saveAll t records).run serve s).1 ∧
      ws.flatMap (·.exchanges) = (saveAll t records).exchanges serve s ∧
      ∀ w ∈ ws,
        ((∃ (o : SimulationRow) (a : DbAnswer), (o.insert t, a) ∈ w.sent) ↔
          Connected w.exchanges ∧ ∃ row v st id, w.record = .submission row (some v) ∧
            row.insert t = .ok st ∧ (st, .ok (some id)) ∈ w.sent) ∧
        (∀ (o : SimulationRow) (a : DbAnswer), (o.insert t, a) ∈ w.sent →
          ∃ row v st id, w.record = .submission row (some v) ∧ row.insert t = .ok st ∧
            w.sent = [(st, .ok (some id)), (o.insert t, a)] ∧
            o.submissionId = id ∧ (o.success = true ↔ v = .valid) ∧ o.error = v.reason) ∧
        ((∃ e, w.result = .error e) ↔
          (∃ e, w.record.insert t = .error e) ∨ (∃ c e, (c, .error e) ∈ w.exchanges) ∨
            ∃ row verdict st, w.record = .submission row verdict ∧ row.insert t = .ok st ∧
              (st, .ok none) ∈ w.sent) ∧
        (∀ e, w.record.insert t = .error e → w.exchanges = [] ∧ w.result = .error (.row e)) ∧
        (∀ st, w.record.insert t = .ok st →
          ¬ Connected w.exchanges ∨ ∃ a, (st, a) ∈ w.sent) ∧
        ∀ st a, (st, a) ∈ w.sent →
          w.record.insert t = .ok st ∨ ∃ o : SimulationRow, st = o.insert t := by
  obtain ⟨ws, records_, results, said, saved⟩ := exists_writings serve t records s
  refine ⟨ws, records_, results, said, fun w hw => ?_⟩
  have saved := saved w hw
  -- all but the second clause are facts about one saved record
  refine ⟨saved.sends_verdict_iff, fun o a sent => ?_, saved.failed_iff,
    fun e unfit => saved.of_unfit unfit, fun st insert => saved.sends_own insert,
    fun st a sent => saved.own sent⟩
  obtain ⟨row, v, st, id, judged, insert, -, both, rfl⟩ := saved.verdict_follows sent
  refine ⟨row, v, st, id, judged, insert, both, ?_⟩
  cases v with
  | valid => exact ⟨rfl, iff_of_true rfl rfl, rfl⟩
  | invalid reason => exact ⟨rfl, iff_of_false nofun nofun, rfl⟩

/-- Of two submissions the first has too many transactions; the verdict on the second goes with the
number that the second was given. -/
theorem verdict_follows_second_submission :
    let bid : BidColumns := ⟨1, 32, "b", "p", "f", "h", "i", 7, 0x80000000, 5, 21000, 30000⟩
    let number : Int64 → DbCall → DbAnswer × Int64 := fun
      | next, .execute _ => (.ok (some next), next + 1)
      | next, _ => (.ok none, next)
    ∃ w₁ w₂ : Writing,
      w₁.record = .submission ⟨bid, .null⟩ (some .valid) ∧
      w₁.exchanges = [] ∧ w₁.result = .error (.row .transactionCount) ∧
      w₂.record = .submission ⟨{ bid with transactionCount := 3 }, .null⟩ (some (.invalid "bad")) ∧
      (saveAll (.of "dev") [w₁.record, w₂.record]).exchanges number 7 = w₂.exchanges ∧
      ∃ (st : Statement) (o : SimulationRow) (a : DbAnswer),
        w₂.sent = [(st, .ok (some 7)), (o.insert (.of "dev"), a)] ∧
        o.submissionId = 7 ∧ o.success = false ∧ o.error = "bad" := by
  intro bid number
  obtain ⟨ws, records, -, said, laws⟩ := verdicts_follow_submissions (.of "dev") number
    [.submission ⟨bid, .null⟩ (some .valid),
      .submission ⟨{ bid with transactionCount := 3 }, .null⟩ (some (.invalid "bad"))] 7
  obtain ⟨w₁, _, rfl, first, records⟩ := List.map_eq_cons_iff.1 records
  obtain ⟨w₂, _, rfl, second, records⟩ := List.map_eq_cons_iff.1 records
  obtain rfl := List.map_eq_nil_iff.1 records
  obtain ⟨-, -, -, unfit, -⟩ := laws w₁ List.mem_cons_self
  obtain ⟨-, follows, -⟩ := laws w₂ (.tail _ List.mem_cons_self)
  obtain ⟨silent, failed⟩ := unfit .transactionCount (by rw [first]; rfl)
  rw [List.flatMap_cons, silent, List.flatMap_singleton, List.nil_append] at said
  -- the outcome is sent last
  have outcome :
      ((⟨7, false, "bad"⟩ : SimulationRow).insert (.of "dev"), .ok (some 8)) ∈ w₂.sent := by
    rw [Writing.sent, said]
    exact .tail _ (.head _)
  obtain ⟨row, v, st, id, judged, -, both, same, -⟩ := follows _ _ outcome
  refine ⟨w₁, w₂, first, silent, failed, second, ?_, st, ⟨7, false, "bad"⟩, .ok (some 8), ?_, rfl,
    rfl, rfl⟩
  · rw [first, second, said]
  · rw [both, ← same]

end BlockRelay
