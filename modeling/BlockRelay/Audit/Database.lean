import BlockRelay.Audit.Statement
import BlockRelay.Log.Line
import BlockRelay.Text.Pieces
import BlockRelay.Time.Span

/-!
# Working with the audit database

What the relay does with the database is a program over the calls that a server sees
(`DbCall`): `saveRegistration` and its like send one statement, `createTables` sends the schema
in one transaction, `AuditRecord.save` sends what a record needs. A row that does not fit fails
before anything is sent. `connect` keeps trying for about a minute, with growing pauses.
-/

namespace BlockRelay

/-- What can go wrong with the database. -/
inductive DbError where
  /-- A row does not fit its table. -/
  | row (e : RowError)
  /-- The address of the database cannot be read. -/
  | address (reason : String)
  | unreachable (reason : String)
  | refused (reason : String)
  /-- The server did not grant the lock that guards the schema. -/
  | lock
  /-- The server answered no row where one was expected. -/
  | noRow
deriving DecidableEq, Repr

/-- The wording of a failure. -/
def DbError.message : DbError → String
  | .row e => e.message
  | .address reason => "error with configuration: " ++ reason
  | .unreachable reason => "error communicating with database: " ++ reason
  | .refused reason => "error returned from database: " ++ reason
  | .lock => "failed to acquire migration lock"
  | .noRow => "no rows returned by a query that expected to return at least one row"

/-- What a server is asked. -/
inductive DbCall where
  | acquire
  | begin
  /-- Its end, with everything it did. -/
  | commit
  /-- Its end, with nothing it did. -/
  | rollback
  | execute (s : Statement)

/-- What a server answers: the number of the row that a statement returns, if it returns one. -/
abbrev DbAnswer := Except DbError (Option Int64)

/-- A computation that may ask a server. -/
inductive DbProgram (α : Type) where
  | done (a : α)
  /-- A call, and how to go on with its answer. -/
  | call (c : DbCall) (next : DbAnswer → DbProgram α)

namespace DbProgram

variable {α β : Type}

/-- Goes on with the result of a program. -/
def bind : DbProgram α → (α → DbProgram β) → DbProgram β
  | .done a, f => f a
  | .call c next, f => .call c fun answer => (next answer).bind f

instance : Monad DbProgram where
  pure := .done
  bind := bind

/-- Goes on with the result of a program that may fail. -/
def andThen (p : DbProgram (Except DbError α)) (f : α → DbProgram (Except DbError β)) :
    DbProgram (Except DbError β) :=
  p.bind fun
    | .ok a => f a
    | .error e => .done (.error e)

/-- A single call. -/
def ask (c : DbCall) : DbProgram DbAnswer := .call c .done

/-- Runs a program against a server of state `σ`. -/
def run {σ : Type} (serve : σ → DbCall → DbAnswer × σ) : DbProgram α → σ → α × σ
  | .done a, s => (a, s)
  | .call c next, s =>
    let (answer, s) := serve s c
    (next answer).run serve s

end DbProgram

/-! ### Rows -/

/-- Sends one statement over a connection of its own. -/
def sendStatement (s : Statement) : DbProgram DbAnswer :=
  (DbProgram.ask .acquire).andThen fun _ => .ask (.execute s)

/-- Sends a statement that was made of a row, if the row fits. -/
def sendInsert : Except RowError Statement → DbProgram DbAnswer
  | .error e => .done (.error (.row e))
  | .ok s => sendStatement s

/-- Forgets what a statement returns. -/
def discard (p : DbProgram DbAnswer) : DbProgram (Except DbError Unit) :=
  p.andThen fun _ => .done (.ok ())

/-- Inserts a registration, or replaces an older one of the same proposer. -/
def saveRegistration (t : Tables) (r : RegistrationRow) : DbProgram (Except DbError Unit) :=
  discard (sendInsert (r.insert t))

/-- Inserts a submission and answers the number of its row. -/
def saveSubmission (t : Tables) (r : SubmissionRow) : DbProgram (Except DbError Int64) :=
  (sendInsert (r.insert t)).andThen fun
    | some id => .done (.ok id)
    | none => .done (.error .noRow)

/-- Inserts the outcome of a simulation. -/
def saveSimulation (t : Tables) (r : SimulationRow) : DbProgram (Except DbError Unit) :=
  discard (sendStatement (r.insert t))

/-- Inserts a delivery. -/
def saveDelivery (t : Tables) (r : DeliveryRow) : DbProgram (Except DbError Unit) :=
  discard (sendInsert (r.insert t))

/-! ### Records -/

/-- What is written down in one go. -/
inductive AuditRecord where
  | registration (row : RegistrationRow)
  /-- A submission and, if it is known, the verdict on it. -/
  | submission (row : SubmissionRow) (verdict : Option Verdict)
  | delivery (row : DeliveryRow)

namespace AuditRecord

/-- The kind of a record in log lines. -/
def kind : AuditRecord → String
  | .registration _ => "validator_registration"
  | .submission _ _ => "builder_block_submission"
  | .delivery _ => "payload_delivered"

/-- **Saves a record.** A verdict is saved after its submission, under the number that the
submission's row was given. -/
def save (t : Tables) : AuditRecord → DbProgram (Except DbError Unit)
  | .registration row => saveRegistration t row
  | .submission row verdict =>
    (saveSubmission t row).andThen fun id =>
      match verdict with
      | none => .done (.ok ())
      | some v => saveSimulation t (.ofVerdict id v)
  | .delivery row => saveDelivery t row

end AuditRecord

/-! ### The schema -/

/-- The number of the lock that keeps two relays from making the tables at the same time. -/
def schemaLock : Int64 := 0x52454C4159444253

/-- The statement that waits for the lock. -/
def lockStatement : Statement := ⟨"SELECT pg_advisory_xact_lock($1)", [.bigint schemaLock]⟩

/-- Gives up a transaction. -/
def giveUp (e : DbError) : DbProgram (Except DbError Unit) :=
  (DbProgram.ask .rollback).bind fun _ => .done (.error e)

/-- Sends statements one after the other within a transaction. -/
def sendAll : List String → DbProgram (Except DbError Unit)
  | [] =>
    (DbProgram.ask .commit).bind fun
      | .ok _ => .done (.ok ())
      | .error e => giveUp e
  | sql :: rest =>
    (DbProgram.ask (.execute ⟨sql, []⟩)).bind fun
      | .ok _ => sendAll rest
      | .error e => giveUp e

/-- **Makes the tables** in one transaction, behind the lock. -/
def createTables (t : Tables) : DbProgram (Except DbError Unit) :=
  (DbProgram.ask .acquire).andThen fun _ =>
    (DbProgram.ask .begin).andThen fun _ =>
      (DbProgram.ask (.execute lockStatement)).bind fun
        | .error _ => giveUp .lock
        | .ok _ => sendAll t.schema

/-! ### Connecting -/

/-- The number of attempts to connect. -/
def connectAttempts : Nat := 10

/-- The pause after a failed attempt: it doubles from 400 ms up to 12.8 s. -/
def connectPause (attempt : Nat) : Span := .millis (200 * Nat.pow 2 (min attempt 6))

/-- What connecting comes to: the last failure if there is no connection, the log lines, and the
time spent in pauses. -/
structure ConnectReport where
  /-- Whether there is a connection, or the last failure. -/
  result : Except DbError Unit
  logs : List LogLine
  paused : Span

/-- The place of an attempt among all. -/
def attemptText (attempt : Nat) : String :=
  Text.Decimal.text attempt ++ "/" ++ Text.Decimal.text connectAttempts

/-- A log line of the database. -/
def databaseLine (severity : Severity) (message : String) : LogLine :=
  ⟨severity, partName "database", message⟩

/-- The log line of a failed attempt. -/
def retryLine (attempt : Nat) : LogLine :=
  databaseLine .warn ("DB connect/init attempt " ++ attemptText attempt ++
    " failed. Retrying in " ++ Text.Decimal.text (connectPause attempt).toMillis ++ " ms...")

/-- Tries to connect and to make the tables, until the attempts are used up. -/
def connectFrom (t : Tables) (attempt : Nat) (last : DbError) :
    (left : Nat) → DbProgram ConnectReport
  | 0 => .done ⟨.error last, [], ⟨0⟩⟩
  | left + 1 =>
    -- the report of the attempts that follow, behind what this one has to say
    let again (e : DbError) (lines : List LogLine) : DbProgram ConnectReport :=
      (connectFrom t (attempt + 1) e left).bind fun r => .done { r with
        logs := lines ++ retryLine attempt :: r.logs
        paused := connectPause attempt + r.paused }
    (DbProgram.ask .acquire).bind fun
      | .error e => again e []
      | .ok _ =>
        let connected :=
          databaseLine .info ("Connected to database (attempt " ++ attemptText attempt ++ ")")
        (createTables t).bind fun
          | .error e => again e [connected]
          | .ok () =>
            let ready := databaseLine .info ("Database schema ready (" ++ t.submission ++ ")")
            .done ⟨.ok (), [connected, ready], ⟨0⟩⟩

/-- **Connects** and makes the tables. -/
def connect (t : Tables) : DbProgram ConnectReport :=
  connectFrom t 1 (.unreachable "") connectAttempts

/-! ### A server for drills -/

/-- A server that gives every returning statement the next number, and refuses statements that
hold one of some texts; or one that cannot be reached. It keeps what it was sent. -/
structure DrillServer where
  /-- Why it cannot be reached, if it cannot. -/
  unreachable : Option String
  /-- Texts that it refuses in a statement. -/
  refused : List String
  /-- The number of the next row. -/
  nextId : Int64
  /-- What it was sent, the last first. -/
  sent : List DbCall

namespace DrillServer

/-- The answer to a call. -/
def serve (s : DrillServer) (c : DbCall) : DbAnswer × DrillServer :=
  match s.unreachable, c with
  | some reason, _ => (.error (.unreachable reason), s)
  | none, .acquire => (.ok none, s)
  | none, .execute st =>
    let s := { s with sent := c :: s.sent }
    if s.refused.any (Text.holds st.sql) then (.error (.refused "statement refused"), s)
    else if Text.holds st.sql "RETURNING id" then
      (.ok (some s.nextId), { s with nextId := s.nextId + 1 })
    else (.ok none, s)
  | none, _ => (.ok none, { s with sent := c :: s.sent })

end DrillServer

end BlockRelay
