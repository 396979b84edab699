import BlockRelay.Audit.Database

/-!
# The queue of audit records

Audit records are written off the path of requests. Any number of handles put records into a
channel; a writer takes them out one by one, gathers them in a batch, and offers a batch to a
*sink* when it is full, when its timer ticks, and when the last handle is gone. A record that the
sink refuses is logged and forgotten.

The writer does one thing at a time: it receives a record (`receive?`), it notices that no handle
is left (`close?`), its timer ticks (`tick?`), or it goes on with the batch that it is offering
(`offer?`). Sends can come between any two of these, and the timer may tick before or after a
record that is waiting; `step?` receives first.
-/

namespace BlockRelay

/-- Something that can write records down, of a state that may change with each of them. It
answers how it failed, if it failed. -/
structure AuditSink (σ : Type) where
  write : AuditRecord → σ → Option String × σ

/-- What the writer is doing. -/
inductive WriterPhase where
  /-- It waits for a record or for its timer. -/
  | waiting
  /-- It offers its batch, which was `total` records, `written` of which were taken. Afterwards
  it goes on, or it ends if no handle is left. -/
  | offering (total written : Nat) (closing : Bool)
  /-- It has ended, or was ended. -/
  | ended
deriving DecidableEq, Repr

/-- A channel, the handles on it, and the writer behind it. -/
structure AuditQueue where
  /-- How many records make a full batch. -/
  batchSize : Nat
  /-- The time between ticks of the timer. -/
  interval : Span
  due : Span
  handles : Nat
  /-- The records that have been sent and not received. -/
  channel : List AuditRecord
  /-- The records that have been received and not offered. -/
  batch : List AuditRecord
  phase : WriterPhase

/-- What can be seen of a writer. -/
inductive WriterEvent where
  /-- A record is offered to the sink, which takes it or not. -/
  | offer (record : AuditRecord) (taken : Bool)
  | log (line : LogLine)

/-- Why a record is not sent. -/
inductive SendError where
  /-- There is no handle to send it with. -/
  | noHandle
  | ended
deriving DecidableEq, Repr

/-- The wording of a failed send. -/
def SendError.message : SendError → String
  | .noHandle => "no handle"
  | .ended => "Failed to queue audit record - writer task may have died"

namespace AuditQueue

/-- A log line of the writer. -/
def line (severity : Severity) (message : String) : WriterEvent :=
  .log ⟨severity, partName "postgres_async_writer", message⟩

/-- **A new queue** with one handle. A batch is at least one record; without any time between
ticks there is no writer. -/
def start (batchSize : Nat) (interval : Span) : AuditQueue × List WriterEvent :=
  let queue : AuditQueue := {
    batchSize := max batchSize 1
    interval
    due := ⟨0⟩
    handles := 1
    channel := []
    batch := []
    phase := .waiting }
  if interval.nanos = 0 then ({ queue with phase := .ended }, [])
  else (queue, [line .info ("Audit writer started (batch_size: " ++
    Text.Decimal.text queue.batchSize ++ ", flush_interval: " ++ interval.text ++ ")")])

/-! ### Handles -/

/-- **Sends a record.** -/
def send (q : AuditQueue) (r : AuditRecord) : Except SendError AuditQueue :=
  if q.handles = 0 then .error .noHandle
  else if q.phase = .ended then .error .ended
  else .ok { q with channel := q.channel ++ [r] }

/-- Makes one handle more from one of those that are there. -/
def clone (q : AuditQueue) : AuditQueue :=
  if q.handles = 0 then q else { q with handles := q.handles + 1 }

/-- Drops a handle. -/
def drop (q : AuditQueue) : AuditQueue := { q with handles := q.handles - 1 }

/-- Ends the writer where it is. -/
def abort (q : AuditQueue) : AuditQueue := { q with phase := .ended }

/-! ### The writer -/

/-- The writer begins to offer its batch. -/
def beginOffer (q : AuditQueue) (closing : Bool) : AuditQueue :=
  { q with phase := .offering q.batch.length 0 closing }

/-- **A record is received.** A full batch is offered. -/
def receive? (q : AuditQueue) : Option AuditQueue :=
  match q.phase, q.channel with
  | .waiting, r :: rest =>
    let q := { q with channel := rest, batch := q.batch ++ [r] }
    some (if q.batchSize ≤ q.batch.length then q.beginOffer false else q)
  | _, _ => none

/-- The writer notices that no handle and no record is left. -/
def close? (q : AuditQueue) : Option AuditQueue :=
  match q.phase, q.channel with
  | .waiting, [] => if q.handles = 0 then some (q.beginOffer true) else none
  | _, _ => none

/-- **The timer ticks.** A tick that was missed comes at once, and none is left out. -/
def tick? (now : Span) (q : AuditQueue) : Option AuditQueue :=
  match q.phase with
  | .waiting =>
    if q.due ≤ now ∧ 0 < q.interval.nanos then
      some ({ q with due := q.due + q.interval }.beginOffer false)
    else none
  | _ => none

/-- The line about a record that the sink refused. -/
def refusalLine (r : AuditRecord) (reason : String) : WriterEvent :=
  line .error ("Failed to write " ++ r.kind ++ " record: " ++ reason)

/-- The lines about a batch that has been offered. -/
def batchLines (total written : Nat) : List WriterEvent :=
  if total = 0 then []
  else [line .debug ("Flushed " ++ Text.Decimal.text written ++ "/" ++ Text.Decimal.text total ++
    " audit records")]

/-- **The next record of the batch is offered,** or the batch is finished. -/
def offer? {σ : Type} (sink : AuditSink σ) (q : AuditQueue) (s : σ) :
    Option (AuditQueue × σ × List WriterEvent) :=
  match q.phase with
  | .offering total written closing =>
    match q.batch with
    | r :: rest =>
      match sink.write r s with
      | (none, s) =>
        some ({ q with batch := rest, phase := .offering total (written + 1) closing }, s,
          [.offer r true])
      | (some reason, s) =>
        some ({ q with batch := rest, phase := .offering total written closing }, s,
          [.offer r false, refusalLine r reason])
    | [] =>
      if closing then
        some ({ q with phase := .ended }, s,
          batchLines total written ++ [line .info "Audit writer shutting down"])
      else some ({ q with phase := .waiting }, s, batchLines total written)
  | _ => none

/-- **The next thing the writer does** while the clock stands still. -/
def step? {σ : Type} (sink : AuditSink σ) (now : Span) (q : AuditQueue) (s : σ) :
    Option (AuditQueue × σ × List WriterEvent) :=
  match q.offer? sink s with
  | some r => some r
  | none =>
    match q.receive? with
    | some q => some (q, s, [])
    | none =>
      match q.close? with
      | some q => some (q, s, [])
      | none => (q.tick? now).map fun q => (q, s, [])

/-! ### Runs -/

/-- How much a phase leaves to do. -/
def WriterPhase.work : WriterPhase → Nat
  | .waiting => 2
  | .offering _ _ closing => if closing then 1 else 3
  | .ended => 0

/-- What is left to do at a time. -/
def work (now : Span) (q : AuditQueue) : Nat :=
  2 * (now.nanos + 1 - q.due.nanos) + 3 * q.channel.length + q.batch.length +
    WriterPhase.work q.phase

theorem work_receive? {now : Span} {q p : AuditQueue} (h : q.receive? = some p) :
    p.work now < q.work now := by
  unfold receive? at h
  split at h
  · next r rest hp hc =>
    cases h
    split <;> simp [work, beginOffer, WriterPhase.work, hp, hc] <;> omega
  · cases h

theorem work_close? {now : Span} {q p : AuditQueue} (h : q.close? = some p) :
    p.work now < q.work now := by
  unfold close? at h
  split at h
  · next hp hc =>
    split at h
    · cases h
      simp [work, beginOffer, WriterPhase.work, hp, hc]
    · cases h
  · cases h

theorem work_tick? {now : Span} {q p : AuditQueue} (h : q.tick? now = some p) :
    p.work now < q.work now := by
  unfold tick? at h
  split at h
  · next hp =>
    split at h
    · next hd =>
      cases h
      have := hd.1
      rw [Span.le_def] at this
      simp only [work, beginOffer, WriterPhase.work, hp, Span.nanos_add]
      simp only [Bool.false_eq_true, ↓reduceIte]
      omega
    · cases h
  · cases h

theorem work_offer? {σ : Type} {sink : AuditSink σ} {now : Span} {q p : AuditQueue} {s t : σ}
    {events : List WriterEvent} (h : q.offer? sink s = some (p, t, events)) :
    p.work now < q.work now := by
  unfold offer? at h
  split at h
  · next total written closing hp =>
    split at h
    · next r rest hb =>
      split at h <;> cases h <;> simp [work, WriterPhase.work, hp, hb]
    · next hb =>
      split at h
      · next hc => cases h; simp [work, WriterPhase.work, hp, hc]
      · next hc => cases h; simp [work, WriterPhase.work, hp, hc]
  · cases h

/-- Every step leaves less to do. -/
theorem work_step? {σ : Type} {sink : AuditSink σ} {now : Span} {q p : AuditQueue} {s t : σ}
    {events : List WriterEvent} (h : q.step? sink now s = some (p, t, events)) :
    p.work now < q.work now := by
  unfold step? at h
  split at h
  · next r hr =>
    cases h
    exact work_offer? hr
  · split at h
    · next q' hr => cases h; exact work_receive? hr
    · split at h
      · next q' hr => cases h; exact work_close? hr
      · obtain ⟨q', hr, e⟩ := Option.map_eq_some_iff.1 h
        cases e
        exact work_tick? hr

/-- **Lets the writer do all that it does at a time.** -/
def settle {σ : Type} (sink : AuditSink σ) (now : Span) (q : AuditQueue) (s : σ) :
    AuditQueue × σ × List WriterEvent :=
  match h : q.step? sink now s with
  | some (p, t, events) =>
    have := work_step? h
    let (p, t, later) := settle sink now p t
    (p, t, events ++ later)
  | none => (q, s, [])
termination_by q.work now

end AuditQueue

end BlockRelay
