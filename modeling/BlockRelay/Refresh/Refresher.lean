import BlockRelay.Beacon.Registry
import BlockRelay.Log.Line
import BlockRelay.Time.Span

/-!
# The refresher

The refresher asks for the validators at once and then once in every period, until it is told to
stop or nobody is left to tell it. A failed refresh is counted and logged, and the registry goes
on serving its previous set.

The refresher is a machine on a clock. `Refresher.step?` is the next thing it does at a given
time, if it does anything before the clock moves: a fetch that has come back is finished, a
refresh that is due begins, and otherwise a message is received. `Refresher.runUntil` lets the
clock stop at every timer on its way. While a fetch is under way nothing else happens, so that
messages wait.

A refresh that begins late by more than five milliseconds moves the following ones: the next is
one period after it.
-/

namespace BlockRelay

/-- A source of validators that takes its time. -/
structure TimedSource (φ : Type) where
  /-- One answer, how long it takes, and the source afterwards. -/
  ask : φ → (FetchResult × Span) × φ

/-- The channel on which the refresher is told to stop. It holds one value; a newer one takes the
place of one that has not been received. -/
structure StopChannel where
  value : Bool := false
  /-- Whether the value has yet to be received. -/
  unseen : Bool := false
  isOpen : Bool := true
deriving DecidableEq, Repr

namespace StopChannel

/-- Sends a value. -/
def send (c : StopChannel) (value : Bool) : StopChannel := { c with value, unseen := true }

/-- Drops the sender. -/
def close (c : StopChannel) : StopChannel := { c with isOpen := false }

end StopChannel

/-- A refresher. -/
structure Refresher (φ : Type) where
  every : Span
  /-- There is some time between refreshes. -/
  every_pos : 0 < every.nanos
  registry : Registry
  source : φ
  /-- When the next refresh is due. -/
  due : Span
  /-- The fetch under way: when it comes back, and with what. -/
  pending : Option (Span × FetchResult)
  /-- The number of failures since the last success, modulo `2 ^ 32`. -/
  failures : UInt32
  /-- The channel on which it is told to stop. -/
  channel : StopChannel
  stopped : Bool

/-- What can be seen of a refresher. -/
inductive RefresherEvent where
  | fetch (at_ : Span)
  | log (line : LogLine)
deriving DecidableEq, Repr

namespace Refresher

variable {φ : Type}

/-- A log line of the refresher. -/
def line (severity : Severity) (message : String) : RefresherEvent :=
  .log ⟨severity, partName "refresher", message⟩

/-- The line that is logged at the start. -/
def startLine (every : Span) : RefresherEvent :=
  line .info ("Registry refresher started (every " ++ every.text ++ ")")

/-- A refresher at the start of the clock, if there is some time between refreshes. -/
def start? (every : Span) (registry : Registry) (source : φ) : Option (Refresher φ) :=
  if h : 0 < every.nanos then
    some {
      every, every_pos := h, registry, source
      due := ⟨0⟩
      pending := none
      failures := 0
      channel := {}
      stopped := false }
  else none

/-! ### Steps -/

/-- How late a refresh may begin without moving those that follow. -/
def tolerance : Span := .millis 5

/-- When the refresh after one that begins now is due. -/
def nextDue (r : Refresher φ) (now : Span) : Span :=
  if r.due + tolerance < now then now + r.every else r.due + r.every

/-- The lines about a refresh that succeeded. -/
def successLines (failures : UInt32) (count : Nat) : List RefresherEvent :=
  (if 0 < failures then
    [line .info ("Registry refresh recovered after " ++ Text.Decimal.text failures.toNat ++
      " failures")]
  else []) ++
  [line .debug ("Registry holds " ++ Text.Decimal.text count ++ " validators")]

/-- The line about a refresh that failed. -/
def failureLine (failures : UInt32) (e : BeaconError) : RefresherEvent :=
  line .warn ("Registry refresh failed, serving previous set: " ++ e.message ++
    " kind=" ++ e.kind.name ++
    " transient=" ++ (if e.kind.isTransient then "true" else "false") ++
    " consecutive_failures=" ++ Text.Decimal.text failures.toNat)

/-- The end of a refresh. -/
def finish (r : Refresher φ) (now : Span) (answer : FetchResult) :
    Refresher φ × List RefresherEvent :=
  let (result, registry) := r.registry.install now.toSeconds answer
  match result with
  | .ok () =>
    ({ r with registry, pending := none, failures := 0 }, successLines r.failures registry.count)
  | .error e =>
    ({ r with registry, pending := none, failures := r.failures + 1 },
      [failureLine (r.failures + 1) e])

/-- The beginning of a refresh, given when the next one is due. A registry without a source is up
to date at once. -/
def beginDue (source : TimedSource φ) (r : Refresher φ) (now due : Span) :
    Refresher φ × List RefresherEvent :=
  match r.registry.mode with
  | .null => ({ r with due, failures := 0 }, successLines r.failures r.registry.count)
  | .beacon =>
    let ((answer, delay), source) := source.ask r.source
    ({ r with due, source, pending := some (now + delay, answer) }, [.fetch now])

/-- The beginning of a refresh. -/
def begin (source : TimedSource φ) (r : Refresher φ) (now : Span) :
    Refresher φ × List RefresherEvent :=
  r.beginDue source now (r.nextDue now)

/-- The message that is waiting: whether to stop. A channel without a sender says so. -/
def StopChannel.message? (c : StopChannel) : Option Bool :=
  if c.unseen then some c.value else if c.isOpen then none else some true

/-- A message is received. -/
def receive (r : Refresher φ) (stop : Bool) : Refresher φ × List RefresherEvent :=
  let r := { r with channel := { r.channel with unseen := false } }
  if stop then ({ r with stopped := true }, [line .info "Registry refresher stopping"])
  else (r, [])

/-- **The next thing the refresher does** while the clock stands still. -/
def step? (source : TimedSource φ) (now : Span) (r : Refresher φ) :
    Option (Refresher φ × List RefresherEvent) :=
  if r.stopped then none
  else match r.pending with
    | some (back, answer) => if back ≤ now then some (r.finish now answer) else none
    | none =>
      -- a refresh that is due comes before a message
      if r.due ≤ now then some (r.begin source now)
      else (StopChannel.message? r.channel).map r.receive

/-- When the refresher does something by itself. -/
def timer? (r : Refresher φ) : Option Span :=
  if r.stopped then none
  else match r.pending with
    | some (back, _) => some back
    | none => some r.due

/-! ### Runs -/

/-- What is left to do up to a time. -/
def work (target : Span) (r : Refresher φ) : Nat :=
  2 * (target.nanos + 1 - r.due.nanos) + (if r.pending.isSome then 1 else 0) +
    (if r.channel.unseen then 1 else 0) + (if r.stopped then 0 else 1)

theorem due_lt_nextDue {r : Refresher φ} {now : Span} (h : r.due ≤ now) :
    r.due < r.nextDue now := by
  have hp := r.every_pos
  rw [Span.le_def] at h
  unfold nextDue
  generalize tolerance = a
  by_cases hl : r.due + a < now
  · rw [if_pos hl, Span.lt_def, Span.nanos_add]
    omega
  · rw [if_neg hl, Span.lt_def, Span.nanos_add]
    omega

theorem work_finish (r : Refresher φ) (now target : Span) (answer : FetchResult)
    (h : r.pending.isSome) : (r.finish now answer).1.work target < r.work target := by
  unfold finish
  split
  split <;> simp [work, h]

theorem work_beginDue (source : TimedSource φ) (r : Refresher φ) {now due target : Span}
    (hd : r.due ≤ now) (hn : now ≤ target) (h : r.pending = none) (hlt : r.due < due) :
    (r.beginDue source now due).1.work target < r.work target := by
  rw [Span.lt_def] at hlt
  rw [Span.le_def] at hd hn
  unfold beginDue
  split
  · simp only [work, h]
    omega
  · simp only [work, h, Option.isSome_some, Option.isSome_none, ↓reduceIte]
    split <;> split <;> simp only [Bool.false_eq_true, ↓reduceIte] <;> omega

theorem work_begin (source : TimedSource φ) (r : Refresher φ) {now target : Span}
    (hd : r.due ≤ now) (hn : now ≤ target) (h : r.pending = none) :
    (r.begin source now).1.work target < r.work target :=
  work_beginDue source r hd hn h (due_lt_nextDue hd)

theorem work_receive (r : Refresher φ) (target : Span) {stop : Bool} (hs : r.stopped = false)
    (h : StopChannel.message? r.channel = some stop) :
    (r.receive stop).1.work target < r.work target := by
  unfold StopChannel.message? at h
  unfold receive
  cases hu : r.channel.unseen <;> cases stop <;> simp_all [work, Nat.add_assoc]

/-- Every step leaves less to do. -/
theorem work_step? {source : TimedSource φ} {now target : Span} {r s : Refresher φ}
    {events : List RefresherEvent} (hn : now ≤ target)
    (h : r.step? source now = some (s, events)) : s.work target < r.work target := by
  unfold step? at h
  split at h
  · cases h
  · next hs =>
    split at h
    · next back answer hp =>
      split at h
      · rw [show s = _ from (congrArg Prod.fst (Option.some.inj h)).symm]
        exact work_finish r now target answer (by simp [hp])
      · cases h
    · next hp =>
      split at h
      · next hd =>
        rw [show s = _ from (congrArg Prod.fst (Option.some.inj h)).symm]
        exact work_begin source r hd hn hp
      · obtain ⟨stop, hm, e⟩ := Option.map_eq_some_iff.1 h
        rw [show s = _ from (congrArg Prod.fst e).symm]
        exact work_receive r target (by simpa using hs) hm

/-- **Lets the refresher run up to a time,** with the clock stopping at its timers. -/
def runUntil (source : TimedSource φ) (target now : Span) (r : Refresher φ) :
    Refresher φ × List RefresherEvent :=
  if hn : now ≤ target then
    match h : r.step? source now with
    | some (s, events) =>
      have := work_step? hn h
      let (s, later) := runUntil source target now s
      (s, events ++ later)
    | none =>
      match r.timer? with
      | some t =>
        if now < t ∧ t ≤ target then runUntil source target t r
        else if now < target then runUntil source target target r
        else (r, [])
      | none => (r, [])
  else (r, [])
termination_by (r.work target, target.nanos - now.nanos)
decreasing_by
  -- a step leaves less to do, and without a step the clock moves on
  all_goals simp_wf
  · exact Prod.Lex.left _ _ this
  · apply Prod.Lex.right
    simp only [Span.le_def, Span.lt_def] at *
    omega
  · apply Prod.Lex.right
    simp only [Span.le_def, Span.lt_def] at *
    omega

/-- Lets the refresher do all that it does at a time. -/
def settle (source : TimedSource φ) (now : Span) (r : Refresher φ) :
    Refresher φ × List RefresherEvent :=
  r.runUntil source now now

/-- Sends a value to the refresher. -/
def signal (r : Refresher φ) (value : Bool) : Refresher φ :=
  { r with channel := r.channel.send value }

/-- Drops the sender of the refresher's channel. -/
def abandon (r : Refresher φ) : Refresher φ := { r with channel := r.channel.close }

end Refresher

end BlockRelay
