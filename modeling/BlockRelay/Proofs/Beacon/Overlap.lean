import Mathlib.Data.List.Dedup
import BlockRelay.Proofs.Beacon.Sets

/-!
# Overlapping refreshes

A refresh waits for its source, and meanwhile other refreshes may begin, get their answers, and
install their sets, in any order; readers come at any time. Here a refresh is cut into the steps
between which others may come (`RefreshEvent`): it asks, the source answers, the new set is built
at some time, and one swap installs it. `SharedRegistry.step?` does one step, with
`Registry.install` for what it does to the registry, and `RefreshRun` is any sequence of steps
that are possible one after the other.

What readers must see is said in terms of the events alone. `visible` looks for the last swap and
for the list that the source gave to *this* refresh, and `Listing.reply` answers a query from such
a list without building a set (see `Sets.lean`). Main statements:

* `Tracks` is the invariant: the installed set is that of `visible`, a refresh under way holds the
  list that its source gave it, and a snapshot is the set that was visible when it was taken.
  `Tracks.step` has one case for each event.
* `RefreshRun.reply_eq`: in every run, each event is answered from the complete list of the refresh
  that swapped last; a failed refresh passes its failure on and leaves the registry as it was; the
  number in the last refresh is the count; a snapshot keeps its answers.
* `play_refreshEvents`: with nobody in between, the steps of a refresh are `Registry.refresh`.
-/

namespace BlockRelay

/-! ### Questions and answers -/

/-- What a reader asks a registry. -/
inductive RegistryQuery where
  | isRegistered (pubkey : String)
  | get (pubkey : String)
  | count
  | lastRefresh

/-- What the holder of a snapshot asks it. -/
inductive SetQuery where
  | contains (pubkey : String)
  | get (pubkey : String)
  | size
  | isEmpty

/-- What readers and the callers of a refresh are told. -/
inductive RegistryReply where
  | holds (b : Bool)
  | validator (v : Option KnownValidator)
  | number (n : Nat)
  | refreshed (info : Option (Nat × Nat))
  | snapshot (set : ValidatorSet)
  /-- The result of a refresh, for its caller. -/
  | returned (result : Except BeaconError Unit)
  /-- Nothing: the step is not one that ends a call. -/
  | nothing

/-- What a registry answers. -/
def Registry.reply (r : Registry) : RegistryQuery → RegistryReply
  | .isRegistered pubkey => .holds (r.isRegistered pubkey)
  | .get pubkey => .validator (r.get? pubkey)
  | .count => .number r.count
  | .lastRefresh => .refreshed r.lastRefresh

/-- What a snapshot answers. -/
def ValidatorSet.reply (s : ValidatorSet) : SetQuery → RegistryReply
  | .contains pubkey => .holds (s.contains pubkey)
  | .get pubkey => .validator (s.get? pubkey)
  | .size => .number s.size
  | .isEmpty => .holds s.isEmpty

/-- A complete list and the time of its refresh, or nothing before the first. -/
inductive Listing where
  | unset
  | listed (at_ : Nat) (list : List ListedValidator)

namespace Listing

/-- The validators; none before the first refresh. -/
def list : Listing → List ListedValidator
  | .unset => []
  | .listed _ list => list

/-- The set that is built from a listing. -/
def set : Listing → ValidatorSet
  | .unset => .initial
  | .listed at_ list => .ofList at_ list

/-- The number of different canonical keys. -/
def size (l : Listing) : Nat := (canonicalKeys l.list).dedup.length

/-- The number of validators and the time, after the first refresh. -/
def lastRefresh : Listing → Option (Nat × Nat)
  | .unset => none
  | .listed at_ list => some ((Listing.listed at_ list).size, at_)

/-- What a registry has to answer from a listing. -/
def reply (l : Listing) : RegistryQuery → RegistryReply
  | .isRegistered pubkey => .holds (decide (canonicalKey pubkey ∈ canonicalKeys l.list))
  | .get pubkey => .validator (lastListed? l.list (canonicalKey pubkey))
  | .count => .number l.size
  | .lastRefresh => .refreshed l.lastRefresh

/-- What a snapshot has to answer from its listing. -/
def setReply (l : Listing) : SetQuery → RegistryReply
  | .contains pubkey => .holds (decide (canonicalKey pubkey ∈ canonicalKeys l.list))
  | .get pubkey => .validator (lastListed? l.list (canonicalKey pubkey))
  | .size => .number l.size
  | .isEmpty => .holds l.list.isEmpty

theorem contains_set (l : Listing) (pubkey : String) :
    l.set.contains pubkey = decide (canonicalKey pubkey ∈ canonicalKeys l.list) := by
  cases l with
  | unset => exact Std.HashMap.contains_empty
  | listed at_ list => exact ValidatorSet.contains_ofList at_ list pubkey

theorem get?_set (l : Listing) (pubkey : String) :
    l.set.get? pubkey = lastListed? l.list (canonicalKey pubkey) := by
  cases l with
  | unset => exact Std.HashMap.getElem?_empty
  | listed at_ list => exact ValidatorSet.get?_ofList at_ list pubkey

theorem size_set (l : Listing) : l.set.size = l.size := by
  cases l with
  | unset => rfl
  | listed at_ list => exact ValidatorSet.size_ofList at_ list

theorem isEmpty_set (l : Listing) : l.set.isEmpty = l.list.isEmpty := by
  have sizes : (l.set.size == 0) = l.list.isEmpty := by
    rw [size_set, size]
    -- a list with a validator has a canonical key
    cases l.list with
    | nil => rfl
    | cons v list =>
      have inside : canonicalKey v.pubkey ∈ (canonicalKeys (v :: list)).dedup :=
        List.mem_dedup.2 List.mem_cons_self
      have positive := List.length_pos_of_mem inside
      rw [List.isEmpty_cons, beq_eq_false_iff_ne]
      omega
  rw [← sizes]
  exact Std.HashMap.isEmpty_eq_size_eq_zero

/-- A registry answers from the listing of its set. -/
theorem reply_of_current {r : Registry} {l : Listing} (h : r.current = l.set) (q : RegistryQuery) :
    r.reply q = l.reply q := by
  -- each question is answered from the set, of which the listing knows as much
  cases q with
  | isRegistered pubkey =>
    rw [Registry.reply, reply, Registry.isRegistered, h, contains_set]
  | get pubkey => rw [Registry.reply, reply, Registry.get?, h, get?_set]
  | count => rw [Registry.reply, reply, Registry.count, h, size_set]
  | lastRefresh =>
    rw [Registry.reply, reply, Registry.lastRefresh, h, size_set]
    cases l with
    | unset => rfl
    | listed at_ list => rfl

/-- So does a snapshot. -/
theorem reply_set (l : Listing) (q : SetQuery) : l.set.reply q = l.setReply q := by
  cases q with
  | contains pubkey => rw [ValidatorSet.reply, setReply, contains_set]
  | get pubkey => rw [ValidatorSet.reply, setReply, get?_set]
  | size => rw [ValidatorSet.reply, setReply, size_set]
  | isEmpty => rw [ValidatorSet.reply, setReply, isEmpty_set]

end Listing

/-! ### Steps -/

/-- A step of one of any number of refreshes, or of a reader. -/
inductive RefreshEvent where
  /-- A refresh begins and asks its source. -/
  | ask (id : Nat)
  /-- The source answers. A failure ends the refresh. -/
  | answer (id : Nat) (result : FetchResult)
  /-- The new set is built, at a time. -/
  | build (id : Nat) (now : Nat)
  /-- The new set is installed, which ends the refresh. -/
  | swap (id : Nat)
  | read (q : RegistryQuery)
  | snapshot
  /-- A snapshot is asked something, the first one being number zero. -/
  | readSnapshot (n : Nat) (q : SetQuery)

/-- How far a refresh is. -/
inductive RefreshPhase where
  | idle
  | asked
  | fetched (list : List ListedValidator)
  | built (now : Nat) (list : List ListedValidator)
  | ended

/-- A registry, the refreshes under way, and the snapshots that were taken, oldest first. -/
structure SharedRegistry where
  registry : Registry
  phase : Nat → RefreshPhase
  snapshots : List ValidatorSet

namespace SharedRegistry

/-- Before anything happens. -/
def initial : SharedRegistry := ⟨.new .beacon, fun _ => .idle, []⟩

/-- A refresh comes to a phase. -/
def setPhase (s : SharedRegistry) (id : Nat) (phase : RefreshPhase) : SharedRegistry :=
  { s with phase := fun i => if i = id then phase else s.phase i }

/-- A refresh installs what it has, and ends with the result of that. -/
def finish (s : SharedRegistry) (id now : Nat) (result : FetchResult) :
    SharedRegistry × RegistryReply :=
  let (told, registry) := s.registry.install now result
  ({ s.setPhase id .ended with registry }, .returned told)

/-- **One step,** if it is possible. -/
def step? (s : SharedRegistry) : RefreshEvent → Option (SharedRegistry × RegistryReply)
  | .ask id =>
    match s.phase id with
    | .idle => some (s.setPhase id .asked, .nothing)
    | _ => none
  | .answer id result =>
    match s.phase id, result with
    | .asked, .ok list => some (s.setPhase id (.fetched list), .nothing)
    -- nothing is built from a failure, so its time is not looked at
    | .asked, .error e => some (s.finish id 0 (.error e))
    | _, _ => none
  | .build id now =>
    match s.phase id with
    | .fetched list => some (s.setPhase id (.built now list), .nothing)
    | _ => none
  | .swap id =>
    match s.phase id with
    | .built now list => some (s.finish id now (.ok list))
    | _ => none
  | .read q => some (s, s.registry.reply q)
  | .snapshot =>
    some ({ s with snapshots := s.snapshots ++ [s.registry.current] }, .snapshot s.registry.current)
  | .readSnapshot n q => s.snapshots[n]?.map fun set => (s, set.reply q)

/-- Several steps, with the reply of the last. -/
def play (s : SharedRegistry) (last : RegistryReply) :
    List RefreshEvent → Option (SharedRegistry × RegistryReply)
  | [] => some (s, last)
  | e :: events => (s.step? e).bind fun (s, reply) => s.play reply events

@[simp] theorem setPhase_self (s : SharedRegistry) (id : Nat) (phase : RefreshPhase) :
    (s.setPhase id phase).phase id = phase := if_pos rfl

theorem setPhase_of_ne (s : SharedRegistry) {id other : Nat} (phase : RefreshPhase)
    (h : other ≠ id) : (s.setPhase id phase).phase other = s.phase other := if_neg h

@[simp] theorem setPhase_setPhase (s : SharedRegistry) (id : Nat) (p q : RefreshPhase) :
    (s.setPhase id p).setPhase id q = s.setPhase id q := by
  rw [setPhase, setPhase, setPhase, SharedRegistry.mk.injEq]
  refine ⟨rfl, funext fun i => ?_, rfl⟩
  dsimp only
  split
  · rfl
  · rfl

end SharedRegistry

/-- The steps of a refresh with nobody in between. -/
def refreshEvents (id now : Nat) : FetchResult → List RefreshEvent
  | .ok list => [.ask id, .answer id (.ok list), .build id now, .swap id]
  | .error e => [.ask id, .answer id (.error e)]

/-- **An undisturbed refresh** is `Registry.refresh`. -/
theorem play_refreshEvents {φ : Type} (source : ValidatorSource φ) (f : φ) (s : SharedRegistry)
    (id now : Nat) (idle : s.phase id = .idle) (beacon : s.registry.mode = .beacon) :
    ∃ s', s.play .nothing (refreshEvents id now (source.ask f).1) =
        some (s', .returned (s.registry.refresh source now f).1) ∧
      s'.registry = (s.registry.refresh source now f).2.1 := by
  rw [Registry.refresh, beacon]
  dsimp only
  -- a failed fetch ends at once, a good one builds its set first
  cases (source.ask f).1 with
  | error e =>
    refine ⟨(s.finish id 0 (.error e)).1, ?_, rfl⟩
    simp only [refreshEvents, SharedRegistry.play, SharedRegistry.step?, idle, Option.bind_some,
      SharedRegistry.setPhase_self, SharedRegistry.finish, SharedRegistry.setPhase_setPhase]
    rfl
  | ok list =>
    refine ⟨(s.finish id now (.ok list)).1, ?_, rfl⟩
    simp only [refreshEvents, SharedRegistry.play, SharedRegistry.step?, idle, Option.bind_some,
      SharedRegistry.setPhase_self, SharedRegistry.finish, SharedRegistry.setPhase_setPhase]
    rfl

/-- **The runs:** sequences of possible steps, with the last step first. -/
inductive RefreshRun : List RefreshEvent → SharedRegistry → Prop where
  | start : RefreshRun [] .initial
  | step {history : List RefreshEvent} {s s' : SharedRegistry} {e : RefreshEvent}
      {reply : RegistryReply} (run : RefreshRun history s) (next : s.step? e = some (s', reply)) :
    RefreshRun (e :: history) s'

/-! ### What must be visible -/

/-- The list that an event brings to a refresh. -/
def RefreshEvent.fetchedBy? (id : Nat) : RefreshEvent → Option (List ListedValidator)
  | .answer i (.ok list) => if i = id then some list else none
  | _ => none

/-- The time at which an event builds the set of a refresh. -/
def RefreshEvent.builtBy? (id : Nat) : RefreshEvent → Option Nat
  | .build i now => if i = id then some now else none
  | _ => none

/-- The list that the source gave to a refresh. -/
def fetched? (history : List RefreshEvent) (id : Nat) : Option (List ListedValidator) :=
  history.findSome? (RefreshEvent.fetchedBy? id)

/-- When the set of a refresh was built. -/
def builtAt? (history : List RefreshEvent) (id : Nat) : Option Nat :=
  history.findSome? (RefreshEvent.builtBy? id)

/-- The complete list of a refresh. -/
def completeListing (history : List RefreshEvent) (id : Nat) : Listing :=
  match builtAt? history id, fetched? history id with
  | some now, some list => .listed now list
  | _, _ => .unset

/-- **What readers must see:** the complete list of the refresh that swapped last. -/
def visible : List RefreshEvent → Listing
  | [] => .unset
  | e :: earlier =>
    match e with
    | .swap id => completeListing earlier id
    | _ => visible earlier

/-- What was visible to each snapshot when it was taken. -/
def visibleToSnapshots : List RefreshEvent → List Listing
  | [] => []
  | e :: earlier =>
    match e with
    | .snapshot => visibleToSnapshots earlier ++ [visible earlier]
    | _ => visibleToSnapshots earlier

/-- **What an event must be answered** after the events before it. -/
def expectedReply (earlier : List RefreshEvent) : RefreshEvent → RegistryReply
  | .read q => (visible earlier).reply q
  | .snapshot => .snapshot (visible earlier).set
  | .readSnapshot n q =>
    match (visibleToSnapshots earlier)[n]? with
    | some l => l.setReply q
    | none => .nothing
  | .answer _ (.error e) => .returned (.error e)
  | .swap _ => .returned (.ok ())
  | .answer _ (.ok _) => .nothing
  | .ask _ => .nothing
  | .build _ _ => .nothing

/-! ### The invariant -/

/-- What a refresh under way holds is what the events brought to it. -/
def Holds (history : List RefreshEvent) (id : Nat) : RefreshPhase → Prop
  | .fetched list => fetched? history id = some list
  | .built now list => builtAt? history id = some now ∧ fetched? history id = some list
  | .idle => True
  | .asked => True
  | .ended => True

/-- **The invariant of runs.** -/
structure Tracks (history : List RefreshEvent) (s : SharedRegistry) : Prop where
  current : s.registry.current = (visible history).set
  holds : ∀ id, Holds history id (s.phase id)
  snapshots : s.snapshots = (visibleToSnapshots history).map Listing.set
  unset : visible history = .unset → ∀ id, RefreshEvent.swap id ∉ history

variable {history : List RefreshEvent} {s s' : SharedRegistry} {e : RefreshEvent}
  {reply : RegistryReply}

theorem fetched?_cons (e : RefreshEvent) (history : List RefreshEvent) (id : Nat) :
    fetched? (e :: history) id = (e.fetchedBy? id).or (fetched? history id) := by
  rw [fetched?, List.findSome?_cons]
  cases e.fetchedBy? id with
  | none => rfl
  | some list => rfl

theorem builtAt?_cons (e : RefreshEvent) (history : List RefreshEvent) (id : Nat) :
    builtAt? (e :: history) id = (e.builtBy? id).or (builtAt? history id) := by
  rw [builtAt?, List.findSome?_cons]
  cases e.builtBy? id with
  | none => rfl
  | some now => rfl

/-- Whether an event is one of a refresh. -/
def RefreshEvent.isOf (id : Nat) : RefreshEvent → Prop
  | .ask i => i = id
  | .answer i _ => i = id
  | .build i _ => i = id
  | .swap i => i = id
  | .read _ => False
  | .snapshot => False
  | .readSnapshot _ _ => False

theorem RefreshEvent.fetchedBy?_of_not_isOf {id : Nat} (h : ¬ e.isOf id) :
    e.fetchedBy? id = none := by
  cases e with
  | answer i result =>
    cases result with
    | ok list => exact if_neg h
    | error err => rfl
  | _ => rfl

theorem RefreshEvent.builtBy?_of_not_isOf {id : Nat} (h : ¬ e.isOf id) :
    e.builtBy? id = none := by
  cases e with
  | build i now => exact if_neg h
  | _ => rfl

/-- An event of another refresh brings nothing to this one. -/
theorem Holds.cons {id : Nat} {phase : RefreshPhase} (h : Holds history id phase)
    (other : ¬ e.isOf id) : Holds (e :: history) id phase := by
  -- neither search stops at the new event
  have fetched : fetched? (e :: history) id = fetched? history id := by
    rw [fetched?_cons, RefreshEvent.fetchedBy?_of_not_isOf other, Option.none_or]
  have built : builtAt? (e :: history) id = builtAt? history id := by
    rw [builtAt?_cons, RefreshEvent.builtBy?_of_not_isOf other, Option.none_or]
  cases phase with
  | idle => trivial
  | asked => trivial
  | fetched list => exact fetched.trans h
  | built now list => exact ⟨built.trans h.1, fetched.trans h.2⟩
  | ended => trivial

namespace Tracks

/-- Before any event there is no refresh under way, and no list was ever swapped in. -/
theorem initial : Tracks [] .initial where
  current := rfl
  holds _ := trivial
  snapshots := rfl
  unset _ id h := by cases h

/-- An event of one refresh moves this refresh and no other. -/
theorem holds_setPhase (h : Tracks history s) {id : Nat} {phase : RefreshPhase}
    (others : ∀ other, other ≠ id → ¬ e.isOf other) (own : Holds (e :: history) id phase)
    (other : Nat) : Holds (e :: history) other ((s.setPhase id phase).phase other) := by
  -- the refresh that moved, or one that stayed where it was
  by_cases same : other = id
  · rw [same, SharedRegistry.setPhase_self]
    exact own
  · rw [SharedRegistry.setPhase_of_ne s phase same]
    exact (h.holds other).cons (others other same)

/-- A step inside a refresh changes nothing that readers see. -/
theorem move (h : Tracks history s) {id : Nat} {phase : RefreshPhase}
    (others : ∀ other, other ≠ id → ¬ e.isOf other) (own : Holds (e :: history) id phase)
    (hvisible : visible (e :: history) = visible history)
    (hsnapshots : visibleToSnapshots (e :: history) = visibleToSnapshots history)
    (noSwap : ∀ i, RefreshEvent.swap i ≠ e) :
    Tracks (e :: history) (s.setPhase id phase) where
  current := by rw [hvisible]; exact h.current
  holds := h.holds_setPhase others own
  snapshots := by rw [hsnapshots]; exact h.snapshots
  -- the event is no swap, so whatever was swapped in came before it
  unset none_ i hi := by
    rw [hvisible] at none_
    rcases List.mem_cons.1 hi with same | hi
    · exact noSwap i same
    · exact h.unset none_ i hi

/-- A question changes nothing. -/
theorem ask (h : Tracks history s) (others : ∀ id, ¬ e.isOf id)
    (hvisible : visible (e :: history) = visible history)
    (hsnapshots : visibleToSnapshots (e :: history) = visibleToSnapshots history) :
    Tracks (e :: history) s where
  current := by rw [hvisible]; exact h.current
  holds id := (h.holds id).cons (others id)
  snapshots := by rw [hsnapshots]; exact h.snapshots
  unset none_ i hi := by
    rw [hvisible] at none_
    -- a question is no swap
    rcases List.mem_cons.1 hi with same | hi
    · exact others i (same ▸ rfl)
    · exact h.unset none_ i hi

/-- **Every step keeps the invariant** and is answered as it must be. -/
theorem step (h : Tracks history s) (next : s.step? e = some (s', reply)) :
    Tracks (e :: history) s' ∧ reply = expectedReply history e := by
  cases e with
  | ask id =>
    rw [SharedRegistry.step?] at next
    split at next
    · cases next
      -- a refresh that has only asked holds nothing
      refine ⟨h.move (fun other hne => hne.symm) trivial rfl rfl ?_, rfl⟩
      intro i same
      cases same
    · cases next
  | answer id result =>
    unfold SharedRegistry.step? at next
    dsimp only at next
    split at next
    · next list _ =>
      cases next
      refine ⟨h.move (fun other hne => hne.symm) ?_ rfl rfl ?_, rfl⟩
      · -- the list has just arrived
        rw [Holds, fetched?_cons, RefreshEvent.fetchedBy?, if_pos rfl, Option.some_or]
      · intro i same
        cases same
    · next err _ =>
      cases next
      -- the registry comes back as it was, so only the phase has moved
      have quiet : Tracks (.answer id (.error err) :: history) (s.setPhase id .ended) :=
        h.move (fun other hne => hne.symm) trivial rfl rfl fun i same => by cases same
      exact ⟨⟨quiet.current, quiet.holds, quiet.snapshots, quiet.unset⟩, rfl⟩
    · cases next
  | build id now =>
    rw [SharedRegistry.step?] at next
    split at next
    · next list phase =>
      cases next
      refine ⟨h.move (fun other hne => hne.symm) ?_ rfl rfl ?_, rfl⟩
      · -- the list is still the one that came before the set was built
        have fetched := h.holds id
        rw [phase] at fetched
        refine ⟨?_, ?_⟩
        · rw [builtAt?_cons, RefreshEvent.builtBy?, if_pos rfl, Option.some_or]
        · exact (fetched?_cons _ history id).trans fetched
      · intro i same
        cases same
    · cases next
  | swap id =>
    rw [SharedRegistry.step?] at next
    split at next
    · next now list phase =>
      cases next
      have held := h.holds id
      rw [phase] at held
      -- what is installed is what the events say of this refresh
      have complete : visible (.swap id :: history) = .listed now list := by
        rw [visible, completeListing, held.1, held.2]
      refine ⟨⟨?_, ?_, h.snapshots, ?_⟩, rfl⟩
      · rw [complete]
        rfl
      · exact h.holds_setPhase (fun other hne => hne.symm) trivial
      · intro unset
        rw [complete] at unset
        cases unset
    · cases next
  | read q =>
    cases next
    exact ⟨h.ask (fun _ no => no) rfl rfl, Listing.reply_of_current h.current q⟩
  | snapshot =>
    cases next
    -- the registry hands out the very set that is visible
    refine ⟨⟨h.current, fun id => (h.holds id).cons (e := .snapshot) (fun no => no), ?_, ?_⟩, ?_⟩
    · rw [visibleToSnapshots, List.map_append, ← h.snapshots, List.map_singleton, ← h.current]
    · intro none_ i hi
      rcases List.mem_cons.1 hi with same | hi
      · cases same
      · exact h.unset none_ i hi
    · rw [expectedReply, h.current]
  | readSnapshot n q =>
    rw [SharedRegistry.step?] at next
    obtain ⟨set, hset, told⟩ := Option.map_eq_some_iff.1 next
    cases told
    refine ⟨h.ask (fun _ no => no) rfl rfl, ?_⟩
    -- the snapshot is the set of the listing that was visible to it
    rw [h.snapshots, List.getElem?_map] at hset
    obtain ⟨l, hl, rfl⟩ := Option.map_eq_some_iff.1 hset
    rw [expectedReply, hl, Listing.reply_set]

end Tracks

namespace RefreshRun

/-- The invariant holds in every run. -/
theorem tracks (run : RefreshRun history s) : Tracks history s := by
  induction run with
  | start => exact .initial
  | step _ next ih => exact (ih.step next).1

/-- **Every run answers from the last complete refresh.** After any run, whatever can happen next
is answered as the events say: from the complete list of the refresh that swapped last, or from
nothing before the first swap; a failure is passed on and leaves the registry and the snapshots as
they were; and the number in the last refresh is the count. -/
theorem reply_eq (run : RefreshRun history s) (next : s.step? e = some (s', reply)) :
    reply = expectedReply history e ∧
      (∀ id err, e = .answer id (.error err) →
        reply = .returned (.error err) ∧ s'.registry = s.registry ∧
          s'.snapshots = s.snapshots ∧ visible (e :: history) = visible history) ∧
      (∀ n at_, s.registry.lastRefresh = some (n, at_) → n = s.registry.count) ∧
      (visible history = .unset ↔ ∀ id, RefreshEvent.swap id ∉ history) := by
  obtain ⟨-, answered⟩ := run.tracks.step next
  refine ⟨answered, ?_, ?_, run.tracks.unset, ?_⟩
  · -- a failure can only be the answer of a source
    rintro id err rfl
    refine ⟨answered, ?_⟩
    unfold SharedRegistry.step? at next
    dsimp only at next
    split at next
    · next he => cases he
    · next err' _ he =>
      cases he
      cases next
      exact ⟨rfl, rfl, rfl⟩
    · cases next
  · intro n at_ h
    -- the number and the count are read from one set
    rw [Registry.lastRefresh] at h
    obtain ⟨_, _, same⟩ := Option.map_eq_some_iff.1 h
    exact (Prod.mk.inj same).1.symm
  · intro noSwap
    -- what is visible changes with swaps only
    clear run next answered
    induction history with
    | nil => rfl
    | cons e' earlier ih =>
      have earlier_ : visible earlier = .unset :=
        ih fun id hid => noSwap id (List.mem_cons_of_mem e' hid)
      cases e' with
      | swap id => exact absurd List.mem_cons_self (noSwap id)
      | _ => exact earlier_

/-- Three refreshes that overlap, the last event first: the one that began last fails, and the one
that was answered first swaps last. -/
def overlapping : List RefreshEvent :=
  [.answer 2 (.error .noEndpoints), .swap 1, .snapshot, .swap 0, .build 1 11, .build 0 10,
    .answer 0 (.ok [⟨some 5, none, "0xB"⟩]), .answer 1 (.ok [⟨some 7, none, "0xA"⟩]), .ask 2,
    .ask 1, .ask 0]

/-- A snapshot between two swaps still answers from the first of them. -/
theorem reply_overlapping :
    ∃ s s' reply, RefreshRun overlapping s ∧
      s.step? (.readSnapshot 0 (.contains "0Xb")) = some (s', reply) ∧
      reply = .holds true ∧ visible overlapping = .listed 11 [⟨some 7, none, "0xA"⟩] := by
  -- three refreshes begin, and the second is answered first
  have began := RefreshRun.start.step (e := .ask 0) rfl |>.step (e := .ask 1) rfl
    |>.step (e := .ask 2) rfl
  have answered := began.step (e := .answer 1 (.ok [⟨some 7, none, "0xA"⟩])) rfl
    |>.step (e := .answer 0 (.ok [⟨some 5, none, "0xB"⟩])) rfl
  -- the first is swapped in, a snapshot is taken, and the second is swapped in
  have installed := answered.step (e := .build 0 10) rfl |>.step (e := .build 1 11) rfl
    |>.step (e := .swap 0) rfl |>.step (e := .snapshot) rfl |>.step (e := .swap 1) rfl
  have run := installed.step (e := .answer 2 (.error .noEndpoints)) rfl
  refine ⟨_, _, _, run, rfl, ?_, rfl⟩
  exact (run.reply_eq (e := .readSnapshot 0 (.contains "0Xb")) rfl).1.trans rfl

end RefreshRun

end BlockRelay
