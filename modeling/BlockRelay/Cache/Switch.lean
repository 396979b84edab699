import BlockRelay.Cache.Memory

/-!
# A store behind a switch

For drills: the store in memory behind a switch that makes calls fail, wait or hang. With the
switch at `slow` the wait comes before the store is touched.
-/

namespace BlockRelay

/-- The positions of the switch. -/
inductive Switch where
  /-- Calls reach the store at once. -/
  | through
  | down (e : StoreError)
  | hang
  /-- Calls wait, then reach the store. -/
  | slow (wait : Span)
deriving DecidableEq, Repr

/-- The store in memory behind a switch. -/
structure SwitchedStore where
  switch : Switch
  memory : MemoryStore

namespace SwitchedStore

/-- How long a call waits. -/
def delay (s : SwitchedStore) (_ : StoreCall) : Option Span :=
  match s.switch with
  | .through | .down _ => some ⟨0⟩
  | .hang => none
  | .slow wait => some wait

/-- What a call does. -/
def act (s : SwitchedStore) (now : Span) (c : StoreCall) :
    Option (StoreAnswer × SwitchedStore) :=
  match s.switch with
  | .down e => some (.error e, s)
  | _ => (s.memory.act now c).map fun (answer, memory) => (answer, { s with memory })

/-- The switched store as a service. -/
def service : StoreService SwitchedStore where
  delay := delay
  act := act

end SwitchedStore

end BlockRelay
