import BlockRelay.Beacon.Registry
import BlockRelay.Cache.Payloads

/-!
# One housekeeping pass

The store must answer a read, then the registry is refreshed. A pass that fails says which part
failed and leaves the registry as it was; if the store fails, the source is not asked.
-/

namespace BlockRelay

/-- What a pass works on. -/
structure PassState (σ φ : Type) where
  world : StoreWorld σ
  registry : Registry
  source : φ

/-- How a pass ends. -/
inductive PassEnd (σ φ : Type) where
  /-- With the number of validators now known, or a failure. -/
  | finished (result : Except Failure Nat) (s : PassState σ φ)
  /-- Never: the store does not answer. -/
  | stuck
  /-- The process ends in the middle. -/
  | crashed

/-- **One pass.** -/
def runPass {σ φ : Type} (cache : PayloadCache) (service : StoreService σ)
    (source : ValidatorSource φ) (now : Nat) (s : PassState σ φ) : PassEnd σ φ :=
  match cache.checkStore.run service s.world with
  | .stuck => .stuck
  | .crashed => .crashed
  | .finished (.error e) world => .finished (.error (.cache e)) { s with world }
  | .finished (.ok ()) world =>
    match s.registry.refresh source now s.source with
    | (.error e, registry, source) => .finished (.error (.beacon e)) { world, registry, source }
    | (.ok (), registry, source) => .finished (.ok registry.count) { world, registry, source }

end BlockRelay
