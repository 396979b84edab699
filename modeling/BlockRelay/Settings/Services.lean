import BlockRelay.Beacon.Client
import BlockRelay.Settings.Basic

/-!
# Services from settings

The cache and the registry that settings describe, with the line that each of them logs when it
is set up. Only the memory store is part of this library.
-/

namespace BlockRelay

/-- Why a service cannot be set up. -/
inductive SetupError where
  /-- The kind of store is not part of the program. -/
  | redisNotBuiltIn
  /-- The beacon nodes cannot be asked. -/
  | beacon (e : BeaconError)
deriving DecidableEq, Repr

/-- The wording of a failed set-up. -/
def SetupError.message : SetupError → String
  | .redisNotBuiltIn => "Redis feature not enabled. Enable with 'redis' feature flag."
  | .beacon e => e.message

namespace Settings

/-- **The cache on the store of the settings,** if the program has that kind of store. -/
def openCache (s : Settings) : Except SetupError (PayloadCache × LogLine) :=
  match s.store.backend with
  | .redis => .error .redisNotBuiltIn
  | .memory =>
    let cache := s.payloadCache
    .ok (cache, ⟨.info, partName "payload_cache", "Payload cache on " ++ s.store.backend.name ++
      " store (namespace " ++ cache.ns ++ ", ttl " ++ cache.ttl.text ++ ")"⟩)

/-- The source of validators that settings describe; none for a registry without a source. -/
def openSource (naming : Url.Naming) (s : Settings) : Except SetupError (Option BeaconClient × LogLine) :=
  let line (message : String) : LogLine := ⟨.info, partName "validator_registry", message⟩
  match s.registry.mode with
  | .null => .ok (none, line "Validator registry disabled (mode = null)")
  | .beacon =>
    match BeaconClient.ofEndpoints naming s.beacon.endpoints with
    | .error e => .error (.beacon e)
    | .ok client => .ok (some client, line ("Validator registry backed by " ++ client.describe))

end Settings

end BlockRelay
