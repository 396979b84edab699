import BlockRelay.Settings.Environment
import BlockRelay.Settings.Tree

/-!
# Settings from a file

`Settings.load` finds a configuration file, reads it by the format that its name tells, applies
the environment and checks the result. A name without a known extension stands for the file with
such an extension appended.
-/

namespace BlockRelay

open ConfigValue (asText asBool asUInt64 asUInt32 asList asName fieldOr)

/-! ### Records -/

/-- Reads the section of the beacon nodes. -/
def BeaconSettings.ofConfig (v : ConfigValue) : Except ConfigError BeaconSettings := do
  let absent : BeaconSettings := {}
  match ← v.fields "Beacon" ["endpoints", "timeout_ms"] with
  | [endpoints, timeout] =>
    return {
      endpoints := ← fieldOr absent.endpoints (asList asText) endpoints
      timeoutMs := ← fieldOr absent.timeoutMs asUInt64 timeout }
  | _ => return absent

/-- Reads the section of the store. -/
def StoreSettings.ofConfig (v : ConfigValue) : Except ConfigError StoreSettings := do
  let absent : StoreSettings := {}
  match ← v.fields "Store" ["backend", "redis_url", "namespace", "payload_ttl_seconds"] with
  | [backend, redisUrl, ns, ttl] =>
    return {
      backend := ← fieldOr absent.backend (asName "StoreBackend" StoreBackend.ofName?) backend
      redisUrl := ← fieldOr absent.redisUrl asText redisUrl
      ns := ← fieldOr absent.ns asText ns
      payloadTtlSeconds := ← fieldOr absent.payloadTtlSeconds asUInt64 ttl }
  | _ => return absent

/-- Reads the section of the registry. -/
def RegistrySettings.ofConfig (v : ConfigValue) : Except ConfigError RegistrySettings := do
  let absent : RegistrySettings := {}
  match ← v.fields "Registry" ["mode", "refresh_interval_seconds"] with
  | [mode, interval] =>
    return {
      mode := ← fieldOr absent.mode (asName "RegistryMode" RegistryMode.ofName?) mode
      refreshIntervalSeconds := ← fieldOr absent.refreshIntervalSeconds asUInt64 interval }
  | _ => return absent

/-- Reads the section of the database, whose address must be there. -/
def DatabaseSettings.ofConfig (v : ConfigValue) : Except ConfigError DatabaseSettings := do
  match ← v.fields "Database" ["url", "table_prefix", "max_connections"] with
  | [some url, tablePrefix, maxConnections] =>
    let absent : DatabaseSettings := { url := ← url.asText }
    return { absent with
      tablePrefix := ← fieldOr absent.tablePrefix asText tablePrefix
      maxConnections := ← fieldOr absent.maxConnections asUInt32 maxConnections }
  | _ =>
    match v with
    | .list _ => throw (.tooShort 0 "struct Database with 3 elements")
    | _ => throw (.missingField "url")

/-- Reads the section of measurements. -/
def MetricsSettings.ofConfig (v : ConfigValue) : Except ConfigError MetricsSettings := do
  let absent : MetricsSettings := {}
  match ← v.fields "MetricsSettings" ["enabled", "listen_addr"] with
  | [enabled, listenAddress] =>
    return {
      enabled := ← fieldOr absent.enabled asBool enabled
      listenAddress := ← fieldOr absent.listenAddress asText listenAddress }
  | _ => return absent

/-- Reads the section of logging. -/
def LogSettings.ofConfig (v : ConfigValue) : Except ConfigError LogSettings := do
  let absent : LogSettings := {}
  match ← v.fields "LogSettings" ["level"] with
  | [level] => return { level := ← fieldOr absent.level asText level }
  | _ => return absent

namespace Settings

/-- Reads a section that may be null. -/
def optionalSection {α : Type} (read : ConfigValue → Except ConfigError α) :
    ConfigValue → Except ConfigError (Option α)
  | .null => .ok none
  | v => (read v).map some

/-- Reads settings. -/
def ofConfig (v : ConfigValue) : Except ConfigError Settings := do
  let absent : Settings := {}
  match ← v.fields "Settings"
      ["network", "beacon", "store", "registry", "database", "metrics", "log"] with
  | [network, beacon, store, registry, database, metrics, log] =>
    return {
      network := ← fieldOr absent.network asText network
      beacon := ← fieldOr absent.beacon BeaconSettings.ofConfig beacon
      store := ← fieldOr absent.store StoreSettings.ofConfig store
      registry := ← fieldOr absent.registry RegistrySettings.ofConfig registry
      database := ← fieldOr none (optionalSection DatabaseSettings.ofConfig) database
      metrics := ← fieldOr absent.metrics MetricsSettings.ofConfig metrics
      log := ← fieldOr absent.log LogSettings.ofConfig log }
  | _ => return absent

end Settings

/-! ### Files -/

/-- The texts of files by their names. -/
abbrev Files := String → Option String

/-- The formats of configuration files. -/
inductive ConfigFormat where
  | toml
  | json
deriving DecidableEq, Repr

namespace ConfigFormat

/-- The extension of a file's name: what follows its last point, unless nothing precedes it. -/
def extension? (path : String) : Option (List Char) :=
  let name := ((Text.pieces (· = '/') path.toList).getLast?).getD []
  match (Text.pieces (· = '.') name).reverse with
  | ext :: stem :: rest => if stem.isEmpty ∧ rest.isEmpty then none else some ext
  | _ => none

/-- The format that the name of a file tells. -/
def ofPath? (path : String) : Option ConfigFormat :=
  match extension? path with
  | some ext =>
    if ext = "toml".toList then some .toml
    else if ext = "json".toList then some .json
    else none
  | none => none

/-- The tree of a text. What is no table at its top counts as an empty one. -/
def read (format : ConfigFormat) (text : String) : Except ConfigError ConfigValue :=
  match format with
  | .toml =>
    match Toml.read? text with
    | some entries => .ok (ConfigValue.unfold (ConfigValue.ofTomlEntries entries))
    | none => .error .malformed
  | .json =>
    match (Json.read? text).bind (Json.free? 0) with
    | some j => .ok (ConfigValue.unfold (ConfigValue.ofJson j).entries)
    | none => .error .malformed

end ConfigFormat

/-- The text and the format of the file that a name stands for. -/
def findConfig (files : Files) (path : String) : Except ConfigError (ConfigFormat × String) :=
  match files path with
  | some text =>
    match ConfigFormat.ofPath? path with
    | some format => .ok (format, text)
    | none => .error .notFound
  | none =>
    match files (path ++ ".toml"), files (path ++ ".json") with
    | some text, _ => .ok (.toml, text)
    | none, some text => .ok (.json, text)
    | none, none => .error .notFound

/-- Why settings cannot be loaded. -/
inductive LoadError where
  | config (e : ConfigError)
  /-- A relay cannot run with the settings. -/
  | fault (f : SettingsFault)
deriving DecidableEq, Repr

/-- The wording of an error, if it has one of its own. -/
def LoadError.message? : LoadError → Option String
  | .config e => e.message?
  | .fault f => some f.message

namespace Settings

/-- The file that settings come from if no other is named. -/
def defaultPath : String := "Config.toml"

/-- **Loads settings.** -/
def load (files : Files) (env : Environment) (path : String) : Except LoadError Settings :=
  match findConfig files path with
  | .error e => .error (.config e)
  | .ok (format, text) =>
    match (format.read text).bind ofConfig with
    | .error e => .error (.config e)
    | .ok s =>
      let s := s.override env
      match s.check with
      | .error f => .error (.fault f)
      | .ok () => .ok s

end Settings

end BlockRelay
