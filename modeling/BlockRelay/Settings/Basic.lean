import BlockRelay.Audit.Statement
import BlockRelay.Beacon.Registry
import BlockRelay.Cache.Payloads

/-!
# Settings

What an operator decides: which network the relay serves, which beacon nodes it asks, where
payloads and audit records go. Every section can be left out, and every field but the address of
the database has a default.

`Settings.check` says whether a relay can run with settings. It looks at four things in a fixed
order and names the first that is wrong.
-/

namespace BlockRelay

/-- The kinds of stores for payloads. -/
inductive StoreBackend where
  /-- In the memory of the process. -/
  | memory
  | redis
deriving DecidableEq, Repr

namespace StoreBackend

/-- The name of a kind. -/
def name : StoreBackend → String
  | .memory => "memory"
  | .redis => "redis"

/-- The kind of a name. -/
def ofName? (s : String) : Option StoreBackend :=
  if s = "memory" then some .memory
  else if s = "redis" then some .redis
  else none

@[simp] theorem ofName?_name (b : StoreBackend) : ofName? b.name = some b := by cases b <;> rfl

end StoreBackend

/-- The mode of a name. -/
def RegistryMode.ofName? (s : String) : Option RegistryMode :=
  if s = "beacon" then some .beacon
  else if s = "null" then some .null
  else none

@[simp] theorem RegistryMode.ofName?_name (m : RegistryMode) : ofName? m.name = some m := by
  cases m <;> rfl

/-- Which beacon nodes are asked. -/
structure BeaconSettings where
  /-- Their addresses, in the order in which they are tried. -/
  endpoints : List String := ["http://localhost:3500"]
  /-- How long a node may take to answer, in milliseconds. -/
  timeoutMs : UInt64 := 10000
deriving DecidableEq, Repr

/-- Where payloads are cached. -/
structure StoreSettings where
  backend : StoreBackend := .memory
  /-- The address of the Redis server. -/
  redisUrl : String := "redis://localhost:6379"
  ns : String := PayloadCache.defaultNamespace
  /-- How long a payload is kept, in seconds. -/
  payloadTtlSeconds : UInt64 := PayloadCache.defaultTtlSeconds
deriving DecidableEq, Repr

/-- How the registry of validators is kept. -/
structure RegistrySettings where
  /-- Where it takes its validators from. -/
  mode : RegistryMode := .beacon
  /-- The time between refreshes, in seconds; by default one epoch. -/
  refreshIntervalSeconds : UInt64 := 384
deriving DecidableEq, Repr

/-- Where audit records go. -/
structure DatabaseSettings where
  url : String
  /-- What the names of its tables begin with. -/
  tablePrefix : String := defaultTablePrefix
  /-- The most connections that are open at a time. -/
  maxConnections : UInt32 := 5
deriving DecidableEq, Repr

/-- Whether and where measurements are shown. -/
structure MetricsSettings where
  enabled : Bool := false
  listenAddress : String := "0.0.0.0:9090"
deriving DecidableEq, Repr

/-- What is logged. -/
structure LogSettings where
  level : String := "info"
deriving DecidableEq, Repr

/-- All settings. -/
structure Settings where
  /-- The network that the relay serves. -/
  network : String := "mainnet"
  beacon : BeaconSettings := {}
  store : StoreSettings := {}
  registry : RegistrySettings := {}
  /-- Where audit records go, if anywhere. -/
  database : Option DatabaseSettings := none
  /-- Whether and where measurements are shown. -/
  metrics : MetricsSettings := {}
  log : LogSettings := {}
deriving DecidableEq, Repr

/-- Why a relay cannot run with settings. -/
inductive SettingsFault where
  /-- Payloads would not be kept at all. -/
  | payloadTtl
  /-- There would be no time between refreshes. -/
  | refreshInterval
  /-- The registry takes its validators from beacon nodes and there are none. -/
  | noEndpoints
  /-- The names of the tables cannot begin so. -/
  | tablePrefix (given : String)
deriving DecidableEq, Repr

/-- The wording of a fault. -/
def SettingsFault.message : SettingsFault → String
  | .payloadTtl => "store.payload_ttl_seconds must be > 0"
  | .refreshInterval => "registry.refresh_interval_seconds must be > 0"
  | .noEndpoints => "beacon.endpoints is empty but registry.mode = beacon"
  | .tablePrefix given => "invalid database.table_prefix: " ++ given

/-- The characters of table prefixes: ASCII letters and digits, and the underscore. -/
def isTableChar (c : Char) : Bool :=
  let n := c.toNat
  (48 ≤ n && n ≤ 57) || (65 ≤ n && n ≤ 90) || (97 ≤ n && n ≤ 122) || c = '_'

/-- Whether the names of tables can begin with a text. -/
def isTablePrefix (s : String) : Bool := !s.toList.isEmpty && s.toList.all isTableChar

namespace Settings

/-- The first fault of settings, if there is one. -/
def fault? (s : Settings) : Option SettingsFault :=
  if s.store.payloadTtlSeconds = 0 then some .payloadTtl
  else if s.registry.refreshIntervalSeconds = 0 then some .refreshInterval
  else if s.registry.mode = .beacon ∧ s.beacon.endpoints = [] then some .noEndpoints
  else match s.database with
    | none => none
    | some db => if isTablePrefix db.tablePrefix then none else some (.tablePrefix db.tablePrefix)

/-- **Whether a relay can run with settings.** -/
def check (s : Settings) : Except SettingsFault Unit :=
  match s.fault? with
  | none => .ok ()
  | some e => .error e

/-- The cache of payloads that settings describe, whatever store it is on. -/
def payloadCache (s : Settings) : PayloadCache :=
  ⟨s.store.ns, .seconds s.store.payloadTtlSeconds.toNat⟩

end Settings

end BlockRelay
