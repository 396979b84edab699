import BlockRelay.Settings.Basic

/-!
# Settings in JSON

Settings as a record in JSON, with the fields and sections as they are named in configuration
files. What is left out takes its default; only the database may be null.
-/

namespace BlockRelay

namespace BeaconSettings

/-- The fields in declared order. -/
def names : List String := ["endpoints", "timeout_ms"]

/-- Reads the section. -/
def ofJson? (j : Json) : Option BeaconSettings := do
  let [endpoints, timeout] ← j.fields? names | none
  let absent : BeaconSettings := {}
  return {
    endpoints := ← Json.fieldOr? absent.endpoints (Json.list? Json.text?) endpoints
    timeoutMs := ← Json.fieldOr? absent.timeoutMs Json.uint64? timeout }

end BeaconSettings

namespace StoreSettings

/-- The fields in declared order. -/
def names : List String := ["backend", "redis_url", "namespace", "payload_ttl_seconds"]

/-- Reads the section. -/
def ofJson? (j : Json) : Option StoreSettings := do
  let [backend, redisUrl, ns, ttl] ← j.fields? names | none
  let absent : StoreSettings := {}
  return {
    backend := ← Json.fieldOr? absent.backend (Json.named? StoreBackend.ofName?) backend
    redisUrl := ← Json.fieldOr? absent.redisUrl Json.text? redisUrl
    ns := ← Json.fieldOr? absent.ns Json.text? ns
    payloadTtlSeconds := ← Json.fieldOr? absent.payloadTtlSeconds Json.uint64? ttl }

end StoreSettings

namespace RegistrySettings

/-- The fields in declared order. -/
def names : List String := ["mode", "refresh_interval_seconds"]

/-- Reads the section. -/
def ofJson? (j : Json) : Option RegistrySettings := do
  let [mode, interval] ← j.fields? names | none
  let absent : RegistrySettings := {}
  return {
    mode := ← Json.fieldOr? absent.mode (Json.named? RegistryMode.ofName?) mode
    refreshIntervalSeconds := ←
      Json.fieldOr? absent.refreshIntervalSeconds Json.uint64? interval }

end RegistrySettings

namespace DatabaseSettings

/-- The fields in declared order. -/
def names : List String := ["url", "table_prefix", "max_connections"]

/-- Reads the section. -/
def ofJson? (j : Json) : Option DatabaseSettings := do
  let [url, tablePrefix, maxConnections] ← j.fields? names | none
  let absent : DatabaseSettings := { url := ← Json.required? Json.text? url }
  return { absent with
    tablePrefix := ← Json.fieldOr? absent.tablePrefix Json.text? tablePrefix
    maxConnections := ← Json.fieldOr? absent.maxConnections Json.uint32? maxConnections }

end DatabaseSettings

namespace MetricsSettings

/-- The fields in declared order. -/
def names : List String := ["enabled", "listen_addr"]

/-- Reads the section. -/
def ofJson? (j : Json) : Option MetricsSettings := do
  let [enabled, listenAddress] ← j.fields? names | none
  let absent : MetricsSettings := {}
  return {
    enabled := ← Json.fieldOr? absent.enabled Json.bool? enabled
    listenAddress := ← Json.fieldOr? absent.listenAddress Json.text? listenAddress }

end MetricsSettings

namespace LogSettings

/-- The fields in declared order. -/
def names : List String := ["level"]

/-- Reads the section. -/
def ofJson? (j : Json) : Option LogSettings := do
  let [level] ← j.fields? names | none
  let absent : LogSettings := {}
  return { level := ← Json.fieldOr? absent.level Json.text? level }

end LogSettings

namespace Settings

/-- The fields in declared order. -/
def names : List String :=
  ["network", "beacon", "store", "registry", "database", "metrics", "log"]

/-- Reads settings. -/
def ofJson? (j : Json) : Option Settings := do
  let [network, beacon, store, registry, database, metrics, log] ← j.fields? names | none
  let absent : Settings := {}
  return {
    network := ← Json.fieldOr? absent.network Json.text? network
    beacon := ← Json.fieldOr? absent.beacon BeaconSettings.ofJson? beacon
    store := ← Json.fieldOr? absent.store StoreSettings.ofJson? store
    registry := ← Json.fieldOr? absent.registry RegistrySettings.ofJson? registry
    database := ← Json.optional? DatabaseSettings.ofJson? database
    metrics := ← Json.fieldOr? absent.metrics MetricsSettings.ofJson? metrics
    log := ← Json.fieldOr? absent.log LogSettings.ofJson? log }

/-- **Reads settings from a text.** -/
def ofJsonText? (s : String) : Option Settings := (Json.read? s).bind ofJson?

end Settings

end BlockRelay
