import BlockRelay.Cache.Switch
import BlockRelay.Housekeeper.Arguments
import BlockRelay.Log.Filter
import BlockRelay.Refresh.Pass
import BlockRelay.Refresh.Refresher
import BlockRelay.Settings.EnvironmentFile
import BlockRelay.Settings.Services

/-!
# A run of the housekeeper

The housekeeper keeps the registry of validators fresh. It loads its settings, sets up the cache
and the registry, and either makes one pass over both and ends, or runs a refresher until it is
interrupted. All of this is a function of its surroundings (`Surroundings`): the arguments, the
files, the environment, the naming of hosts and the network. What it comes to is a `Report`.
-/

namespace BlockRelay.Housekeeper

/-- What a run depends on. -/
structure Surroundings (ν : Type) where
  args : List String
  files : Files
  env : Environment
  /-- How the names of beacon nodes are written in ASCII. -/
  naming : Url.Naming
  network : Network ν
  net : ν
  /-- How long a refresh takes, as log lines say. -/
  elapsed : Span

/-- How a run ends. -/
inductive Ending where
  /-- The help text was asked for. -/
  | help
  | misused (e : ArgumentError)
  | unsettled (path : String) (e : LoadError)
  /-- A service cannot be set up. -/
  | unready (e : SetupError)
  | failed (e : Failure)
  /-- The process ends in the middle. -/
  | crashed
  | done
deriving DecidableEq, Repr

namespace Ending

/-- The line that is printed about an ending, if one is. -/
def errorLine? : Ending → Option String
  | .misused e => some ("error: " ++ e.message)
  | .unsettled path _ => some ("Error: failed to load settings from " ++ path)
  | .unready e => some ("Error: " ++ e.message)
  | .failed e => some ("Error: " ++ e.message)
  | .help | .crashed | .done => none

/-- The exit code of the process. -/
def exitCode : Ending → UInt8
  | .help | .done => 0
  | .misused _ => 2
  | .unsettled _ _ | .unready _ | .failed _ => 1
  | .crashed => 101

end Ending

/-- What a run comes to. -/
structure Report where
  /-- The lines that the filter of the settings lets through. -/
  logs : List LogLine
  ending : Ending

/-- A log line of the housekeeper. -/
def line (severity : Severity) (message : String) : LogLine := ⟨severity, "housekeeper", message⟩

/-- A log line of the registry. -/
def registryLine (severity : Severity) (message : String) : LogLine :=
  ⟨severity, partName "validator_registry", message⟩

/-! ### Set-up -/

/-- What has been set up. -/
structure Services where
  cache : PayloadCache
  /-- The beacon nodes, if the registry has any to ask. -/
  client : Option BeaconClient
  /-- How often the registry is refreshed. -/
  every : Span

/-- The registry before its first refresh. -/
def Services.registry (s : Services) : Registry :=
  .new (match s.client with
    | some _ => .beacon
    | none => .null)

/-- Sets up the services of settings, with the lines that are logged on the way. -/
def setUp (naming : Url.Naming) (s : Settings) : List LogLine × Except SetupError Services :=
  let first := line .info ("Settings loaded for network " ++ s.network) ::
    if s.metrics.enabled then
      [line .warn "metrics.enabled is set but the observability feature is off"]
    else []
  match s.openCache with
  | .error e => (first, .error e)
  | .ok (cache, cacheLine) =>
    let second := first ++
      [cacheLine, line .info ("Payload store " ++ s.store.backend.name ++ " ready")]
    match s.openSource naming with
    | .error e => (second, .error e)
    | .ok (client, sourceLine) =>
      (second ++ [sourceLine],
        .ok ⟨cache, client, .seconds s.registry.refreshIntervalSeconds.toNat⟩)

/-! ### One pass -/

variable {ν : Type}

/-- The source of validators of services; a registry without beacon nodes never asks it. -/
def Services.source (s : Services) (network : Network ν) :
    ValidatorSource (ν × List LogLine) :=
  match s.client with
  | some client => client.loggedSource network
  | none => ⟨fun n => (.error .noEndpoints, n)⟩

/-- The line of the registry about a refresh that changed its count from one number to another. -/
def refreshLines (s : Services) (elapsed : Span) (before after : Nat) :
    Except BeaconError Unit → List LogLine
  | result =>
    match s.client, result with
    | none, _ => []
    | some client, .error e =>
      [registryLine .warn ("Validator refresh from " ++ client.describe ++ " failed, keeping " ++
        Text.Decimal.text before ++ " known validators: " ++ e.message)]
    | some client, .ok () =>
      [registryLine .info ("Validator set refreshed from " ++ client.describe ++ ": " ++
        Text.Decimal.text after ++ " validators (was " ++ Text.Decimal.text before ++ ") in " ++
        elapsed.text)]

/-- The lines of the registry about a pass. -/
def passLines (s : Services) (elapsed : Span) : Except Failure Nat → List LogLine
  | .error (.cache _) => []
  | .error (.beacon e) => refreshLines s elapsed 0 0 (.error e)
  | .ok n => refreshLines s elapsed 0 n (.ok ())

/-- The line of the housekeeper about a pass. -/
def passLine : Except Failure Nat → LogLine
  | .ok n => line .info ("Registry holds " ++ Text.Decimal.text n ++ " validators")
  | .error e => line .error ("Housekeeping pass failed (" ++ e.kind.name ++ ", transient: " ++
      (if e.kind.isTransient then "true" else "false") ++ "): " ++ e.message)

/-- **One pass** over an empty store and a registry before its first refresh. -/
def runOnce (w : Surroundings ν) (s : Services) : List LogLine × Ending :=
  let start : PassState SwitchedStore (ν × List LogLine) := {
    world := { now := ⟨0⟩, store := { switch := .through, memory := .empty } }
    registry := s.registry
    source := (w.net, []) }
  match runPass s.cache SwitchedStore.service (s.source w.network) 0 start with
  | .finished result after =>
    (after.source.2 ++ passLines s w.elapsed result ++ [passLine result],
      match result with
      | .ok _ => .done
      | .error e => .failed e)
  -- neither happens: the store in memory lets every call through
  | .stuck | .crashed => ([], .crashed)

/-! ### Until an interrupt -/

/-- The source of validators of services for a refresher, with the lines about every refresh. -/
def Services.timedSource (s : Services) (network : Network ν) (elapsed : Span) :
    TimedSource (ν × List LogLine) where
  ask n :=
    let (answer, net, logs) := (s.source network).ask n
    -- the set is built here only to be counted
    let size (list : List ListedValidator) : Nat := (ValidatorSet.ofList 0 list).size
    let lines := match answer with
      | .ok list => refreshLines s elapsed 0 (size list) (.ok ())
      | .error e => refreshLines s elapsed 0 0 (.error e)
    ((answer, ⟨0⟩), net, logs ++ lines)

/-- The lines among what can be seen of a refresher. -/
def linesOf (events : List RefresherEvent) : List LogLine :=
  events.filterMap fun
    | .log l => some l
    | .fetch _ => none

/-- **A run that is interrupted** after its first refresh. -/
def runInterrupted (w : Surroundings ν) (s : Services) : List LogLine × Ending :=
  let running := line .info ("Housekeeper running (" ++ s.registry.mode.title ++
    " registry, refresh every " ++ s.every.text ++ ")")
  match Refresher.start? s.every s.registry (w.net, []) with
  | none => ([running], .crashed)
  | some r =>
    let source := s.timedSource w.network w.elapsed
    let (r, events) := r.settle source ⟨0⟩
    -- the clock has not moved, so no second refresh is due
    let (r, later) := (r.signal true).settle source ⟨0⟩
    (running :: linesOf (Refresher.startLine s.every :: events) ++ r.source.2 ++
      [line .info "Shutdown signal received"] ++ linesOf later, .done)

/-! ### Runs -/

/-- The name of the file with variables. -/
def variablesFile : String := ".env"

/-- The variable whose value, if it is set, filters the log in place of the settings. -/
def filterVariable : String := "RUST_LOG"

/-- **A run of the housekeeper.** Without `--once` it goes on until it is interrupted. -/
def run (w : Surroundings ν) : Report :=
  let env := match w.files variablesFile with
    | some file => w.env.extend file
    | none => w.env
  match Request.ofArguments w.args with
  | .error e => ⟨[], .misused e⟩
  | .ok .help => ⟨[], .help⟩
  | .ok (.run options) =>
    match Settings.load w.files env options.config with
    | .error e => ⟨[], .unsettled options.config e⟩
    | .ok settings =>
      let filter := LogFilter.read ((env filterVariable).getD settings.log.level)
      let (lines, services) := setUp w.naming settings
      let (later, ending) := match services with
        | .error e => ([], .unready e)
        | .ok s => if options.once then runOnce w s else runInterrupted w s
      ⟨(lines ++ later).filter filter.admits, ending⟩

end BlockRelay.Housekeeper
