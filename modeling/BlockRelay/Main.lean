import BlockRelay.Housekeeper.Run

/-!
# The housekeeper's command line

The thin layer between `Housekeeper.run` and the process: it reads the files that a run may need
and prints the report. There is no network behind it, so every beacon node is out of reach, and no
tables of letters, so that names of nodes are plain.
-/

namespace BlockRelay.Housekeeper

/-- A network that reaches nobody. -/
def noNetwork : Network Unit where
  get _ n := (.unavailable "error sending request", n)

/-- The text of a file, if it can be read. -/
def readText (path : String) : IO (Option String) := do
  try
    return some (← IO.FS.readFile path)
  catch _ => return none

/-- The names of files that a run with given arguments may look for. -/
def candidates (args : List String) : List String :=
  let path := match Request.ofArguments args with
    | .ok (.run options) => options.config
    | _ => Settings.defaultPath
  [variablesFile, path, path ++ ".toml", path ++ ".json"]

/-- The names of the variables that a run looks up. -/
def variableNames : List String :=
  ["RELAY_NETWORK", "RELAY_BEACON_ENDPOINTS", "RELAY_STORE_BACKEND", "RELAY_REDIS_URL",
    "RELAY_PAYLOAD_TTL_SECONDS", "RELAY_REGISTRY_MODE", "DATABASE_URL", "DB_TABLE_PREFIX",
    filterVariable]

/-- Runs the housekeeper and answers its exit code. -/
def execute (args : List String) : IO UInt8 := do
  let mut texts : List (String × String) := []
  for name in candidates args do
    if let some text ← readText name then texts := (name, text) :: texts
  let mut values : List (String × String) := []
  for name in variableNames do
    if let some value ← IO.getEnv name then values := (name, value) :: values
  let report := run {
    args
    files := fun name => (texts.find? fun t => t.1 = name).map (·.2)
    env := fun name => (values.find? fun v => v.1 = name).map (·.2)
    naming := .plain
    network := noNetwork
    net := ()
    elapsed := ⟨0⟩ }
  for line in report.logs do
    IO.eprintln line.fullText
  if report.ending = .help then IO.print helpText
  if let some line := report.ending.errorLine? then IO.eprintln line
  return report.ending.exitCode

end BlockRelay.Housekeeper

/-- Runs the housekeeper. -/
def main (args : List String) : IO UInt32 := do
  return (← BlockRelay.Housekeeper.execute args).toUInt32
