import BlockRelay.Settings.File

/-!
# The arguments of the housekeeper

The housekeeper takes the path of its configuration (`--config PATH` or `--config=PATH`), the
flag `--once`, and `--help` or `-h`. Arguments are read from left to right, and the first that
is wrong counts. After `--` nothing is an option.
-/

namespace BlockRelay.Housekeeper

/-- What the housekeeper was asked to do. -/
structure Options where
  config : String := Settings.defaultPath
  /-- Whether it refreshes once and ends. -/
  once : Bool := false
deriving DecidableEq, Repr

/-- What is wrong with arguments. -/
inductive ArgumentError where
  | unexpected (given : String)
  /-- A value where there can be none. -/
  | unexpectedValue (value option : String)
  | missingValue (option : String)
  | repeated (option : String)
deriving DecidableEq, Repr

/-- The wording of an error. -/
def ArgumentError.message : ArgumentError → String
  | .unexpected given => "unexpected argument '" ++ given ++ "' found"
  | .unexpectedValue value option =>
    "unexpected value '" ++ value ++ "' for '" ++ option ++ "' found; no more were expected"
  | .missingValue option => "a value is required for '" ++ option ++ "' but none was supplied"
  | .repeated option => "the argument '" ++ option ++ "' cannot be used multiple times"

/-- What arguments ask for. -/
inductive Request where
  | help
  | run (o : Options)
deriving DecidableEq, Repr

/-- How messages name the option for the path. -/
def configOption : String := "--config <CONFIG>"

/-- What has been read of the arguments. -/
structure ArgumentReader where
  /-- The path, if it was given. -/
  config : Option String := none
  once : Bool := false
  /-- An option for the path that has yet to take effect, and its value if that has come. -/
  pending : Option (Option String) := none
  trailing : Bool := false

namespace ArgumentReader

/-- Takes the path. -/
def setConfig (r : ArgumentReader) (path : String) : Except ArgumentError ArgumentReader :=
  if r.config.isSome then .error (.repeated configOption)
  else if path = "" then .error (.missingValue configOption)
  else .ok { r with config := some path }

/-- Lets a pending option take effect. This happens when the next option is known to be one, and
at the end, so that an argument that means nothing is reported first. -/
def resolve (r : ArgumentReader) : Except ArgumentError ArgumentReader :=
  match r.pending with
  | none => .ok r
  | some none => .error (.missingValue configOption)
  | some (some path) => { r with pending := none }.setConfig path

/-- Reads an option with two dashes: its name and its value, if that is attached. Nothing is left
to read after one for the help text. -/
def long (r : ArgumentReader) (name : String) (value : Option String) :
    Except ArgumentError (Option ArgumentReader) :=
  if name = "config" then do
    let r ← r.resolve
    match value with
    | some path => return some (← r.setConfig path)
    | none => return some { r with pending := some none }
  else if name = "once" ∨ name = "help" then
    match value with
    | some v => .error (.unexpectedValue v ("--" ++ name))
    | none => do
      let r ← r.resolve
      if name = "help" then return none
      else if r.once then throw (.repeated "--once")
      else return some { r with once := true }
  else .error (.unexpected ("--" ++ name))

/-- Reads one argument; nothing is left to read after one for the help text. -/
def step (r : ArgumentReader) (arg : String) : Except ArgumentError (Option ArgumentReader) :=
  if r.trailing then .error (.unexpected arg)
  else
    match arg.toList with
    | ['-', '-'] => .ok (some { r with trailing := true })
    | '-' :: '-' :: cs =>
      let name := String.ofList (cs.takeWhile (· ≠ '='))
      match cs.dropWhile (· ≠ '=') with
      | [] => r.long name none
      | _ :: value => r.long name (some (String.ofList value))
    | '-' :: 'h' :: _ => r.resolve.map fun _ => none
    | '-' :: c :: _ => .error (.unexpected (String.ofList ['-', c]))
    | _ =>
      if r.pending = some none then .ok (some { r with pending := some (some arg) })
      else .error (.unexpected arg)

/-- Reads arguments to the end. -/
def run (r : ArgumentReader) : List String → Except ArgumentError Request
  | [] => r.resolve.map fun r =>
    .run { config := r.config.getD Settings.defaultPath, once := r.once }
  | arg :: rest =>
    match r.step arg with
    | .error e => .error e
    | .ok none => .ok .help
    | .ok (some r) => r.run rest

end ArgumentReader

/-- **Reads arguments.** -/
def Request.ofArguments (args : List String) : Except ArgumentError Request :=
  ArgumentReader.run {} args

/-- The help text. -/
def helpText : String :=
  "Validator registry refresher for the relay data tier\n\n" ++
  "Usage: housekeeper [OPTIONS]\n\n" ++
  "Options:\n" ++
  "      --config <CONFIG>  Path to the TOML config file [default: Config.toml]\n" ++
  "      --once             Refresh once and exit\n" ++
  "  -h, --help             Print help\n"

end BlockRelay.Housekeeper
