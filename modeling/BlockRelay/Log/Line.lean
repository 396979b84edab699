/-!
# Log lines

What the relay reports while it works: a line has a severity, the part of the program it comes
from, and a message. Severities are ordered from the least to the most talkative, so that a limit
lets through everything up to it.
-/

namespace BlockRelay

/-- How serious a line is. -/
inductive Severity where
  | error
  /-- Something failed, and work goes on. -/
  | warn
  /-- Something happened that operators want to know. -/
  | info
  /-- Something happened that developers want to know. -/
  | debug
  | trace
deriving DecidableEq, Repr

namespace Severity

/-- The place of a severity, from the most serious on. -/
def rank : Severity → Nat
  | .error => 1
  | .warn => 2
  | .info => 3
  | .debug => 4
  | .trace => 5

/-- The name that begins a line. -/
def name : Severity → String
  | .error => "ERROR"
  | .warn => "WARN"
  | .info => "INFO"
  | .debug => "DEBUG"
  | .trace => "TRACE"

/-- All severities. -/
def all : List Severity := [.error, .warn, .info, .debug, .trace]

end Severity

/-- A line of the log. -/
structure LogLine where
  severity : Severity
  /-- The part of the program that it comes from. -/
  origin : String
  message : String
deriving DecidableEq, Repr

namespace LogLine

/-- The line without its origin. -/
def text (l : LogLine) : String := l.severity.name ++ " " ++ l.message

/-- The line with its origin. -/
def fullText (l : LogLine) : String :=
  l.severity.name ++ " " ++ l.origin ++ ": " ++ l.message

end LogLine

/-- The name under which a part of the library reports. -/
def partName (part : String) : String := "relay_datastore::" ++ part

end BlockRelay
