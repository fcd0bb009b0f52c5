/-!
# Log events

What happens while a root certificate is looked for or minted is reported as events: the part of the
program that reports, a severity and a line of text. A threshold lets through the events at least as
severe as itself, for all parts or for some of them.
-/

namespace RootAuthority

/-- How severe an event is. -/
inductive Severity
  | error
  | warn
  | info
  | debug
  | trace
deriving DecidableEq, Repr

namespace Severity

/-- The name of a severity in log lines. -/
def name : Severity → String
  | error => "ERROR"
  | warn => "WARN"
  | info => "INFO"
  | debug => "DEBUG"
  | trace => "TRACE"

/-- Rank of a severity, the most severe first. -/
def rank : Severity → Nat
  | error => 1
  | warn => 2
  | info => 3
  | debug => 4
  | trace => 5

end Severity

/-- A part of the program that reports events. -/
inductive Reporter
  | commandLine
  | bootstrap
  | minting
  | storage
deriving DecidableEq, Repr

/-- The name by which log filters know a part. -/
def Reporter.name : Reporter → String
  | commandLine => "mitm_ca"
  | bootstrap => "mitm_ca::ca::bootstrap"
  | minting => "mitm_ca::ca::generator"
  | storage => "mitm_ca::storage::locator"

/-- A reported event. -/
structure LogEvent where
  reporter : Reporter
  severity : Severity
  message : String
deriving DecidableEq, Repr

namespace LogEvent

/-- Severity and message in one line. -/
def line (e : LogEvent) : String := e.severity.name ++ " " ++ e.message

end LogEvent

end RootAuthority
