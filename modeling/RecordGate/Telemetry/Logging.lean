import RecordGate.Error.Report
import RecordGate.Telemetry.Directive
import RecordGate.Telemetry.Redaction

/-!
# Logging

How the service logs. A log is installed once; its directives are checked first.
-/

namespace RecordGate

inductive LogFormat
  | json
  | pretty
  | compact
deriving DecidableEq

namespace LogFormat

def all : List LogFormat := [.json, .pretty, .compact]

def name : LogFormat → String
  | .json => "Json"
  | .pretty => "Pretty"
  | .compact => "Compact"

def settingName : LogFormat → String
  | .json => "json"
  | .pretty => "pretty"
  | .compact => "compact"

end LogFormat

structure LoggingSettings where
  level : String := "info"
  format : LogFormat := .json
  moduleLevels : List (String × String) := []
  includeLocation : Bool := true
  includeTarget : Bool := true
  redaction : RedactionSettings := {}

namespace LoggingSettings

def moduleDirective (entry : String × String) : String := entry.1 ++ "=" ++ entry.2

def checkModule (entry : String × String) : Except ErrorReport Unit :=
  let directive := moduleDirective entry
  match Directive.check directive.toList with
  | .ok () => .ok ()
  | .error fault =>
      .error (.configuration ("invalid directive '" ++ directive ++ "': " ++ fault.message))

/-- Checks the level and then the levels of the modules. -/
def checkDirectives (settings : LoggingSettings) : Except ErrorReport Unit :=
  match Directive.checkAll settings.level.toList with
  | .error fault =>
      .error (.configuration ("invalid log level '" ++ settings.level ++ "': " ++ fault.message))
  | .ok () => settings.moduleLevels.forM checkModule

/-- Installs the log, unless there is one already. -/
def install (settings : LoggingSettings) (present : Bool) : Except ErrorReport Unit := do
  settings.checkDirectives
  if present then
    .error (.configuration
      "logging already initialised: a global default trace dispatcher has already been set")
  else .ok ()

end LoggingSettings

end RecordGate
