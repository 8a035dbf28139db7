import RecordGate.Event

/-!
# Metrics

Whether the service counts what happens, and the text of the counts.
-/

namespace RecordGate

structure MetricsSettings where
  enabled : Bool := true
  globalLabels : List (String × String) := []

structure MetricsRegistry where
  isEnabled : Bool
deriving DecidableEq

namespace MetricsRegistry

def disabled : MetricsRegistry := ⟨false⟩

/-- The lines of the counts; nothing when nothing is counted. -/
def render (r : MetricsRegistry) (events : List Event) : String :=
  if r.isEnabled then Text.join "\n" (Event.lines events) else ""

def debugText (r : MetricsRegistry) : String :=
  "MetricsRegistry \x7b prometheus_handle: " ++ (if r.isEnabled then "true" else "false") ++ " \x7d"

end MetricsRegistry

/-- Installs a registry, unless there is one already; without metrics none is needed. -/
def MetricsSettings.install (settings : MetricsSettings) (present : Bool) :
    Except ErrorReport MetricsRegistry :=
  if !settings.enabled then .ok .disabled
  else if present then
    .error { code := .configurationError, message := "Failed to install metrics recorder",
             internal := some ("failed to install exporter as global recorder: attempted to set a " ++
               "recorder after the metrics system was already initialized") }
  else .ok ⟨true⟩

end RecordGate
