import RecordGate.Event
import RecordGate.Proofs.Text.Split

/-!
# What the metrics say of decisions

Events are counted under names. A decision is counted under a name of its own, so that the number at
this name is how often the decision was taken.
-/

namespace RecordGate

namespace Event

/-- The decision that an event counts. -/
def decision? : Event → Option Decision
  | .decided d => some d
  | _ => none

end Event

end RecordGate
