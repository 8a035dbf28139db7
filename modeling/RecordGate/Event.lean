import RecordGate.Auth.Decision
import RecordGate.Error.Report

/-!
# Events

What the service counts while it works, and computations that report such events beside their
result. Every count has a name and labels; equal ones are added up.
-/

namespace RecordGate

inductive Event
  | errorRaised (code : ErrorCode)
  | decided (decision : Decision)
  | predicateCompiled (entity : String)
  | authenticationFailed (kind : String)
deriving DecidableEq

namespace Event

def label (name value : String) : String := name ++ "=\"" ++ value ++ "\""

def counter : Event → String
  | .errorRaised code =>
      "tessera_errors_total\x7b" ++ Text.join "," [label "code" code.name,
        label "category" code.category, label "severity" code.severity.name] ++ "\x7d"
  | .decided d =>
      "tessera_authz_decisions_total\x7b" ++ Text.join ","
        [label "decision" (if d.allowed then "allow" else "deny"), label "reason" d.reason.name] ++
        "\x7d"
  | .predicateCompiled entity =>
      "tessera_predicates_compiled_total\x7b" ++ label "entity" entity ++ "\x7d"
  | .authenticationFailed kind =>
      "tessera_auth_failures_total\x7b" ++ label "error_type" kind ++ "\x7d"

/-- The lines of the counts, each name with its number, in ascending order. -/
def lines (events : List Event) : List String :=
  let names := events.map counter
  (Text.ascending names).map fun name => name ++ " " ++ toString (names.count name)

end Event

/-- A result with the events on the way to it. -/
structure Recorded (α : Type) where
  value : α
  events : List Event

namespace Recorded

instance : Monad Recorded where
  pure a := ⟨a, []⟩
  bind r f :=
    let s := f r.value
    ⟨s.value, r.events ++ s.events⟩

@[simp] theorem value_pure {α : Type} (a : α) : (pure a : Recorded α).value = a := rfl

@[simp] theorem value_bind {α β : Type} (r : Recorded α) (f : α → Recorded β) :
    (r >>= f).value = (f r.value).value := rfl

@[simp] theorem events_pure {α : Type} (a : α) : (pure a : Recorded α).events = [] := rfl

def emit (event : Event) : Recorded Unit := ⟨(), [event]⟩

def raise (report : ErrorReport) : Recorded ErrorReport := ⟨report, [.errorRaised report.code]⟩

end Recorded

/-- The decision about an action, which is counted. -/
def Identity.authorize (i : Identity) (entity : String) (action : Entitlement) : Recorded Decision :=
  let d := i.evaluate entity action
  ⟨d, [.decided d]⟩

/-- Compiling a query that succeeds is counted. -/
def Schema.compileRecorded {ρ : Type} (schema : Schema ρ) (query : FilterQuery) :
    Recorded (Except FilterError Predicate) :=
  match schema.compileQuery query with
  | .ok p => ⟨.ok p, [.predicateCompiled schema.name]⟩
  | .error e => ⟨.error e, []⟩

end RecordGate
