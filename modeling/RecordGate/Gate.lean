import RecordGate.Event
import RecordGate.Store

/-!
# The gate

Nothing is done for a caller before the decision that it is allowed. Whoever is denied gets one and
the same reply, which says nothing about the reason.
-/

namespace RecordGate

/-- Why a request is not served. -/
inductive Refusal
  | forbidden (decision : Decision)
  | rejected (report : ErrorReport)

namespace Refusal

/-- The reply to everyone who is denied. -/
def forbiddenReply : Reply :=
  ⟨403, .json (.object [("message", .string "You are not authorized to access")])⟩

def reply (now : Instant) : Refusal → Reply
  | .forbidden _ => forbiddenReply
  | .rejected report => report.reply now

end Refusal

namespace Gate

/-- The decision about an action, or a refusal when it is denied. The decision is counted. -/
def authorize (i : Identity) (entity : String) (action : Entitlement) :
    Recorded (Except Refusal Decision) := do
  let d ← i.authorize entity action
  return if d.allowed then .ok d else .error (.forbidden d)

def query {ρ : Type} [Entity ρ] (i : Identity) (store : Store ρ) (q : FilterQuery) :
    Recorded (Except Refusal (List ρ)) := do
  match ← authorize i (Store.entityName ρ) .read with
  | .error refusal => return .error refusal
  | .ok _ =>
      match ← (Entity.schema (ρ := ρ)).compileRecorded q with
      | .error e =>
          let report ← Recorded.raise (.ofFilterError e)
          return .error (.rejected report)
      | .ok p => return .ok (store.find p)

end Gate

end RecordGate
