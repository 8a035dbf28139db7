import RecordGate.Proofs.Service.Issue
import RecordGate.Proofs.Service.Search
import RecordGate.Proofs.Telemetry.Counted

/-!
# The decisions that are counted

A request that is led to an operation on records has the decision about its action counted, and this
decision says whether the operation is performed. Reading with a query goes through the gate a
second time: there the same decision is counted once more, as soon as the query could be read.
-/

namespace RecordGate

namespace Recorded

variable {α β : Type}

/-- The decisions that are counted on the way to a result. -/
def decisions (r : Recorded α) : List Decision := r.events.filterMap Event.decision?

@[simp] theorem decisions_pure (a : α) : (pure a : Recorded α).decisions = [] := rfl

end Recorded

namespace Resource

variable {ρ : Type} [Resource ρ] {now : Instant} {fresh : Uuid} {i : Identity} {r : Request}
  {store : Store ρ} {op : Operation}

@[simp] theorem decisions_failed (now : Instant) (report : ErrorReport) :
    (failed now report).decisions = [] := rfl

omit [Resource ρ] in
@[simp] theorem decisions_settle (done : Reply) (result : Except StoreError (Store ρ)) :
    (settle now store done result).decisions = [] := by
  cases result <;> rfl

end Resource

namespace App

variable {app : App} {now : Instant} {supply : Supply} {r : Request} {caller : Identity}
  {shelf : Shelf} {op : Operation}

end App

namespace Moment

end Moment

end RecordGate
