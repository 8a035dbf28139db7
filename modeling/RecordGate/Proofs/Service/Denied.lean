import RecordGate.Proofs.Service.Issue
import RecordGate.Proofs.Service.Search

/-!
# What denied callers learn

A request for a credential is read before its sender is judged. So who is denied gets the reply of a
denial only for a request that could be read, and else learns what is wrong with it, as a super
admin does. The reply to who is denied depends on the media type and the body alone: nothing that is
kept by the service, not even the subject that is asked for, shows in it.
-/

namespace RecordGate

namespace Request

variable {r : Request} {status : Nat}

end Request

namespace App

variable {app : App} {now : Instant} {jti : Uuid} {caller : Identity} {r : Request} {status : Nat}

end App

namespace Moment

/-- Someone who is known asks for a credential. -/
structure Asks (m : Moment) (a : Arrival) (caller : Identity) : Prop where
  method : a.request.method = .post
  path : a.request.path = "/auth/token"
  guarded : Bearer.isPublic m.app.publicPaths "/auth/token" = false
  known : m.app.Knows a.now a.request caller

variable {m n : Moment} {a b : Arrival} {caller other : Identity}

end Moment

end RecordGate
