import RecordGate.Auth.Bearer
import RecordGate.Auth.Signer
import RecordGate.Schema.Registry
import RecordGate.Service.Route

/-!
# The service

A request is admitted first: its path is open to everyone, or it carries a credential that is
accepted. Whoever is not admitted gets the reply of the failure, whatever the request asks for.
-/

namespace RecordGate

/-- All that the service holds. -/
structure App where
  signer : Signer
  publicPaths : List String
  directory : Directory
  metrics : Option String
  books : Store Book
  authors : Store Author

/-- A reply, and the service and the source of identifiers after it. -/
structure Outcome where
  reply : Reply
  app : App
  supply : Supply

namespace App

/-- The schemas of the records that are served. -/
def registry : Registry :=
  (Registry.empty.describe (.mk 0 Book.schema.summary [])).describe (.mk 1 Author.schema.summary [])

def health (now : Instant) : Reply :=
  ⟨200, .json (.object [("status", .string "healthy"), ("version", .string "0.1.0"),
    ("timestamp", .string now.text)])⟩

/-- The counts, when they are kept. -/
def metricsReply (metrics : Option String) : Reply :=
  match metrics with
  | some text => ⟨200, .text text⟩
  | none => ⟨404, .text "metrics disabled"⟩

def schemas : Reply := .success 200 (Json.strings registry.entityNames)

def schema (now : Instant) (part : String) : Recorded Reply :=
  match Percent.decode? part with
  | none => pure (.unreadable 400)
  | some name =>
      match registry.summary? name with
      | some summary => pure (.success 200 summary.json)
      | none =>
          Resource.failed now { code := .unknownEntity, message := "Unknown entity: " ++ name }

def issued (c : Credential) : Reply :=
  .success 201 (.object [("token", .string c.token), ("tokenType", .string "Bearer"),
    ("jti", .string c.claims.jti),
    ("expiresAt", Json.ofOption (fun t => .string t.zuluText) c.claims.expiresAt?)])

/-- Makes a credential for whom the body names. Only a super admin may ask for one. -/
def issue (app : App) (now : Instant) (jti : Uuid) (caller : Identity) (r : Request) :
    Recorded Reply :=
  match r.decodeBody Subject.decode with
  | .error reply => pure reply
  | .ok subject =>
      if !caller.isSuperAdmin then pure Refusal.forbiddenReply
      else if subject.user.isNil then
        Resource.failed now (.validation "userId must not be the nil UUID")
      else pure (issued (app.signer.issueFor now.seconds jti app.directory subject))

def operate (app : App) (now : Instant) (supply : Supply) (caller : Identity) (r : Request)
    (shelf : Shelf) (op : Operation) : Recorded Outcome := do
  let (fresh, after) := supply.take
  match shelf with
  | .books =>
      let turn ← Resource.guarded now fresh caller r app.books op
      return ⟨turn.reply, { app with books := turn.store }, after⟩
  | .authors =>
      let turn ← Resource.guarded now fresh caller r app.authors op
      return ⟨turn.reply, { app with authors := turn.store }, after⟩

def follow (app : App) (now : Instant) (supply : Supply) (caller : Identity) (r : Request) :
    Route → Recorded Outcome
  | .health => pure ⟨health now, app, supply⟩
  | .metrics => pure ⟨metricsReply app.metrics, app, supply⟩
  | .schemas => pure ⟨schemas, app, supply⟩
  | .schema part => do
      let reply ← schema now part
      return ⟨reply, app, supply⟩
  | .issue => do
      let (jti, after) := supply.take
      let reply ← app.issue now jti caller r
      return ⟨reply, app, after⟩
  | .operate shelf op => app.operate now supply caller r shelf op

def answer (app : App) (now : Instant) (supply : Supply) (caller : Identity) (r : Request) :
    Recorded Outcome :=
  match Place.ofPath? r.path with
  | none => pure ⟨.bare 404, app, supply⟩
  | some place =>
      match place.route? r.served with
      | none => pure ⟨.bare 405, app, supply⟩
      | some route => app.follow now supply caller r route

/-- The identity of a caller on a path that is not open to everyone. -/
def identify (signer : Signer) (now : Instant) (r : Request) : Except AuthFailure Identity :=
  match r.authorization.bind Bearer.token? with
  | some token => signer.authenticate now.seconds token
  | none => .error .missingCredentials

/-- The identity with which a request is admitted. -/
def callerOf (app : App) (now : Instant) (r : Request) : Except AuthFailure Identity :=
  if Bearer.isPublic app.publicPaths r.path then .ok .anonymous else identify app.signer now r

/-- The reply to a failure of authentication, which is counted. -/
def refuse (f : AuthFailure) : Recorded Reply := do
  Recorded.emit (.authenticationFailed f.code)
  return f.reply

/-- Says whether a path knows the method that asks for everything. -/
def answersGet (path : String) : Bool :=
  ((Place.ofPath? path).bind (Place.route? .get)).isSome

/-- The reply to a request for the head alone has no content. -/
def trimHead (r : Request) (o : Outcome) : Outcome :=
  if r.method == .head && answersGet r.path then { o with reply := .bare o.reply.status } else o

def handle (app : App) (now : Instant) (supply : Supply) (r : Request) : Recorded Outcome :=
  if r.method == .options then pure ⟨.bare 200, app, supply⟩
  else
    match app.callerOf now r with
    | .error f => do
        let reply ← refuse f
        return trimHead r ⟨reply, app, supply⟩
    | .ok caller => do
        let o ← app.answer now supply caller r
        return trimHead r o

end App

end RecordGate
