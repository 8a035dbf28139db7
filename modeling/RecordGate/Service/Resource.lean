import RecordGate.Entity.Author
import RecordGate.Gate
import RecordGate.Http.Request

/-!
# Records over HTTP

What can be done with the records of an entity by requests. Every operation asks for one action, and
the decision about that action comes before anything else is read of the request.
-/

namespace RecordGate

open Json (Decoder)

/-- A kind of record that is served, with its form in JSON. -/
class Resource (ρ : Type) extends Entity ρ where
  decode : Uuid → Decoder ρ
  json : ρ → Json

instance : Resource Book := ⟨Book.decode, Book.json⟩

instance : Resource Author := ⟨Author.decode, Author.json⟩

/-- What can be done with the records of an entity. A record is named by a part of the path. -/
inductive Operation
  | list
  | query
  | create
  | read (part : String)
  | replace (part : String)
  | remove (part : String)
deriving DecidableEq

/-- The action that an operation asks for. -/
def Operation.action : Operation → Entitlement
  | .list => .read
  | .query => .read
  | .create => .create
  | .read _ => .read
  | .replace _ => .update
  | .remove _ => .delete

/-- A reply and the store after it. -/
structure Turn (ρ : Type) where
  reply : Reply
  store : Store ρ

namespace Resource

variable {ρ : Type} [Resource ρ]

/-- The key that a part of a path writes. -/
def keyOf (part : String) : Except Reply Uuid :=
  match (Percent.decode? part).bind Uuid.parse? with
  | some key => .ok key
  | none => .error (.unreadable 400)

def failed (now : Instant) (report : ErrorReport) : Recorded Reply := do
  let report ← Recorded.raise report
  return report.reply now

def answer (now : Instant) (i : Identity) (store : Store ρ) (q : FilterQuery) : Recorded Reply := do
  match ← Gate.query i store q with
  | .ok records => return .success 200 (.array (records.map json))
  | .error refusal => return refusal.reply now

def list (now : Instant) (i : Identity) (r : Request) (store : Store ρ) : Recorded Reply :=
  match r.parameter "search" with
  | .ok term => answer now i store ⟨[], term⟩
  | .error reply => pure reply

def query (now : Instant) (i : Identity) (r : Request) (store : Store ρ) : Recorded Reply :=
  match r.decodeBody FilterQuery.decode with
  | .ok q => answer now i store q
  | .error reply => pure reply

def read (now : Instant) (part : String) (store : Store ρ) : Recorded Reply :=
  match keyOf part with
  | .error reply => pure reply
  | .ok key =>
      match store.get key with
      | .ok record => pure (.success 200 (json record))
      | .error e => failed now e.report

/-- The store after a change, with the reply to it; a change that fails is none. -/
def settle (now : Instant) (store : Store ρ) (done : Reply) :
    Except StoreError (Store ρ) → Recorded (Turn ρ)
  | .ok after => pure ⟨done, after⟩
  | .error e => do
      let reply ← failed now e.report
      return ⟨reply, store⟩

/-- Puts in the record in the body. -/
def create (now : Instant) (fresh : Uuid) (r : Request) (store : Store ρ) : Recorded (Turn ρ) :=
  match r.decodeBody (decode fresh) with
  | .error reply => pure ⟨reply, store⟩
  | .ok (record : ρ) => settle now store (.success 201 (json record)) (store.insert record)

/-- Puts the record in the body in the place of the one that the path names. -/
def replace (now : Instant) (fresh : Uuid) (part : String) (r : Request) (store : Store ρ) :
    Recorded (Turn ρ) :=
  match keyOf part with
  | .error reply => pure ⟨reply, store⟩
  | .ok key =>
      match r.decodeBody (decode fresh) with
      | .error reply => pure ⟨reply, store⟩
      | .ok (record : ρ) =>
          if Entity.key record == key then
            settle now store (.success 200 (json record)) (store.update record)
          else do
            let reply ← failed now (.validation "Record key does not match the request path")
            return ⟨reply, store⟩

def remove (now : Instant) (part : String) (store : Store ρ) : Recorded (Turn ρ) :=
  match keyOf part with
  | .error reply => pure ⟨reply, store⟩
  | .ok key => settle now store (.bare 204) (store.delete key)

/-- An operation that changes nothing leaves the store as it is. -/
def unchanged (store : Store ρ) (reply : Recorded Reply) : Recorded (Turn ρ) := do
  let reply ← reply
  return ⟨reply, store⟩

def perform (now : Instant) (fresh : Uuid) (i : Identity) (r : Request) (store : Store ρ) :
    Operation → Recorded (Turn ρ)
  | .list => unchanged store (list now i r store)
  | .query => unchanged store (query now i r store)
  | .create => create now fresh r store
  | .read part => unchanged store (read now part store)
  | .replace part => replace now fresh part r store
  | .remove part => remove now part store

/-- Does an operation, unless the caller is denied its action. -/
def guarded (now : Instant) (fresh : Uuid) (i : Identity) (r : Request) (store : Store ρ)
    (op : Operation) : Recorded (Turn ρ) := do
  match ← Gate.authorize i (Store.entityName ρ) op.action with
  | .error _ => return ⟨Refusal.forbiddenReply, store⟩
  | .ok _ => perform now fresh i r store op

end Resource

end RecordGate
