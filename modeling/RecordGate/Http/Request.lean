import RecordGate.Http.MediaType
import RecordGate.Http.Percent
import RecordGate.Http.Reply
import RecordGate.Json.Decode

/-!
# Requests

What a client sends: a method, a path and a query string, two headers, and a body.
-/

namespace RecordGate

inductive Method
  | get
  | head
  | post
  | put
  | delete
  | options
  | other
deriving DecidableEq, Repr

/-- The method of a name; the names are in capitals. -/
def Method.ofName (name : String) : Method :=
  if name == "GET" then .get
  else if name == "HEAD" then .head
  else if name == "POST" then .post
  else if name == "PUT" then .put
  else if name == "DELETE" then .delete
  else if name == "OPTIONS" then .options
  else .other

structure Request where
  method : Method
  path : String
  query : String
  authorization : Option String
  contentType : Option String
  body : String

namespace Request

/-- The path and the query string of a target. -/
def splitTarget (target : String) : String × String :=
  let s := target.toList.takeWhile (· != '#')
  match Text.splitFirst '?' s with
  | some (path, query) => (String.ofList path, String.ofList query)
  | none => (String.ofList s, "")

/-- The method whose reply is sent: the reply to a request for the head alone is the one to a
request for everything. -/
def served (r : Request) : Method := if r.method == .head then .get else r.method

/-- The most bytes that a body may have where it is read. -/
def bodyLimit : Nat := 2097152

/-- The body is short enough to be read. -/
def Fits (r : Request) : Prop := r.body.utf8ByteSize ≤ bodyLimit

instance (r : Request) : Decidable r.Fits := inferInstanceAs (Decidable (_ ≤ _))

/-- Reads the body as JSON. What follows the value is not looked at. A body that is not said to be
JSON, that is too long, that is no JSON, or that is of the wrong kind is answered each in its own
way. -/
def decodeBody {α : Type} (r : Request) (decode : Json.Decoder α) : Except Reply α :=
  if (r.contentType.map MediaType.isJson).getD false then
    if r.Fits then
      match decode Json.depthLimit (Json.document r.body.toList).root with
      | .ok a => .ok a
      | .error .mismatch => .error (.unreadable 422)
      | .error _ => .error (.unreadable 400)
    else .error (.unreadable 413)
  else .error (.unreadable 415)

/-- The value of a name in the query string. A name that is given twice cannot be read. -/
def parameter (r : Request) (name : String) : Except Reply (Option String) :=
  match (Percent.pairs r.query).filter fun p => p.1 == name with
  | [] => .ok none
  | [p] => .ok (some p.2)
  | _ => .error (.unreadable 400)

end Request

end RecordGate
