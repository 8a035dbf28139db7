import RecordGate.Cli.Failure
import RecordGate.Http.Request

/-!
# Speaking to a server

What is sent to a server and what is made of its answers. The network is a function from what is
sent to the answer, or to the causes for which there is none.
-/

namespace RecordGate.Cli

structure Exchange where
  method : String
  url : Url
  token : Option String
  body : Option Json

structure Answer where
  status : Nat
  body : String

abbrev Network := Exchange → Except (List String) Answer

/-- A network in which no server is reached. -/
def Network.unreachable : Network := fun _ =>
  .error ["error trying to connect", "tcp connect error",
    "Network is unreachable (os error 101)"]

/-- A server, known by the start of its addresses. -/
structure Client where
  network : Network
  base : String

namespace Client

/-- The server at an address; slashes at its end do not matter. -/
def ofUrl (network : Network) (url : String) : Client :=
  ⟨network, String.ofList (url.toList.reverse.dropWhile (· == '/')).reverse⟩

/-- Says whether a token can stand in a header. -/
def isSendable (token : String) : Bool :=
  token.toList.all fun c => (Nat.ble 0x20 c.toNat && c.toNat != 0x7F) || c == '\t'

def send (c : Client) (method path : String) (token : Option String) (body : Option Json) :
    Except Failure Answer :=
  let address := c.base ++ path
  let unsent (causes : List String) : Except Failure Answer := .error (.unsent method address causes)
  match Url.read address with
  | .error fault => unsent (Failure.ofUrlFault fault)
  | .ok url =>
      if (token.map isSendable).getD true then
        match c.network ⟨method, url, token, body⟩ with
        | .ok answer => .ok answer
        | .error causes => unsent (("error sending request for url (" ++ url.text ++ ")") :: causes)
      else unsent ["builder error", "failed to parse header value"]

/-- The message in the body of an answer that tells of an error: that of the error in it, or that of
the body itself. A body that is no JSON is the message. -/
def errorMessage (answer : Answer) : String :=
  match Json.parse answer.body with
  | .error _ => answer.body
  | .ok value =>
      match ((value.member? "error").bind (Json.member? "message")).or (value.member? "message") with
      | some (.string s) => s
      | _ => (Status.phrase? answer.status).getD "unknown"

/-- Whether a request succeeded, and what it gave. -/
structure Envelope (α : Type) where
  success : Bool
  data : Option α

def Envelope.decode {α : Type} (decode : Json.Decoder α) : Json.Decoder (Envelope α) :=
  Json.Slot.record ⟨false, none⟩
    [ .of "success" [] .required Json.Decoder.bool fun b e => { e with success := b },
      .of "data" [] .optional (Json.Decoder.option decode) fun d e => { e with data := d } ]

def unwrap {α : Type} (decode : Json.Decoder α) (address : String) (answer : Answer) :
    Except Failure α :=
  if !Status.isSuccess answer.status then
    .error (.refused answer.status (errorMessage answer))
  else
    match Json.parseWith (Envelope.decode decode) answer.body with
    | .error _ => .error (.unreadableAnswer address)
    | .ok e =>
        if !e.success then .error (.unsuccessful address)
        else
          match e.data with
          | some a => .ok a
          | none => .error .noData

def get {α : Type} (c : Client) (decode : Json.Decoder α) (path : String) (token : Option String) :
    Except Failure α := do
  let answer ← c.send "GET" path token none
  unwrap decode (c.base ++ path) answer

def post {α : Type} (c : Client) (decode : Json.Decoder α) (path : String) (body : Json)
    (token : Option String) : Except Failure α := do
  let answer ← c.send "POST" path token (some body)
  unwrap decode (c.base ++ path) answer

def getRaw (c : Client) (path : String) : Except Failure Json := do
  let answer ← c.send "GET" path none none
  if !Status.isSuccess answer.status then throw (.refused answer.status answer.body)
  else
    match Json.parse answer.body with
    | .ok value => return value.sorted
    | .error _ => throw (.unreadableAnswer (c.base ++ path))

end Client

end RecordGate.Cli
