import RecordGate.Error.Code
import RecordGate.Filter.Compile
import RecordGate.Http.Reply

/-!
# Error reports

An error as it is told to clients and to those who run the service. Clients see the code, the
message and the details; the internal message and the cause stay inside.
-/

namespace RecordGate

open Json (Absence Decoder Slot)

structure ErrorDetails where
  context : List (String × Json) := []
  entityId : Option String := none
  entityType : Option String := none
  suggestion : Option String := none

namespace ErrorDetails

def isEmpty (d : ErrorDetails) : Bool :=
  d.context.isEmpty && d.entityId.isNone && d.entityType.isNone && d.suggestion.isNone

/-- The context of a key; what was there before is replaced. -/
def withContext (d : ErrorDetails) (key : String) (value : Json) : ErrorDetails :=
  { d with context := Json.insertMember key value d.context }

/-- A member for a value that is there. -/
def entry (name : String) (value : Option String) : List (String × Json) :=
  match value with
  | some s => [(name, .string s)]
  | none => []

def json (d : ErrorDetails) : Json :=
  let context := if d.context.isEmpty then [] else [("context", Json.object d.context)]
  .object (context ++ entry "entity_id" d.entityId ++ entry "entity_type" d.entityType ++
    entry "suggested_action" d.suggestion)

def slots : List (Slot ErrorDetails) :=
  [ .of "context" [] .defaulted (Decoder.dictionary Json.Node.read)
      fun c d => { d with context := c },
    .of "entity_id" [] .optional (Decoder.option Decoder.string) fun s d => { d with entityId := s },
    .of "entity_type" [] .optional (Decoder.option Decoder.string)
      fun s d => { d with entityType := s },
    .of "suggested_action" [] .optional (Decoder.option Decoder.string)
      fun s d => { d with suggestion := s } ]

def decode : Decoder ErrorDetails := Slot.record {} slots

end ErrorDetails

structure ErrorReport where
  code : ErrorCode
  message : String
  internal : Option String := none
  details : ErrorDetails := {}
  cause : Option String := none

namespace ErrorReport

/-- An error inside the service, which clients are not told about. -/
def internalFailure (message : String) : ErrorReport :=
  { code := .internalError, message := "An internal error occurred", internal := some message }

def notFound (entityType entityId : String) : ErrorReport :=
  { code := .recordNotFound, message := entityType ++ " not found: " ++ entityId,
    details := { entityId := some entityId, entityType := some entityType } }

def validation (message : String) : ErrorReport := { code := .validationError, message := message }

def configuration (message : String) : ErrorReport :=
  { code := .invalidConfiguration, message := "Invalid configuration", internal := some message,
    details := { suggestion := some message } }

def inputOutput (message : String) : ErrorReport :=
  { code := .internalError, message := "An I/O error occurred", internal := some message,
    cause := some message }

/-- A failed step, with the failure as the cause. -/
def inContext (message cause : String) : ErrorReport :=
  { internalFailure message with cause := some cause }

/-- A failed step that is told under a code. -/
def underCode (code : ErrorCode) (cause : String) : ErrorReport :=
  { code := code, message := cause, cause := some cause }

/-- Something that should be there and is not. -/
def absent (message : String) : ErrorReport := { code := .recordNotFound, message := message }

/-- Something that should be there and is not, told under a code. -/
def absentUnderCode (code : ErrorCode) : ErrorReport :=
  { code := code, message := "Resource not found" }

/-- A text that is no JSON, or not of the kind wanted. The reader's own wording goes inside. -/
def ofFault (fault : Json.Fault) (wording : String) : ErrorReport :=
  { code := if fault == .mismatch then .deserializationError else .invalidJson,
    message := "Failed to process JSON data", internal := some wording, cause := some wording }

/-- The code of a query that cannot be compiled. -/
def filterCode : FilterError → ErrorCode
  | .unknownProperty _ _ => .unknownProperty
  | .conversion _ _ _ => .invalidFieldValue
  | .unsupportedOperator _ => .unsupportedOperator

def ofFilterError (e : FilterError) : ErrorReport :=
  { code := filterCode e, message := e.message, cause := some e.message }

def withContext (r : ErrorReport) (key : String) (value : Json) : ErrorReport :=
  { r with details := r.details.withContext key value }

def status (r : ErrorReport) : Nat := r.code.status

def severity (r : ErrorReport) : Severity := r.code.severity

def text (r : ErrorReport) : String :=
  let inner :=
    match r.internal with
    | some s => " (internal: " ++ s ++ ")"
    | none => ""
  "[" ++ r.code.name ++ "] " ++ r.message ++ inner

def body (r : ErrorReport) (now : Instant) : Json :=
  let details := if r.details.isEmpty then [] else [("details", r.details.json)]
  .object [("success", .bool false), ("error", .object ([("code", r.code.json),
    ("numeric_code", Json.nat r.code.number), ("message", .string r.message)] ++ details ++
    [("timestamp", .string now.zuluText)]))]

def reply (r : ErrorReport) (now : Instant) : Reply := ⟨r.status, .json (r.body now)⟩

end ErrorReport

/-- The part of an error's body that says what went wrong. -/
structure ErrorInfo where
  code : ErrorCode
  number : Int
  message : String
  details : Option ErrorDetails
  timestamp : Option Instant

namespace ErrorInfo

def slots : List (Slot ErrorInfo) :=
  [ .of "code" [] .required ErrorCode.decode fun c i => { i with code := c },
    .of "numeric_code" [] .required (Decoder.ranged 0 4294967295)
      fun n i => { i with number := n.val },
    .of "message" [] .required Decoder.string fun s i => { i with message := s },
    .of "details" [] .optional (Decoder.option ErrorDetails.decode)
      fun d i => { i with details := d },
    .of "timestamp" [] .required Decoder.dateTime fun t i => { i with timestamp := some t } ]

def decode : Decoder ErrorInfo := Slot.record ⟨.internalError, 0, "", none, none⟩ slots

end ErrorInfo

/-- The body of an answer with an error, as a client reads it. -/
structure ErrorBody where
  success : Bool
  error : Option ErrorInfo

namespace ErrorBody

def slots : List (Slot ErrorBody) :=
  [ .of "success" [] .required Decoder.bool fun b e => { e with success := b },
    .of "error" [] .required ErrorInfo.decode fun i e => { e with error := some i } ]

def decode : Decoder ErrorBody := Slot.record ⟨false, none⟩ slots

end ErrorBody

end RecordGate
