import RecordGate.Json.Decode
import RecordGate.Schema.Value

/-!
# Field values in JSON

A value is written as an object of its type and its content; null has no content. It is read with
type and content in either order, or from an array of the two. When the content comes first it is
read as any value before its type is known.
-/

namespace RecordGate

namespace FieldType

/-- The type names of JSON. -/
def wireNames : List (String × FieldType) := all.map fun t => (t.wireName, t)

def json (t : FieldType) : Json := .string t.wireName

def decode : Json.Decoder FieldType := Json.Decoder.choice wireNames

end FieldType

namespace Value

open Json (Decoder Fault Node)

/-- The type names of JSON with that of null. -/
def kinds : List (String × Option FieldType) :=
  ("null", none) :: FieldType.wireNames.map fun (name, t) => (name, some t)

/-- The content of a value of a type; nothing but null is the content of null. -/
def content : Option FieldType → Decoder Value
  | none, _, .null => .ok .null
  | none, depth, .array _ _ => do
      let _ ← Node.inside depth
      .error .mismatch
  | none, depth, .object _ _ => do
      let _ ← Node.inside depth
      .error .mismatch
  | none, _, node => .error node.unexpected
  | some .text, depth, node => (Decoder.string depth node).map .text
  | some .integer, depth, node => (Decoder.ranged _ _ depth node).map .integer
  | some .float, depth, node => (Decoder.float depth node).map .float
  | some .boolean, depth, node => (Decoder.bool depth node).map .boolean
  | some .uuid, depth, node => (Decoder.uuid depth node).map .uuid
  | some .dateTime, depth, node => (Decoder.dateTime depth node).map .dateTime
  | some .date, depth, node => (Decoder.date depth node).map .date

/-- What is known of a value while the members of its object are read. -/
inductive Progress
  | start
  | tagged (kind : Option FieldType)
  | held (content : Json)
  | complete (value : Value)

/-- One member is read. -/
def member (depth : Nat) (key : String) (node : Node) : Progress → Except Fault Progress
  | .start =>
      if key == "type" then (Decoder.choice kinds depth node).map .tagged
      else if key == "value" then (Node.read depth node).map .held
      else do
        node.skip
        return .start
  | .tagged kind =>
      if key == "type" then .error .mismatch
      else if key == "value" then (content kind depth node).map .complete
      else do
        node.skip
        return .tagged kind
  | .held json =>
      if key == "type" then do
        let kind ← Decoder.choice kinds depth node
        let value ← Json.decodeValue (content kind) json
        return .complete value
      else if key == "value" then .error .mismatch
      else do
        node.skip
        return .held json
  | .complete value =>
      if key == "type" || key == "value" then .error .mismatch
      else do
        node.skip
        return .complete value

/-- The members of the object are read in order. -/
def membersFrom (depth : Nat) : List (Option String × Node) → Progress → Except Fault Progress
  | [], p => .ok p
  | (none, _) :: _, _ => .error .malformed
  | (some key, node) :: rest, p => do
      let p ← member depth key node p
      membersFrom depth rest p

/-- The value that the members gave. -/
def Progress.value : Progress → Except Fault Value
  | .tagged none => .ok .null
  | .complete value => .ok value
  | _ => .error .mismatch

/-- Reads a value from an object or from an array of type and content. -/
def decode : Decoder Value
  | depth, .object members cut => do
      let inner ← Node.inside depth
      let p ← membersFrom inner members .start
      Node.closed cut
      p.value
  | depth, .array items cut => do
      let inner ← Node.inside depth
      match items with
      | [] => do
          Node.closed cut
          .error .mismatch
      | first :: rest => do
          let kind ← Decoder.choice kinds inner first
          match rest with
          | [] => do
              Node.closed cut
              .error .mismatch
          | second :: more => do
              let value ← content kind inner second
              if more.isEmpty then
                Node.closed cut
                return value
              else .error .malformed
  | _, node => .error node.unexpected

def contentJson : Value → Json
  | .null => .null
  | .text s => .string s
  | .integer n => .int n.val
  | .float x => .number (.float x)
  | .boolean b => .bool b
  | .uuid u => .string u.text
  | .dateTime t => .string t.zuluText
  | .date d => .string d.text

def json (v : Value) : Json :=
  match v.type? with
  | none => .object [("type", .string "null")]
  | some t => .object [("type", t.json), ("value", v.contentJson)]

end Value

end RecordGate
