import RecordGate.Filter.Predicate
import RecordGate.Schema.Wire

/-!
# Predicates in JSON

A predicate is written as an object with its kind and its parts. It is read from such an object with
the members in any order, or from an array of the kind and the parts. All of a predicate is read
before any part of it is judged, except for its kind.
-/

namespace RecordGate

open Json (Decoder Fault Node Slot)

namespace ComparisonOp

def json (op : ComparisonOp) : Json := .string op.name

def decode : Decoder ComparisonOp := Decoder.choice (all.map fun op => (op.name, op))

end ComparisonOp

namespace Predicate

inductive Kind
  | matchAll
  | compare
  | contains
  | and
  | or
deriving DecidableEq

def Kind.names : List (String × Kind) :=
  [("match_all", .matchAll), ("compare", .compare), ("contains", .contains), ("and", .and),
    ("or", .or)]

/-- The parts of a predicate, before its kind is taken into account. -/
structure Parts where
  field : String
  op : ComparisonOp
  value : Value
  term : String

def Parts.blank : Parts := ⟨"", .equals, .null, ""⟩

def compareSlots : List (Slot Parts) :=
  [ .of "field" [] .required Decoder.string fun s p => { p with field := s },
    .of "op" [] .required ComparisonOp.decode fun o p => { p with op := o },
    .of "value" [] .required Value.decode fun v p => { p with value := v } ]

def containsSlots : List (Slot Parts) :=
  [ .of "field" [] .required Decoder.string fun s p => { p with field := s },
    .of "term" [] .required Decoder.string fun s p => { p with term := s } ]

/-- A comparison or a search from its parts. -/
def ofParts (slots : List (Slot Parts)) (make : Parts → Predicate) (body : Json) :
    Option Predicate :=
  match Json.decodeValue (Slot.record Parts.blank slots) body with
  | .ok parts => some (make parts)
  | .error _ => none

def ofCompareParts (p : Parts) : Predicate := .compare p.field p.op p.value

def ofContainsParts (p : Parts) : Predicate := .contains p.field p.term

/-- The kind that a value names, or gives by its place among the kinds. -/
def kind? : Json → Option Kind
  | .string s => Decoder.named Kind.names s
  | .number (.int (.ofNat n)) => (Kind.names[n]?).map (·.2)
  | _ => none

def only? {α : Type} (name : String) (entries : List (String × α)) : Option α :=
  match entries.filter fun e => e.1 == name with
  | [(_, a)] => some a
  | _ => none

/-- A join of the branches named `left` and `right`. -/
def joinNamed (make : Predicate → Predicate → Predicate)
    (branches : List (String × Option Predicate)) : Option Predicate := do
  let left ← only? "left" branches
  let right ← only? "right" branches
  return make (← left) (← right)

/-- The predicate that members stand for, each with the predicate that it stands for itself. -/
def ofMembers (members : List (String × Json)) (branches : List (String × Option Predicate)) :
    Option Predicate := do
  let kind ← (only? "kind" members).bind kind?
  let body := Json.object (members.filter fun m => m.1 != "kind")
  match kind with
  | .matchAll => some .matchAll
  | .compare => ofParts compareSlots ofCompareParts body
  | .contains => ofParts containsSlots ofContainsParts body
  | .and => joinNamed .and branches
  | .or => joinNamed .or branches

/-- The predicate that the elements of an array stand for, each with that of its own. -/
def ofElements : List Json → List (Option Predicate) → Option Predicate
  | [], _ => none
  | first :: rest, branches => do
      let kind ← kind? first
      match kind, branches.drop 1 with
      | .matchAll, _ => if rest.isEmpty then some .matchAll else none
      | .compare, _ => ofParts compareSlots ofCompareParts (.array rest)
      | .contains, _ => ofParts containsSlots ofContainsParts (.array rest)
      | .and, [some left, some right] => some (.and left right)
      | .or, [some left, some right] => some (.or left right)
      | _, _ => none

mutual

def ofJson : Json → Option Predicate
  | .object members => ofMembers members (memberBranches members)
  | .array items => ofElements items (itemBranches items)
  | _ => none

def memberBranches : List (String × Json) → List (String × Option Predicate)
  | [] => []
  | (key, value) :: rest => (key, ofJson value) :: memberBranches rest

def itemBranches : List Json → List (Option Predicate)
  | [] => []
  | item :: rest => ofJson item :: itemBranches rest

end

def decodeKind : Decoder Kind := Decoder.refine Decoder.string (Decoder.named Kind.names)

/-- Reads the members of an object; the kind is judged where it stands and must come only once. -/
def readMembers (depth : Nat) : Bool → List (Option String × Node) →
    Except Fault (List (String × Json))
  | _, [] => .ok []
  | _, (none, _) :: _ => .error .malformed
  | seen, (some key, node) :: rest =>
      if key == "kind" then
        if seen then .error .mismatch
        else do
          let _ ← decodeKind depth node
          let value ← Node.read depth node
          let others ← readMembers depth true rest
          return (key, value) :: others
      else do
        let value ← Node.read depth node
        let others ← readMembers depth seen rest
        return (key, value) :: others

def decode : Decoder Predicate
  | depth, .object members cut => do
      let inner ← Node.inside depth
      let entries ← readMembers inner false members
      Node.closed cut
      Json.expect (ofJson (.object entries))
  | depth, .array items cut => do
      let inner ← Node.inside depth
      match items with
      | [] => do
          Node.closed cut
          .error .mismatch
      | first :: rest => do
          let _ ← decodeKind inner first
          let kind ← Node.read inner first
          let values ← Node.readItems inner rest
          Node.closed cut
          Json.expect (ofJson (.array (kind :: values)))
  | _, node => .error node.unexpected

def json : Predicate → Json
  | .matchAll => .object [("kind", .string "match_all")]
  | .compare field op value =>
      .object [("kind", .string "compare"), ("field", .string field), ("op", op.json),
        ("value", value.json)]
  | .contains field term =>
      .object [("kind", .string "contains"), ("field", .string field), ("term", .string term)]
  | .and left right =>
      .object [("kind", .string "and"), ("left", left.json), ("right", right.json)]
  | .or left right =>
      .object [("kind", .string "or"), ("left", left.json), ("right", right.json)]

end Predicate

end RecordGate
