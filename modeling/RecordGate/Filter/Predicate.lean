import RecordGate.Filter.Operator
import RecordGate.Schema.Entity
import RecordGate.Text.Search

/-!
# Predicates

A predicate is a tree of conditions on a record. Everything that is computed from it follows its
shape: the leaves from left to right, its text, and whether it holds for a record. A condition on a
field that the record does not have never holds.
-/

namespace RecordGate

inductive Predicate
  | matchAll
  | compare (field : String) (op : ComparisonOp) (value : Value)
  | contains (field : String) (term : String)
  | and (left right : Predicate)
  | or (left right : Predicate)
deriving DecidableEq

namespace Predicate

def isMatchAll (p : Predicate) : Bool :=
  match p with
  | .matchAll => true
  | _ => false

def leaves : Predicate → List Predicate
  | .matchAll => []
  | .compare field op value => [.compare field op value]
  | .contains field term => [.contains field term]
  | .and left right => left.leaves ++ right.leaves
  | .or left right => left.leaves ++ right.leaves

def leafCount (p : Predicate) : Nat := p.leaves.length

theorem leafCount_and (left right : Predicate) :
    (and left right).leafCount = left.leafCount + right.leafCount := List.length_append

theorem leafCount_or (left right : Predicate) :
    (or left right).leafCount = left.leafCount + right.leafCount := List.length_append

/-- Zero for the condition that always holds, one for any other leaf, and one more than the deeper
branch for a join. -/
def depth : Predicate → Nat
  | .matchAll => 0
  | .compare _ _ _ => 1
  | .contains _ _ => 1
  | .and left right => 1 + Nat.max left.depth right.depth
  | .or left right => 1 + Nat.max left.depth right.depth

def text : Predicate → String
  | .matchAll => "TRUE"
  | .compare field op value => field ++ " " ++ op.symbol ++ " " ++ value.display
  | .contains field term => field ++ " CONTAINS " ++ Value.quoted term
  | .and left right => "(" ++ left.text ++ " AND " ++ right.text ++ ")"
  | .or left right => "(" ++ left.text ++ " OR " ++ right.text ++ ")"

/-- The nodes in the order in which they are left: children first, the left one before the right. -/
def trace : Predicate → List String
  | .matchAll => ["all"]
  | .compare field op value => [field ++ op.symbol ++ value.display]
  | .contains field term => [field ++ "~" ++ term]
  | .and left right => left.trace ++ (right.trace ++ ["and"])
  | .or left right => left.trace ++ (right.trace ++ ["or"])

variable {ρ : Type}

/-- A comparison holds for a record that has the field. -/
def holdsCompare (schema : Schema ρ) (record : ρ) (field : String) (op : ComparisonOp)
    (value : Value) : Bool :=
  match schema.read? record field with
  | some actual => op.accepts (actual.compare value)
  | none => false

/-- A search term occurs in a field of a record that holds a text. -/
def holdsContains (schema : Schema ρ) (record : ρ) (field : String) (term : String) : Bool :=
  match (schema.read? record field).bind Value.asText? with
  | some s => Text.contains s term
  | none => false

def holds (schema : Schema ρ) (record : ρ) : Predicate → Bool
  | .matchAll => true
  | .compare field op value => holdsCompare schema record field op value
  | .contains field term => holdsContains schema record field term
  | .and left right => holds schema record left && holds schema record right
  | .or left right => holds schema record left || holds schema record right

end Predicate

end RecordGate
