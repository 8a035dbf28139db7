import RecordGate.Schema.Summary
import RecordGate.Text.Lowercase
import RecordGate.Text.Quoted

/-!
# The registry of schemas

A registry keeps the schema of every kind of record that was described to it. A schema is built once
and kept; building it may describe other kinds of records first. Summaries are found by name in any
case of letters.
-/

namespace RecordGate

/-- How the schema of a kind of record is built. The identity tells kinds apart; the parts are the
kinds that are described on the way. -/
inductive Blueprint
  | mk (identity : Nat) (summary : SchemaSummary) (parts : List Blueprint)

def Blueprint.summary : Blueprint → SchemaSummary
  | .mk _ summary _ => summary

/-- The schemas built so far by identity, and their summaries by name in lower case. -/
structure Registry where
  built : List (Nat × SchemaSummary)
  summaries : List (String × SchemaSummary)

namespace Registry

def empty : Registry := ⟨[], []⟩

/-- The schema of a kind of record, when it has been built. -/
def built? (r : Registry) (identity : Nat) : Option SchemaSummary :=
  (r.built.find? fun e => e.1 == identity).map (·.2)

/-- Puts an entry in the place of one with the same key, or at the end. -/
def put (key : String) (s : SchemaSummary) : List (String × SchemaSummary) →
    List (String × SchemaSummary)
  | [] => [(key, s)]
  | (k, t) :: rest => if k == key then (key, s) :: rest else (k, t) :: put key s rest

/-- A schema has been built. -/
def record (r : Registry) (identity : Nat) (s : SchemaSummary) : Registry :=
  ⟨(identity, s) :: r.built, put (Text.lowercase s.entityName) s r.summaries⟩

mutual

/-- The registry after a kind of record is described. -/
def describe (r : Registry) : Blueprint → Registry
  | .mk identity summary parts =>
      match r.built? identity with
      | some _ => r
      | none => (describeAll r parts).record identity summary

def describeAll (r : Registry) : List Blueprint → Registry
  | [] => r
  | b :: rest => describeAll (describe r b) rest

end

/-- The summary of a described kind of record, by its name in any case of letters. -/
def summary? (r : Registry) (name : String) : Option SchemaSummary :=
  (r.summaries.find? fun e => e.1 == Text.lowercase name).map (·.2)

def entityNames (r : Registry) : List String :=
  Text.sorted (r.summaries.map fun e => e.2.entityName)

def debugText (r : Registry) : String :=
  "SchemaRegistry \x7b entities: [" ++ Text.join ", " (r.entityNames.map Text.shown) ++ "] \x7d"

end Registry

/-- The line that diagnostics show for a field. -/
def Field.debugText {ρ : Type} (f : Field ρ) : String :=
  "FieldDescriptor \x7b name: " ++ Text.shown f.name ++ ", field_type: " ++ f.type.debugName ++
    " \x7d"

end RecordGate
