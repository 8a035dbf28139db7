import RecordGate.Filter.Predicate
import RecordGate.Filter.Query

/-!
# Compiling a query

A query is checked against the schema of an entity and made into a predicate. The criteria are taken
in order: one on the same property as the one before it is joined to all before by `or`, any other
by `and`. A search term asks for any text field that contains it, and is joined to the criteria by
`and`. The first criterion with a fault decides the error.
-/

namespace RecordGate

/-- Why a query cannot be compiled. -/
inductive FilterError
  | unknownProperty (entity property : String)
  | conversion (property : String) (expected : FieldType) (raw : String)
  | unsupportedOperator (raw : String)
deriving DecidableEq

namespace FilterError

def message : FilterError → String
  | .unknownProperty entity property =>
      "Property '" ++ property ++ "' does not exist on entity '" ++ entity ++ "'"
  | .conversion property expected raw =>
      "Value '" ++ raw ++ "' for property '" ++ property ++ "' is not a valid " ++ expected.name
  | .unsupportedOperator raw => "Operator '" ++ raw ++ "' is not supported"

end FilterError

/-- Reads an operator, or says that there is none of that name. -/
def ComparisonOp.parse (raw : String) : Except FilterError ComparisonOp :=
  match parse? raw with
  | some op => .ok op
  | none => .error (.unsupportedOperator raw)

namespace Schema

variable {ρ : Type}

def compileCriterion (schema : Schema ρ) (c : FilterCriterion) : Except FilterError Predicate :=
  match schema.field? c.property with
  | none => .error (.unknownProperty schema.name c.property)
  | some field =>
      match field.type.parse c.value with
      | .error e => .error (.conversion field.name e.expected e.raw)
      | .ok value =>
          match ComparisonOp.parse c.operator with
          | .error e => .error e
          | .ok op => .ok (.compare field.name op value)

/-- Joins the criteria after the first one to the predicate so far; the property of the criterion
before is given. -/
def foldCriteria (schema : Schema ρ) : Predicate → String → List FilterCriterion →
    Except FilterError Predicate
  | running, _, [] => .ok running
  | running, previous, c :: rest => do
      let condition ← schema.compileCriterion c
      let joined := if previous == c.property then .or running condition else .and running condition
      schema.foldCriteria joined c.property rest

def compileCriteria (schema : Schema ρ) : List FilterCriterion →
    Except FilterError (Option Predicate)
  | [] => .ok none
  | c :: rest => do
      let condition ← schema.compileCriterion c
      let folded ← schema.foldCriteria condition c.property rest
      return some folded

/-- The predicate of a search term, if there is one and a field to look into. -/
def searchPredicate (schema : Schema ρ) (term : String) : Option Predicate :=
  if term.isEmpty then none
  else
    match schema.textFields with
    | [] => none
    | field :: rest =>
        some (rest.foldl (fun p f => .or p (.contains f.name term)) (.contains field.name term))

def joinSearch : Option Predicate → Option Predicate → Predicate
  | some search, some folded => .and search folded
  | some only, none => only
  | none, some only => only
  | none, none => .matchAll

def compile (schema : Schema ρ) (criteria : List FilterCriterion) (term : String) :
    Except FilterError Predicate := do
  let folded ← schema.compileCriteria criteria
  return joinSearch (schema.searchPredicate term) folded

def compileQuery (schema : Schema ρ) (query : FilterQuery) : Except FilterError Predicate :=
  schema.compile query.filters query.term

end Schema

end RecordGate
