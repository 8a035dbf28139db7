import RecordGate.Json.Decode
import RecordGate.Text.Search

/-!
# Filter queries

A criterion names a property, an operator and a raw value. It has a short form with colons, in which
only the first two colons count. A query is a list of criteria with an optional search term; in
JSON each name may begin with a small or a capital letter.
-/

namespace RecordGate

open Json (Decoder Slot)

/-- One condition on a record, as raw texts. -/
structure FilterCriterion where
  property : String
  operator : String
  value : String
deriving DecidableEq

namespace FilterCriterion

def text (c : FilterCriterion) : String := c.property ++ ":" ++ c.operator ++ ":" ++ c.value

/-- Reads the short form; property and operator must not be empty. -/
def parseShorthand? (input : String) : Option FilterCriterion := do
  let (property, rest) ← Text.splitFirst ':' input.toList
  let (operator, value) ← Text.splitFirst ':' rest
  if property.isEmpty || operator.isEmpty then none
  else return ⟨String.ofList property, String.ofList operator, String.ofList value⟩

def slots : List (Slot FilterCriterion) :=
  [ .of "propertyName" ["PropertyName"] .required Decoder.string fun s c => { c with property := s },
    .of "operator" ["Operator"] .required Decoder.string fun s c => { c with operator := s },
    .of "value" ["Value"] .defaulted Decoder.string fun s c => { c with value := s } ]

def decode : Decoder FilterCriterion := Slot.record ⟨"", "", ""⟩ slots

def json (c : FilterCriterion) : Json :=
  .object [("propertyName", .string c.property), ("operator", .string c.operator),
    ("value", .string c.value)]

end FilterCriterion

structure FilterQuery where
  filters : List FilterCriterion
  searchTerm : Option String
deriving DecidableEq

namespace FilterQuery

def empty : FilterQuery := ⟨[], none⟩

/-- The term to search for; an absent one is empty. -/
def term (q : FilterQuery) : String := q.searchTerm.getD ""

def slots : List (Slot FilterQuery) :=
  [ .of "filters" ["Filters"] .defaulted (Decoder.list FilterCriterion.decode)
      fun fs q => { q with filters := fs },
    .of "searchTerm" ["SearchTerm"] .defaulted (Decoder.option Decoder.string)
      fun s q => { q with searchTerm := s } ]

def decode : Decoder FilterQuery := Slot.record empty slots

def json (q : FilterQuery) : Json :=
  let term :=
    match q.searchTerm with
    | some s => [("searchTerm", Json.string s)]
    | none => []
  .object (("filters", .array (q.filters.map FilterCriterion.json)) :: term)

end FilterQuery

end RecordGate
