import RecordGate.Schema.Entity
import RecordGate.Schema.Wire

/-!
# Summaries of schemas

What is told to clients about an entity: its name and its fields, with those that a search looks
into.
-/

namespace RecordGate

open Json (Decoder Slot)

structure FieldSummary where
  name : String
  type : FieldType
  searchable : Bool
deriving DecidableEq

namespace FieldSummary

def json (f : FieldSummary) : Json :=
  .object [("name", .string f.name), ("fieldType", f.type.json), ("searchable", .bool f.searchable)]

def slots : List (Slot FieldSummary) :=
  [ .of "name" [] .required Decoder.string fun s f => { f with name := s },
    .of "fieldType" [] .required FieldType.decode fun t f => { f with type := t },
    .of "searchable" [] .required Decoder.bool fun b f => { f with searchable := b } ]

def decode : Decoder FieldSummary := Slot.record ⟨"", .text, false⟩ slots

end FieldSummary

structure SchemaSummary where
  entityName : String
  fields : List FieldSummary
deriving DecidableEq

namespace SchemaSummary

def json (s : SchemaSummary) : Json :=
  .object [("entityName", .string s.entityName), ("fields", .array (s.fields.map FieldSummary.json))]

def slots : List (Slot SchemaSummary) :=
  [ .of "entityName" [] .required Decoder.string fun s t => { t with entityName := s },
    .of "fields" [] .required (Decoder.list FieldSummary.decode) fun fs t => { t with fields := fs } ]

def decode : Decoder SchemaSummary := Slot.record ⟨"", []⟩ slots

end SchemaSummary

namespace Schema

variable {ρ : Type}

def summary (schema : Schema ρ) : SchemaSummary :=
  ⟨schema.name, schema.fields.map fun f => ⟨f.name, f.type, f.type.isText⟩⟩

end Schema

end RecordGate
