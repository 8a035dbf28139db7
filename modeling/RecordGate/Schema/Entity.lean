import RecordGate.Schema.Value

/-!
# Entities

An entity is a kind of record: it has a name, fields that read values out of a record, and a key.
A field is found by its exact name first, and by its name without regard to ASCII case second.
-/

namespace RecordGate

/-- A named field of the records of type `ρ`. -/
structure Field (ρ : Type) where
  name : String
  type : FieldType
  read : ρ → Value

/-- What is known of a kind of record. -/
structure Schema (ρ : Type) where
  name : String
  fields : List (Field ρ)

/-- A kind of record, with the identifier under which a record is kept. -/
class Entity (ρ : Type) where
  schema : Schema ρ
  key : ρ → Uuid

namespace Schema

variable {ρ : Type}

/-- The field with the given name, or else the first whose name differs from it in case only. -/
def field? (schema : Schema ρ) (name : String) : Option (Field ρ) :=
  (schema.fields.find? fun f => f.name == name).or
    (schema.fields.find? fun f => Text.sameName f.name name)

/-- The fields that a search looks into. -/
def textFields (schema : Schema ρ) : List (Field ρ) := schema.fields.filter (·.type.isText)

/-- The value that a record has in the field of a name, when there is such a field. -/
def read? (schema : Schema ρ) (record : ρ) (name : String) : Option Value :=
  (schema.field? name).map (·.read record)

end Schema

end RecordGate
