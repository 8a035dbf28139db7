import RecordGate.Error.Report
import RecordGate.Filter.Predicate

/-!
# Stores

A store holds the records of an entity in the order in which they were put in. Records are found by
their key. An operation that fails says why and leaves the store as it is.
-/

namespace RecordGate

inductive StoreError
  | notFound (entity : String) (key : Uuid)
  | duplicate (entity : String) (key : Uuid)
  | backend (detail : String)

namespace StoreError

def message : StoreError → String
  | .notFound entity key => entity ++ " not found: " ++ key.text
  | .duplicate entity key => entity ++ " already exists: " ++ key.text
  | .backend detail => "Storage backend error: " ++ detail

/-- The failure as an error of the service. -/
def report : StoreError → ErrorReport
  | .notFound entity key => .notFound entity key.text
  | .duplicate entity key =>
      let message := (duplicate entity key).message
      { code := .duplicateRecord, message := message, cause := some message }
  | .backend detail =>
      { code := .storageError, message := "Storage operation failed", internal := some detail,
        cause := some (backend detail).message }

end StoreError

/-- The records of an entity in the order in which they were put in. -/
structure Store (ρ : Type) where
  records : List ρ

namespace Store

variable {ρ : Type} [Entity ρ]

def entityName (ρ : Type) [Entity ρ] : String := (Entity.schema (ρ := ρ)).name

def hasKey (key : Uuid) (r : ρ) : Bool := Entity.key r == key

def find (s : Store ρ) (p : Predicate) : List ρ := s.records.filter (p.holds Entity.schema)

def get (s : Store ρ) (key : Uuid) : Except StoreError ρ :=
  match s.records.find? (hasKey key) with
  | some r => .ok r
  | none => .error (.notFound (entityName ρ) key)

def insert (s : Store ρ) (r : ρ) : Except StoreError (Store ρ) :=
  if s.records.any (hasKey (Entity.key r)) then .error (.duplicate (entityName ρ) (Entity.key r))
  else .ok ⟨s.records ++ [r]⟩

/-- Puts a record in the place of the first one with its key. -/
def replaceFirst (r : ρ) : List ρ → Option (List ρ)
  | [] => none
  | x :: rest =>
      if hasKey (Entity.key r) x then some (r :: rest) else (replaceFirst r rest).map (x :: ·)

def update (s : Store ρ) (r : ρ) : Except StoreError (Store ρ) :=
  match replaceFirst r s.records with
  | some records => .ok ⟨records⟩
  | none => .error (.notFound (entityName ρ) (Entity.key r))

def delete (s : Store ρ) (key : Uuid) : Except StoreError (Store ρ) :=
  let rest := s.records.filter fun r => !hasKey key r
  if rest.length == s.records.length then .error (.notFound (entityName ρ) key) else .ok ⟨rest⟩

end Store

end RecordGate
