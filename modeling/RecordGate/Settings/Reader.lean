import RecordGate.Calendar.SpanReader
import RecordGate.Settings.Setting

/-!
# Reading settings

Readers that make typed values of settings. A record is read from a table, in which names that are
not known are passed over, or from a list of its values in order.
-/

namespace RecordGate

abbrev SettingReader (α : Type) := Setting → Except SettingFault α

namespace SettingReader

variable {α β : Type}

/-- A value that is not nothing. -/
def option (read : SettingReader α) : SettingReader (Option α)
  | .nothing => .ok none
  | s => (read s).map some

def list (read : SettingReader α) : SettingReader (List α)
  | .list items => items.mapM read
  | _ => .error .unfit

def dictionary (read : SettingReader α) : SettingReader (List (String × α))
  | .table members => members.mapM fun m => (read m.2).map fun a => (m.1, a)
  | _ => .error .unfit

def span : SettingReader Span := fun s => do
  let text ← s.toText
  match Span.read? text with
  | some t => return t
  | none => throw .unfit

/-- A whole number up to a bound. -/
def upTo (bound : Nat) : SettingReader Nat := fun s => do
  let n ← s.toNatural
  if Nat.ble n bound then return n else throw .unconvertible

/-- One of some names, in any letter case, as a text or as the only name of a table. -/
def choice (names : List (String × α)) : SettingReader α := fun s =>
  let named (name : String) : Except SettingFault α :=
    match names.find? fun entry => entry.1 == Text.lowercase name with
    | some entry => .ok entry.2
    | none => .error .unfit
  match s with
  | .text name => named name
  | .table [(name, _)] => named name
  | _ => .error .unfit

end SettingReader

/-- A field of a record of settings: its name, whether it must be there, and how it is stored. -/
structure SettingField (δ : Type) where
  name : String
  required : Bool
  store : Setting → δ → Except SettingFault δ

namespace SettingField

variable {δ β : Type}

/-- A field that keeps its start value when it is absent. -/
def of (name : String) (read : SettingReader β) (set : β → δ → δ) : SettingField δ :=
  ⟨name, false, fun s d => (read s).map fun b => set b d⟩

def mandatory (name : String) (read : SettingReader β) (set : β → δ → δ) : SettingField δ :=
  ⟨name, true, fun s d => (read s).map fun b => set b d⟩

def fill (fields : List (SettingField δ)) : List (String × Setting) → δ → Except SettingFault δ
  | [], d => .ok d
  | (name, value) :: rest, d =>
      match fields.find? fun f => f.name == name with
      | none => fill fields rest d
      | some f => do
          let d ← f.store value d
          fill fields rest d

/-- Stores values in the order of the fields. -/
def fillInOrder : List (SettingField δ) → List Setting → δ → Except SettingFault δ
  | [], _, d => .ok d
  | f :: fields, [], d => if f.required then .error .unfit else fillInOrder fields [] d
  | f :: fields, value :: values, d => do
      let d ← f.store value d
      fillInOrder fields values d

def record (start : δ) (fields : List (SettingField δ)) : SettingReader δ
  | .table members => do
      let d ← fill fields members start
      if fields.all fun f => !f.required || members.any fun m => m.1 == f.name then return d
      else throw .unfit
  | .list values => fillInOrder fields values start
  | _ => .error .unfit

end SettingField

end RecordGate
