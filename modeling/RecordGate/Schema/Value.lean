import RecordGate.Calendar.Reader
import RecordGate.Number.Decimal
import RecordGate.Uuid

/-!
# Field values

The values that a field of a record can hold, the types of such fields, and the reading of values
from the raw text of a criterion. Two values have an order when they are of one type, or are an
integer and a float; a null has no order with anything.
-/

namespace RecordGate

/-- The type of a field. -/
inductive FieldType
  | text
  | integer
  | float
  | boolean
  | uuid
  | dateTime
  | date
deriving DecidableEq, Repr

namespace FieldType

def all : List FieldType := [.text, .integer, .float, .boolean, .uuid, .dateTime, .date]

def isText (t : FieldType) : Bool := t == .text

/-- The name shown to people. -/
def name : FieldType → String
  | .text => "text"
  | .integer => "integer"
  | .float => "float"
  | .boolean => "boolean"
  | .uuid => "uuid"
  | .dateTime => "datetime"
  | .date => "date"

/-- The name used in JSON. -/
def wireName : FieldType → String
  | .dateTime => "date_time"
  | t => t.name

/-- The name used in diagnostic output. -/
def debugName : FieldType → String
  | .text => "Text"
  | .integer => "Integer"
  | .float => "Float"
  | .boolean => "Boolean"
  | .uuid => "Uuid"
  | .dateTime => "DateTime"
  | .date => "Date"

end FieldType

/-- What a field of a record holds. -/
inductive Value
  | null
  | text (content : String)
  | integer (n : Integer64)
  | float (x : Binary64)
  | boolean (b : Bool)
  | uuid (u : Uuid)
  | dateTime (t : Instant)
  | date (d : Date)
deriving DecidableEq

namespace Value

def isNull (v : Value) : Bool := v == .null

/-- The type of a value that is not null. -/
def type? : Value → Option FieldType
  | .null => none
  | .text _ => some .text
  | .integer _ => some .integer
  | .float _ => some .float
  | .boolean _ => some .boolean
  | .uuid _ => some .uuid
  | .dateTime _ => some .dateTime
  | .date _ => some .date

def asText? : Value → Option String
  | .text s => some s
  | _ => none

def orderBool : Bool → Bool → Ordering
  | false, true => .lt
  | true, false => .gt
  | _, _ => .eq

/-- The order of two values, when they have one. An integer meets a float as the double nearest to
it. -/
def compare : Value → Value → Option Ordering
  | .text a, .text b => some (Text.order a b)
  | .integer a, .integer b => some (Date.orderInt a.val b.val)
  | .float a, .float b => a.compare b
  | .integer a, .float b => (Binary64.ofInt a.val).compare b
  | .float a, .integer b => a.compare (Binary64.ofInt b.val)
  | .boolean a, .boolean b => some (orderBool a b)
  | .uuid a, .uuid b => some (a.order b)
  | .dateTime a, .dateTime b => some (a.order b)
  | .date a, .date b => some (a.order b)
  | _, _ => none

/-- A text between single quotes, with nothing escaped. -/
def quoted (s : String) : String := "'" ++ s ++ "'"

/-- The form in which a value is shown inside an expression. -/
def display : Value → String
  | .null => "NULL"
  | .text s => quoted s
  | .integer n => toString n.val
  | .float x => Decimal.plain x
  | .boolean b => if b then "true" else "false"
  | .uuid u => quoted u.text
  | .dateTime t => quoted t.text
  | .date d => quoted d.text

end Value

/-- A raw text that is no value of the expected type. -/
structure ConversionError where
  expected : FieldType
  raw : String
deriving DecidableEq

namespace FieldType

/-- Reads a whole number that fits into 64 bits. -/
def integer? (s : List Char) : Option Integer64 := (signed? s).bind Ranged.ofInt?

def boolean? (s : String) : Option Bool :=
  if Text.sameName s "true" then some true
  else if Text.sameName s "false" then some false
  else none

/-- Reads a raw text as a value of the type. A text is taken as it stands; before any other type
blanks at the ends are removed. -/
def value? (t : FieldType) (raw : String) : Option Value :=
  let s := Text.trimmed raw.toList
  match t with
  | .text => some (.text raw)
  | .integer => (integer? s).map .integer
  | .float => ((Decimal.read? s).filter Binary64.isFinite).map .float
  | .boolean => (boolean? (String.ofList s)).map .boolean
  | .uuid => (Uuid.read? s).map .uuid
  | .dateTime => (Calendar.typed? s).map .dateTime
  | .date => (Calendar.day? s).map .date

/-- Reads a raw text as a value of the type, or says what was expected. -/
def parse (t : FieldType) (raw : String) : Except ConversionError Value :=
  match t.value? raw with
  | some v => .ok v
  | none => .error ⟨t, raw⟩

/-- What a type converts is a value of that type, never null. -/
theorem type?_of_value? {t : FieldType} {raw : String} {v : Value} (h : t.value? raw = some v) :
    v.type? = some t := by
  cases t <;> simp only [value?, Option.map_eq_some_iff, Option.some.injEq] at h
  · subst h
    rfl
  all_goals
    obtain ⟨a, -, rfl⟩ := h
    rfl

end FieldType

end RecordGate
