import RecordGate.Text.Search
import RecordGate.Text.Utf8
import RecordGate.Uuid

/-!
# Percent escapes

A percent sign and two hexadecimal digits stand for a byte; a percent sign before anything else
stands for itself. In a query string a plus sign stands for a blank, and a query string is a list of
names and values.
-/

namespace RecordGate.Percent

/-- The bytes of a text with its escapes resolved. -/
def bytes : List Char → List UInt8
  | '%' :: a :: b :: rest =>
      match hexFrom? 0 [a, b] with
      | some n => .ofNat n :: bytes rest
      | none => Text.bytes "%" ++ bytes (a :: b :: rest)
  | c :: rest => Text.bytes (String.ofList [c]) ++ bytes rest
  | [] => []

/-- The text with its escapes resolved, when the bytes are well formed. -/
def decode? (s : String) : Option String := Text.ofBytes? (bytes s.toList)

/-- A text with its escapes resolved; bytes that are not well formed are replaced. -/
def field (s : List Char) : String :=
  Text.ofBytesLossy (bytes (s.map fun c => if c == '+' then ' ' else c))

def pair (s : List Char) : String × String :=
  match Text.splitFirst '=' s with
  | some (name, value) => (field name, field value)
  | none => (field s, "")

def pairs (query : String) : List (String × String) :=
  ((Text.pieces '&' query.toList).filter fun p => !p.isEmpty).map pair

end RecordGate.Percent
