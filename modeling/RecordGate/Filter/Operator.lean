import RecordGate.Text.Blank
import RecordGate.Text.Caseless

/-!
# Comparison operators

Six operators with a name and a symbol each. An operator accepts an order or the lack of one; of all
operators only `notEquals` accepts the lack of an order.
-/

namespace RecordGate

inductive ComparisonOp
  | equals
  | notEquals
  | greaterThan
  | greaterThanOrEqual
  | lessThan
  | lessThanOrEqual
deriving DecidableEq, Repr

namespace ComparisonOp

def all : List ComparisonOp :=
  [.equals, .notEquals, .greaterThan, .greaterThanOrEqual, .lessThan, .lessThanOrEqual]

def name : ComparisonOp → String
  | .equals => "equals"
  | .notEquals => "notEquals"
  | .greaterThan => "greaterThan"
  | .greaterThanOrEqual => "greaterThanOrEqual"
  | .lessThan => "lessThan"
  | .lessThanOrEqual => "lessThanOrEqual"

def symbol : ComparisonOp → String
  | .equals => "="
  | .notEquals => "!="
  | .greaterThan => ">"
  | .greaterThanOrEqual => ">="
  | .lessThan => "<"
  | .lessThanOrEqual => "<="

/-- Says whether the operator holds between two values with the given order. -/
def accepts : ComparisonOp → Option Ordering → Bool
  | .notEquals, none => true
  | _, none => false
  | .equals, some o => o == .eq
  | .notEquals, some o => o != .eq
  | .greaterThan, some o => o == .gt
  | .greaterThanOrEqual, some o => o != .lt
  | .lessThan, some o => o == .lt
  | .lessThanOrEqual, some o => o != .gt

/-- Reads a symbol, or a name in any case, with blanks around it. -/
def parse? (raw : String) : Option ComparisonOp :=
  let s := Text.trim raw
  all.find? fun op => op.symbol == s || Text.sameName op.name s

end ComparisonOp

end RecordGate
