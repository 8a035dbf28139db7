import RecordGate.Filter.Predicate
import RecordGate.Text.Utf8

/-!
# Predicates as SQL

A predicate becomes the condition of a `WHERE` clause with numbered placeholders for its operands.
The clause is an expression first and text second. The expression has a meaning of its own in the
logic of three truth values, in which a comparison with a null is neither true nor false and texts
are compared by their bytes.
-/

namespace RecordGate.Sql

inductive Relation
  | equal
  | distinct
  | greater
  | greaterOrEqual
  | less
  | lessOrEqual
deriving DecidableEq

/-- The condition of a clause; placeholders are numbered from one. -/
inductive Expr
  | true
  | relation (column : String) (rel : Relation) (placeholder : Nat)
  | position (column : String) (placeholder : Nat)
  | and (left right : Expr)
  | or (left right : Expr)
deriving DecidableEq

def Relation.text : Relation → String
  | .equal => "="
  | .distinct => "IS DISTINCT FROM"
  | .greater => ">"
  | .greaterOrEqual => ">="
  | .less => "<"
  | .lessOrEqual => "<="

def relationOf : ComparisonOp → Relation
  | .equals => .equal
  | .notEquals => .distinct
  | .greaterThan => .greater
  | .greaterThanOrEqual => .greaterOrEqual
  | .lessThan => .less
  | .lessThanOrEqual => .lessOrEqual

/-- A quote inside a column name is written twice. -/
def doubled : List Char → List Char
  | [] => []
  | c :: s => if c == '"' then '"' :: '"' :: doubled s else c :: doubled s

/-- A column name in double quotes. -/
def quoteName (name : String) : String := "\"" ++ String.ofList (doubled name.toList) ++ "\""

def placeholder (n : Nat) : String := "$" ++ toString n

namespace Expr

def text : Expr → String
  | .true => "TRUE"
  | .relation column rel n => quoteName column ++ " " ++ rel.text ++ " " ++ placeholder n
  | .position column n => "strpos(" ++ quoteName column ++ ", " ++ placeholder n ++ ") > 0"
  | .and left right => "(" ++ left.text ++ " AND " ++ right.text ++ ")"
  | .or left right => "(" ++ left.text ++ " OR " ++ right.text ++ ")"

/-- The placeholders from left to right. -/
def placeholders : Expr → List Nat
  | .true => []
  | .relation _ _ n => [n]
  | .position _ n => [n]
  | .and left right => left.placeholders ++ right.placeholders
  | .or left right => left.placeholders ++ right.placeholders

end Expr

/-- The condition of a predicate whose first placeholder comes after the given number. -/
def exprFrom : Nat → Predicate → Expr
  | _, .matchAll => .true
  | n, .compare field op _ => .relation field (relationOf op) (n + 1)
  | n, .contains field _ => .position field (n + 1)
  | n, .and left right => .and (exprFrom n left) (exprFrom (n + left.leafCount) right)
  | n, .or left right => .or (exprFrom n left) (exprFrom (n + left.leafCount) right)

def operands : Predicate → List Value
  | .matchAll => []
  | .compare _ _ value => [value]
  | .contains _ term => [.text term]
  | .and left right => operands left ++ operands right
  | .or left right => operands left ++ operands right

structure Clause where
  condition : Expr
  params : List Value
deriving DecidableEq

def Clause.sql (c : Clause) : String := c.condition.text

def render (p : Predicate) : Clause := ⟨exprFrom 0 p, operands p⟩

/-- Truth in the presence of nulls. -/
inductive Truth
  | no
  | unknown
  | yes
deriving DecidableEq

namespace Truth

def ofBool (b : Bool) : Truth := if b then .yes else .no

def and : Truth → Truth → Truth
  | .no, _ => .no
  | _, .no => .no
  | .yes, .yes => .yes
  | _, _ => .unknown

def or : Truth → Truth → Truth
  | .yes, _ => .yes
  | _, .yes => .yes
  | .no, .no => .no
  | _, _ => .unknown

end Truth

/-- Says whether a relation holds between two values that are not null and have the given order. -/
def Relation.admits : Relation → Ordering → Bool
  | .equal, o => o == .eq
  | .distinct, o => o != .eq
  | .greater, o => o == .gt
  | .greaterOrEqual, o => o != .lt
  | .less, o => o == .lt
  | .lessOrEqual, o => o != .gt

/-- The order of two values that are not null. Texts have that of their bytes. -/
def order : Value → Value → Option Ordering
  | .text a, .text b => some (Text.orderBytes (Text.bytes a) (Text.bytes b))
  | a, b => a.compare b

/-- The truth of a relation. `IS DISTINCT FROM` treats null as a value of its own; any other
relation with a null is unknown. -/
def Relation.truth (rel : Relation) (a b : Value) : Truth :=
  if rel == .distinct && (a.isNull || b.isNull) then .ofBool (a.isNull != b.isNull)
  else
    match order a b with
    | some o => .ofBool (rel.admits o)
    | none => .unknown

/-- The place of the first occurrence of a text in another, counted from one, or zero. -/
def strpos (hay needle : List Char) : Nat :=
  if Text.startsWith needle hay then 1
  else
    match hay with
    | [] => 0
    | _ :: rest =>
        match strpos rest needle with
        | 0 => 0
        | n + 1 => n + 2

/-- The truth of `strpos(a, b) > 0`. -/
def positionTruth : Value → Value → Truth
  | .text hay, .text needle => .ofBool (Nat.blt 0 (strpos hay.toList needle.toList))
  | _, _ => .unknown

/-- The truth of a condition for a row, with values for the placeholders. -/
def Expr.truth (row : String → Value) (params : List Value) : Expr → Truth
  | .true => .yes
  | .relation column rel n => rel.truth (row column) ((params[n - 1]?).getD .null)
  | .position column n => positionTruth (row column) ((params[n - 1]?).getD .null)
  | .and left right => (left.truth row params).and (right.truth row params)
  | .or left right => (left.truth row params).or (right.truth row params)

/-- A row is kept when the condition is true for it. -/
def Clause.keeps (c : Clause) (row : String → Value) : Bool :=
  c.condition.truth row c.params == .yes

end RecordGate.Sql
