import RecordGate.Text.Search

/-!
# YAML trees

A text in YAML as a tree. Every node knows the place where it begins; a scalar knows whether it is
plain, that is, neither between quotes nor in a block.
-/

namespace RecordGate.Yaml

/-- A place in a text: its line and column, counted from zero. -/
structure Mark where
  line : Nat
  column : Nat
deriving DecidableEq, Repr

namespace Mark

def start : Mark := ⟨0, 0⟩

/-- The place behind words, counted from one; nothing for the start of the text. -/
def suffix (m : Mark) : String :=
  if m == start then ""
  else " at line " ++ toString (m.line + 1) ++ " column " ++ toString (m.column + 1)

end Mark

inductive Node
  | scalar (mark : Mark) (plain : Bool) (text : String)
  | list (mark : Mark) (items : List Node)
  | table (mark : Mark) (members : List (Node × Node))

namespace Node

def mark : Node → Mark
  | .scalar m _ _ => m
  | .list m _ => m
  | .table m _ => m

/-- A plain scalar without text. -/
def nothing (m : Mark) : Node := .scalar m true ""

/-- Says whether a node is a plain scalar without text. -/
def isNothing : Node → Bool
  | .scalar _ plain text => plain && text.isEmpty
  | _ => false

end Node

/-- Why a text cannot be read: what is wrong and where, and what was being read since when. -/
structure Problem where
  words : String
  mark : Mark
  context : String := ""
  since : Mark := .start

namespace Problem

def text (p : Problem) : String :=
  let since := if p.since == p.mark then "" else p.since.suffix
  let context := if p.context.isEmpty then "" else ", " ++ p.context ++ since
  p.words ++ p.mark.suffix ++ context

end Problem

end RecordGate.Yaml
