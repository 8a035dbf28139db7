import RecordGate.Entity.Author
import RecordGate.Entity.Book
import RecordGate.Filter.Compile
import RecordGate.Schema.Summary
import RecordGate.Text.Lowercase

/-!
# Entities of the command line

The entities that the command line knows without asking a server.
-/

namespace RecordGate.Cli

inductive Builtin
  | books
  | authors
deriving DecidableEq, Repr

namespace Builtin

def all : List Builtin := [.books, .authors]

def summary : Builtin → SchemaSummary
  | .books => Book.schema.summary
  | .authors => Author.schema.summary

def name : Builtin → String
  | .books => Book.schema.name
  | .authors => Author.schema.name

/-- The entity of a name, in any letter case. -/
def resolve? (name : String) : Option Builtin := all.find? fun b => Text.sameName b.name name

def compile (b : Builtin) (criteria : List FilterCriterion) (term : String) :
    Except FilterError Predicate :=
  match b with
  | .books => Book.schema.compile criteria term
  | .authors => Author.schema.compile criteria term

def route (b : Builtin) : String := "/api/" ++ Text.lowercase b.name

end Builtin

end RecordGate.Cli
