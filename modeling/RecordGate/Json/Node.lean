import RecordGate.Json.Token

/-!
# JSON trees

The tokens of a text are put together into a tree. A text with a fault gives a tree too: it holds
everything before the fault, and at its right edge the place where the text breaks. One who reads
the tree from left to right meets the fault exactly where a reader of the text would.
-/

namespace RecordGate.Json

/-- A value with all that a reader of the text can meet in it. A container may break off after its
last element, and a fault may stand in place of a value. -/
inductive Node
  | null
  | bool (b : Bool)
  | number (value : Option Number)
  | string (content : Option String)
  | array (items : List Node) (cut : Option Break)
  | object (members : List (Option String × Node)) (cut : Option Break)
  | fault (broken : Break)

/-- A container that is still open, with the elements before the one being read, last one first. -/
inductive Frame
  | array (done : List Node)
  | object (done : List (Option String × Node)) (key : Option String)

/-- A text as a tree; something other than blanks may follow the value. -/
structure Document where
  root : Node
  trailing : Bool

inductive Expecting
  | value (stack : List Frame)
  | item (stack : List Frame)
  | member (done : List (Option String × Node)) (first : Bool) (stack : List Frame)
  | colon (done : List (Option String × Node)) (key : Option String) (stack : List Frame)
  | rest (value : Node) (stack : List Frame)
  | nothing (document : Document)

/-- The whole tree around a value, with every open container closed. -/
def closeAll (value : Node) : List Frame → Node
  | [] => value
  | .array done :: stack => closeAll (.array (value :: done).reverse none) stack
  | .object done key :: stack => closeAll (.object ((key, value) :: done).reverse none) stack

def plainBreak (fault : Fault) : Break := ⟨fault, fault⟩

namespace Expecting

def failValue (broken : Break) (stack : List Frame) : Expecting :=
  .nothing ⟨closeAll (.fault broken) stack, false⟩

def failMember (done : List (Option String × Node)) (broken : Break) (stack : List Frame) :
    Expecting :=
  .nothing ⟨closeAll (.object done.reverse (some broken)) stack, false⟩

def failRest (value : Node) (broken : Break) : List Frame → Expecting
  | [] => .nothing ⟨value, true⟩
  | .array done :: stack =>
      .nothing ⟨closeAll (.array (value :: done).reverse (some broken)) stack, false⟩
  | .object done key :: stack =>
      .nothing ⟨closeAll (.object ((key, value) :: done).reverse (some broken)) stack, false⟩

def startValue (stack : List Frame) : Token → Expecting
  | .null => .rest .null stack
  | .bool b => .rest (.bool b) stack
  | .number n => .rest (.number n) stack
  | .string s => .rest (.string s) stack
  | .openArray => .item (.array [] :: stack)
  | .openObject => .member [] true stack
  | .badString broken => failValue broken stack
  | .bad fault => failValue (plainBreak fault) stack
  | _ => failValue (plainBreak .malformed) stack

def step : Expecting → Token → Expecting
  | .value stack, token => startValue stack token
  | .item (.array done :: stack), .closeArray => .rest (.array done.reverse none) stack
  | .item stack, token => startValue stack token
  | .member done _ stack, .string key => .colon done key stack
  | .member done true stack, .closeObject => .rest (.object done.reverse none) stack
  | .member done _ stack, .badString broken => failMember done broken stack
  | .member done _ stack, _ => failMember done (plainBreak .malformed) stack
  | .colon done key stack, .colon => .value (.object done key :: stack)
  | .colon done key stack, _ => failValue (plainBreak .malformed) (.object done key :: stack)
  | .rest v (.array done :: stack), .comma => .value (.array (v :: done) :: stack)
  | .rest v (.array done :: stack), .closeArray =>
      .rest (.array (v :: done).reverse none) stack
  | .rest v (.object done key :: stack), .comma => .member ((key, v) :: done) false stack
  | .rest v (.object done key :: stack), .closeObject =>
      .rest (.object ((key, v) :: done).reverse none) stack
  | .rest v stack, _ => failRest v (plainBreak .malformed) stack
  | .nothing document, _ => .nothing document

def finish : Expecting → Document
  | .value stack => ⟨closeAll (.fault (plainBreak .truncated)) stack, false⟩
  | .item stack => ⟨closeAll (.fault (plainBreak .truncated)) stack, false⟩
  | .member done _ stack =>
      ⟨closeAll (.object done.reverse (some (plainBreak .truncated))) stack, false⟩
  | .colon done key stack =>
      ⟨closeAll (.fault (plainBreak .truncated)) (.object done key :: stack), false⟩
  | .rest v [] => ⟨v, false⟩
  | .rest v (.array done :: stack) =>
      ⟨closeAll (.array (v :: done).reverse (some (plainBreak .truncated))) stack, false⟩
  | .rest v (.object done key :: stack) =>
      ⟨closeAll (.object ((key, v) :: done).reverse (some (plainBreak .truncated))) stack, false⟩
  | .nothing document => document

end Expecting

def document (s : List Char) : Document :=
  ((tokens s).foldl Expecting.step (.value [])).finish

end RecordGate.Json
