import RecordGate.Text.Quoted
import RecordGate.Uuid.Fault
import RecordGate.Yaml.Node
import RecordGate.Yaml.Scalar

/-!
# Decoding YAML

Readers for values of known kinds. What is wrong is told with the way from the root of the tree to
the node at which it was found, and the place of that node in the text. A field that is left empty
is an empty list or record.
-/

namespace RecordGate.Yaml

/-- What is wrong with a node, and which node it is once that is known. -/
structure Complaint where
  words : String
  place : Option (String × Mark)

namespace Complaint

def bare (words : String) : Complaint := ⟨words, none⟩

def text (c : Complaint) : String :=
  match c.place with
  | none => c.words
  | some (path, mark) => (if path.isEmpty then "" else path ++ ": ") ++ c.words ++ mark.suffix

end Complaint

abbrev Decoder (α : Type) := String → Node → Except Complaint α

/-- The value of a node of any kind. -/
def Node.json : Node → Json
  | .scalar _ plain text => if plain then Scalar.value text else .string text
  | .list _ items => .array (items.map fun item =>
      match item with
      | .scalar _ plain text => if plain then Scalar.value text else .string text
      | _ => .null)
  | .table _ _ => .object []

/-- The kind of a node, as it is named where another kind is wanted. -/
def Node.kindName : Node → String
  | .list _ _ => "sequence"
  | .table _ _ => "map"
  | .scalar _ plain text =>
      match if plain then Scalar.value text else .string text with
      | .null => "unit value"
      | .bool b => if b then "boolean `true`" else "boolean `false`"
      | .number (.int n) => "integer `" ++ toString n ++ "`"
      | .number (.float x) => "floating point `" ++ (Json.Number.float x).text ++ "`"
      | _ => "string " ++ Text.shown text

namespace Decoder

variable {α δ : Type}

/-- The node is not of the kind wanted. -/
def unexpected (node : Node) (expected : String) : Except Complaint α :=
  .error (.bare ("invalid type: " ++ node.kindName ++ ", expected " ++ expected))

/-- A complaint without a place is about the node that is being read. -/
def located (path : String) (node : Node) : Except Complaint α → Except Complaint α
  | .error ⟨words, none⟩ => .error ⟨words, some (path, node.mark)⟩
  | r => r

/-- The text of a scalar, whether it is plain or not. -/
def textOf (expected : String) (node : Node) : Except Complaint String :=
  match node with
  | .scalar _ _ text => .ok text
  | node => unexpected node expected

def string : Decoder String := fun path node => located path node (textOf "a string" node)

/-- A text, or nothing. -/
def optionalString : Decoder (Option String) := fun path node =>
  match node with
  | .scalar _ true text =>
      if Scalar.nothings.contains text then .ok none else .ok (some text)
  | node => (string path node).map some

def uuid : Decoder Uuid := fun path node => located path node do
  let raw ← textOf "a UUID string" node
  match Uuid.parse? raw with
  | some u => return u
  | none => throw (.bare ("UUID parsing failed: " ++ Uuid.fault raw))

def items (decode : Decoder α) (path : String) : Nat → List Node → Except Complaint (List α)
  | _, [] => .ok []
  | n, node :: rest => do
      let a ← decode (path ++ "[" ++ toString n ++ "]") node
      let as ← items decode path (n + 1) rest
      return a :: as

def list (decode : Decoder α) : Decoder (List α) := fun path node => located path node <|
  match node with
  | .list _ nodes => items decode path 0 nodes
  | node => if node.isNothing then .ok [] else unexpected node "a sequence"

end Decoder

/-- A field of a record that is being read: its names, whether it must be there, and how its value is
stored. -/
structure Slot (δ : Type) where
  names : List String
  required : Bool
  store : String → Node → δ → Except Complaint δ

namespace Slot

variable {β δ : Type}

def of (names : List String) (required : Bool) (decode : Decoder β) (set : β → δ → δ) : Slot δ :=
  ⟨names, required, fun path node d => (decode path node).map fun b => set b d⟩

def name (f : Slot δ) : String := f.names.head?.getD ""

def below (path key : String) : String := if path.isEmpty then key else path ++ "." ++ key

/-- Stores the members of a table; the names of the fields seen so far are given and returned. -/
def fillMembers (fields : List (Slot δ)) (path : String) :
    List (Node × Node) → List String → δ → Except Complaint (List String × δ)
  | [], seen, d => .ok (seen, d)
  | (key, node) :: rest, seen, d => do
      let key ← Decoder.located path key (Decoder.textOf "field identifier" key)
      match fields.find? (·.names.contains key) with
      | none => fillMembers fields path rest seen d
      | some f =>
          if seen.contains f.name then throw (.bare ("duplicate field `" ++ f.name ++ "`"))
          else
            let d ← f.store (below path key) node d
            fillMembers fields path rest (f.name :: seen) d

/-- Stores the items of a list in the order of the fields, the first of which has a given number. -/
def fillItems (path expected : String) (size : Nat) :
    Nat → List (Slot δ) → List Node → δ → Except Complaint δ
  | _, [], [], d => .ok d
  | n, [], node :: rest, _ =>
      .error (.bare ("invalid length " ++ toString (n + (node :: rest).length) ++
        ", expected sequence of " ++ toString size ++ " elements"))
  | n, f :: fields, node :: rest, d => do
      let d ← f.store (path ++ "[" ++ toString n ++ "]") node d
      fillItems path expected size (n + 1) fields rest d
  | n, f :: fields, [], d =>
      if f.required then
        .error (.bare ("invalid length " ++ toString n ++ ", expected " ++ expected ++ " with " ++
          toString size ++ " elements"))
      else fillItems path expected size n fields [] d

/-- A record, read over a start in which absent fields have their values. -/
def record (expected : String) (start : δ) (fields : List (Slot δ)) : Decoder δ :=
  fun path node => Decoder.located path node do
    let ofMembers (members : List (Node × Node)) : Except Complaint δ := do
      let (seen, d) ← fillMembers fields path members [] start
      match fields.find? fun f => f.required && !seen.contains f.name with
      | some f => throw (.bare ("missing field `" ++ f.name ++ "`"))
      | none => return d
    match node with
    | .table _ members => ofMembers members
    | .list _ nodes => fillItems path expected fields.length 0 fields nodes start
    | node => if node.isNothing then ofMembers [] else Decoder.unexpected node expected

end Slot

end RecordGate.Yaml
