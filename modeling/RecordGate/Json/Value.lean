import RecordGate.Json.Node

/-!
# JSON values

A JSON value without faults, the two ways of getting past a node of a tree, and the writing of
values. Reading a node builds the value, which is refused below a depth of containers; passing over
it only checks the grammar. Objects keep their members in order, also several of one name.
-/

namespace RecordGate

inductive Json
  | null
  | bool (b : Bool)
  | number (n : Json.Number)
  | string (s : String)
  | array (items : List Json)
  | object (members : List (String × Json))

namespace Json

def int (n : Int) : Json := .number (.int n)

def nat (n : Nat) : Json := .number (.int n)

/-- A value that may be absent, with null for its absence. -/
def ofOption {α : Type} (f : α → Json) : Option α → Json
  | none => .null
  | some a => f a

def strings (items : List String) : Json := .array (items.map .string)

def member? (name : String) : Json → Option Json
  | .object members => (members.reverse.find? fun m => m.1 == name).map (·.2)
  | _ => none

end Json

namespace Json.Node

/-- The containers that may still be entered, one less inside a container. -/
def inside : Nat → Except Fault Nat
  | 0 => .error .malformed
  | depth + 1 => .ok depth

def closed : Option Break → Except Fault Unit
  | none => .ok ()
  | some broken => .error broken.read

/-- The end of a container that is passed over. -/
def closedSkipped : Option Break → Except Fault Unit
  | none => .ok ()
  | some broken => .error broken.skipped

mutual

/-- Passes over a value: the grammar is checked, at any depth. -/
def skip : Node → Except Fault Unit
  | .array items cut => do
      skipItems items
      closedSkipped cut
  | .object members cut => do
      skipMembers members
      closedSkipped cut
  | .fault broken => .error broken.skipped
  | _ => .ok ()

def skipItems : List Node → Except Fault Unit
  | [] => .ok ()
  | item :: rest => do
      skip item
      skipItems rest

def skipMembers : List (Option String × Node) → Except Fault Unit
  | [] => .ok ()
  | (_, value) :: rest => do
      skip value
      skipMembers rest

end

mutual

def read : Nat → Node → Except Fault Json
  | _, .null => .ok .null
  | _, .bool b => .ok (.bool b)
  | _, .number (some n) => .ok (.number n)
  | _, .number none => .error .malformed
  | _, .string (some s) => .ok (.string s)
  | _, .string none => .error .malformed
  | depth, .array items cut => do
      let inner ← inside depth
      let values ← readItems inner items
      closed cut
      return .array values
  | depth, .object members cut => do
      let inner ← inside depth
      let values ← readMembers inner members
      closed cut
      return .object values
  | _, .fault broken => .error broken.read

def readItems : Nat → List Node → Except Fault (List Json)
  | _, [] => .ok []
  | depth, item :: rest => do
      let v ← read depth item
      let vs ← readItems depth rest
      return v :: vs

def readMembers : Nat → List (Option String × Node) → Except Fault (List (String × Json))
  | _, [] => .ok []
  | _, (none, _) :: _ => .error .malformed
  | depth, (some key, value) :: rest => do
      let v ← read depth value
      let vs ← readMembers depth rest
      return (key, v) :: vs

end

end Json.Node

namespace Json

mutual

def node : Json → Node
  | .null => .null
  | .bool b => .bool b
  | .number n => .number (some n)
  | .string s => .string (some s)
  | .array items => .array (nodeItems items) none
  | .object members => .object (nodeMembers members) none

def nodeItems : List Json → List Node
  | [] => []
  | item :: rest => node item :: nodeItems rest

def nodeMembers : List (String × Json) → List (Option String × Node)
  | [] => []
  | (key, value) :: rest => (some key, node value) :: nodeMembers rest

end

/-- The number of containers that may be nested in a text. -/
def depthLimit : Nat := 127

/-- Reads a text that holds one value and nothing after it. -/
def parseWith {α : Type} (read : Nat → Node → Except Fault α) (text : String) : Except Fault α := do
  let doc := document text.toList
  let value ← read depthLimit doc.root
  if doc.trailing then .error .malformed else .ok value

/-- Reads a text as a value of any kind. -/
def parse (text : String) : Except Fault Json := parseWith Node.read text

/-- The escaped form of a character inside a string. -/
def escape (c : Char) : List Char :=
  if c == '"' then ['\\', '"']
  else if c == '\\' then ['\\', '\\']
  else if c == '\n' then ['\\', 'n']
  else if c == '\r' then ['\\', 'r']
  else if c == '\t' then ['\\', 't']
  else if c == '\x08' then ['\\', 'b']
  else if c == '\x0c' then ['\\', 'f']
  else if Nat.blt c.toNat 0x20 then '\\' :: 'u' :: hexDigits 4 c.toNat
  else [c]

def quote (s : String) : String := "\"" ++ String.ofList (s.toList.flatMap escape) ++ "\""

/-- A number: whole numbers as digits, others with a point or an exponent, and null for what is no
finite number. -/
def Number.text : Number → String
  | .int n => toString n
  | .float x => if x.isFinite then Decimal.marked x else "null"

mutual

def compact : Json → String
  | .null => "null"
  | .bool b => if b then "true" else "false"
  | .number n => n.text
  | .string s => quote s
  | .array items => "[" ++ Text.join "," (compactItems items) ++ "]"
  | .object members => "\x7b" ++ Text.join "," (compactMembers members) ++ "\x7d"

def compactItems : List Json → List String
  | [] => []
  | item :: rest => compact item :: compactItems rest

def compactMembers : List (String × Json) → List String
  | [] => []
  | (key, value) :: rest => (quote key ++ ":" ++ compact value) :: compactMembers rest

end

/-- Lines of elements between brackets, indented by two blanks more than the brackets. -/
def block (indent : String) (first last : String) : List String → String
  | [] => first ++ last
  | items =>
      first ++ "\n" ++ Text.join ",\n" (items.map fun item => indent ++ "  " ++ item) ++ "\n" ++
        indent ++ last

mutual

/-- The text of a value with one element on a line. -/
def prettyAt (indent : String) : Json → String
  | .null => "null"
  | .bool b => if b then "true" else "false"
  | .number n => n.text
  | .string s => quote s
  | .array items => block indent "[" "]" (prettyItems (indent ++ "  ") items)
  | .object members => block indent "\x7b" "\x7d" (prettyMembers (indent ++ "  ") members)

def prettyItems (indent : String) : List Json → List String
  | [] => []
  | item :: rest => prettyAt indent item :: prettyItems indent rest

def prettyMembers (indent : String) : List (String × Json) → List String
  | [] => []
  | (key, value) :: rest => (quote key ++ ": " ++ prettyAt indent value) :: prettyMembers indent rest

end

/-- The text of a value with one element on a line. -/
def pretty (value : Json) : String := prettyAt "" value

/-- Puts a member into ascending order of names; a later member replaces an earlier one. -/
def insertMember (key : String) (value : Json) : List (String × Json) → List (String × Json)
  | [] => [(key, value)]
  | (k, v) :: rest =>
      match Text.order key k with
      | .lt => (key, value) :: (k, v) :: rest
      | .eq => (key, value) :: rest
      | .gt => (k, v) :: insertMember key value rest

mutual

/-- The value with the members of every object in ascending order, the last one of each name. -/
def sorted : Json → Json
  | .array items => .array (sortedItems items)
  | .object members => .object (sortedMembers members [])
  | v => v

def sortedItems : List Json → List Json
  | [] => []
  | item :: rest => sorted item :: sortedItems rest

def sortedMembers : List (String × Json) → List (String × Json) → List (String × Json)
  | [], done => done
  | (key, value) :: rest, done => sortedMembers rest (insertMember key (sorted value) done)

end

end Json

end RecordGate
