import RecordGate.Json.Value
import RecordGate.Calendar.Reader

/-!
# Decoding

Readers for values of known kinds. A decoder meets the parts of a tree in reading order and stops at
the first fault. Records are read from an object or from an array of their fields in order; a name
that is given twice is a mismatch, and names that are not known are passed over.
-/

namespace RecordGate.Json

/-- A reader of a node, in containers nested no deeper than a given depth. -/
abbrev Decoder (α : Type) := Nat → Node → Except Fault α

/-- The fault of a node that is not of the kind wanted. -/
def Node.unexpected : Node → Fault
  | .fault broken => broken.read
  | .number none => .malformed
  | .string none => .malformed
  | _ => .mismatch

/-- A value, or a mismatch where there is none. -/
def expect {α : Type} : Option α → Except Fault α
  | some a => .ok a
  | none => .error .mismatch

namespace Decoder

variable {α β : Type}

/-- The value that a further reading makes of a decoded one. -/
def refine (decode : Decoder α) (f : α → Option β) : Decoder β := fun depth node => do
  let a ← decode depth node
  expect (f a)

def string : Decoder String
  | _, .string (some s) => .ok s
  | _, node => .error node.unexpected

def bool : Decoder Bool
  | _, .bool b => .ok b
  | _, node => .error node.unexpected

/-- A whole number between bounds. -/
def ranged (low high : Int) : Decoder (Ranged low high)
  | _, .number (some (.int n)) => expect (Ranged.ofInt? n)
  | _, node => .error node.unexpected

/-- A double; a whole number is rounded to one. -/
def float : Decoder Binary64
  | _, .number (some (.int n)) => .ok (Binary64.ofInt n)
  | _, .number (some (.float x)) => .ok x
  | _, node => .error node.unexpected

def uuid : Decoder Uuid := refine string Uuid.parse?

def dateTime : Decoder Instant := refine string fun s => Calendar.loose? s.toList

def date : Decoder Date := refine string fun s => Calendar.looseDay? s.toList

def option (decode : Decoder α) : Decoder (Option α)
  | _, .null => .ok none
  | depth, node => (decode depth node).map some

def items (decode : Decoder α) (depth : Nat) : List Node → Except Fault (List α)
  | [] => .ok []
  | node :: rest => do
      let a ← decode depth node
      let as ← items decode depth rest
      return a :: as

def list (decode : Decoder α) : Decoder (List α)
  | depth, .array nodes cut => do
      let inner ← Node.inside depth
      let as ← items decode inner nodes
      Node.closed cut
      return as
  | _, node => .error node.unexpected

def members (decode : Decoder α) (depth : Nat) :
    List (Option String × Node) → Except Fault (List (String × α))
  | [] => .ok []
  | (none, _) :: _ => .error .malformed
  | (some key, node) :: rest => do
      let a ← decode depth node
      let as ← members decode depth rest
      return (key, a) :: as

def dictionary (decode : Decoder α) : Decoder (List (String × α))
  | depth, .object nodes cut => do
      let inner ← Node.inside depth
      let as ← members decode inner nodes
      Node.closed cut
      return as
  | _, node => .error node.unexpected

def named (names : List (String × α)) (s : String) : Option α :=
  (names.find? fun entry => entry.1 == s).map (·.2)

/-- One of some names, as a string or as the only member of an object, which is null then. Any other
kind of value breaks the grammar of a choice. -/
def choice (names : List (String × α)) : Decoder α
  | _, .string (some s) => expect (named names s)
  | depth, .object [] cut => do
      let _ ← Node.inside depth
      match cut with
      | some broken => .error broken.read
      | none => .error .malformed
  | depth, .object ((key, node) :: more) cut => do
      let _ ← Node.inside depth
      match key with
      | none => .error .malformed
      | some s =>
          let a ← expect (named names s)
          match node with
          | .null =>
              if more.isEmpty then
                Node.closed cut
                return a
              else .error .malformed
          | node => .error node.unexpected
  | _, .fault broken => .error broken.read
  | _, _ => .error .malformed

end Decoder

/-- What holds when a field of a record is absent: it must be there; it is empty in an object but
must be there in an array; or it has a default. -/
inductive Absence
  | required
  | optional
  | defaulted
deriving DecidableEq

/-- A field of a record that is being read: its names, what holds when it is absent, and how its
value is stored. -/
structure Slot (δ : Type) where
  name : String
  aliases : List String
  absence : Absence
  store : Nat → Node → δ → Except Fault δ

namespace Slot

variable {δ β : Type}

/-- A field whose value is decoded and then stored. -/
def of (name : String) (aliases : List String) (absence : Absence) (decode : Decoder β)
    (set : β → δ → δ) : Slot δ :=
  ⟨name, aliases, absence, fun depth node d => (decode depth node).map fun b => set b d⟩

def answersTo (slot : Slot δ) (key : String) : Bool := slot.name == key || slot.aliases.contains key

/-- Stores the members of an object; the names seen so far are given and returned. -/
def fillMembers (slots : List (Slot δ)) (depth : Nat) :
    List (Option String × Node) → List String → δ → Except Fault (List String × δ)
  | [], seen, d => .ok (seen, d)
  | (none, _) :: _, _, _ => .error .malformed
  | (some key, node) :: rest, seen, d =>
      match slots.find? (·.answersTo key) with
      | none => do
          node.skip
          fillMembers slots depth rest seen d
      | some slot =>
          if seen.contains slot.name then .error .mismatch
          else do
            let d ← slot.store depth node d
            fillMembers slots depth rest (slot.name :: seen) d

/-- Stores the elements of an array in the order of the fields. -/
def fillItems (depth : Nat) : List (Slot δ) → List Node → Option Break → δ → Except Fault δ
  | [], [], cut, d => do
      Node.closed cut
      return d
  | [], _ :: _, _, _ => .error .malformed
  | slot :: slots, node :: nodes, cut, d => do
      let d ← slot.store depth node d
      fillItems depth slots nodes cut d
  | slot :: slots, [], cut, d =>
      match cut with
      | some broken => .error broken.read
      | none => if slot.absence == .defaulted then fillItems depth slots [] none d else .error .mismatch

/-- Every field that must be there has been seen. -/
def complete (slots : List (Slot δ)) (seen : List String) : Bool :=
  slots.all fun slot => slot.absence != .required || seen.contains slot.name

/-- A record, read over a start in which absent fields have their values. -/
def record (start : δ) (slots : List (Slot δ)) : Decoder δ
  | depth, .object members cut => do
      let inner ← Node.inside depth
      let (seen, d) ← fillMembers slots inner members [] start
      Node.closed cut
      if complete slots seen then .ok d else .error .mismatch
  | depth, .array items cut => do
      let inner ← Node.inside depth
      fillItems inner slots items cut start
  | _, node => .error node.unexpected

end Slot

/-- Decodes a value that has been read already; any fault is a mismatch then. -/
def decodeValue {α : Type} (decode : Decoder α) (value : Json) : Except Fault α :=
  match decode depthLimit value.node with
  | .ok a => .ok a
  | .error _ => .error .mismatch

end RecordGate.Json
