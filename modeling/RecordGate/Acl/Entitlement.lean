import RecordGate.Json.Decode
import RecordGate.Text.Blank
import RecordGate.Text.Search

/-!
# Entitlements

Four actions that may be granted on the records of an entity, and sets of them. On the wire a set is
a list of whole numbers whose bits are put together; numbers outside one byte and bits of no action
are left out.
-/

namespace RecordGate

open Json (Decoder)

/-- An action on the records of an entity. -/
inductive Entitlement
  | create
  | read
  | update
  | delete
deriving DecidableEq, Repr

namespace Entitlement

def all : List Entitlement := [.create, .read, .update, .delete]

/-- The weight of the action's bit. -/
def bit : Entitlement → Nat
  | .create => 1
  | .read => 2
  | .update => 4
  | .delete => 8

def name : Entitlement → String
  | .create => "create"
  | .read => "read"
  | .update => "update"
  | .delete => "delete"

/-- Reads a name in any case with blanks around it. -/
def parse? (raw : String) : Option Entitlement :=
  all.find? fun e => Text.sameName e.name (Text.trim raw)

/-- What is said of a text that names no action. -/
def unknownMessage (raw : String) : String := "unknown entitlement '" ++ raw ++ "'"

end Entitlement

/-- A set of actions. -/
structure EntitlementSet where
  create : Bool
  read : Bool
  update : Bool
  delete : Bool
deriving DecidableEq

namespace EntitlementSet

def empty : EntitlementSet := ⟨false, false, false, false⟩

def full : EntitlementSet := ⟨true, true, true, true⟩

def allows (s : EntitlementSet) : Entitlement → Bool
  | .create => s.create
  | .read => s.read
  | .update => s.update
  | .delete => s.delete

def union (s t : EntitlementSet) : EntitlementSet :=
  ⟨s.create || t.create, s.read || t.read, s.update || t.update, s.delete || t.delete⟩

theorem allows_union (s t : EntitlementSet) (a : Entitlement) :
    (s.union t).allows a = (s.allows a || t.allows a) := by
  cases a <;> rfl

theorem ext_allows {s t : EntitlementSet} (h : ∀ a, s.allows a = t.allows a) : s = t := by
  cases s
  cases t
  have h1 := h .create
  have h2 := h .read
  have h3 := h .update
  have h4 := h .delete
  simp_all [allows]

def single (a : Entitlement) : EntitlementSet :=
  ⟨a == .create, a == .read, a == .update, a == .delete⟩

def ofList (actions : List Entitlement) : EntitlementSet :=
  actions.foldl (fun s a => s.union (single a)) empty

/-- The actions whose bits a number has. -/
def ofBits (n : Nat) : EntitlementSet :=
  ⟨n.testBit 0, n.testBit 1, n.testBit 2, n.testBit 3⟩

def actions (s : EntitlementSet) : List Entitlement := Entitlement.all.filter s.allows

/-- The weights of the actions put together. -/
def bits (s : EntitlementSet) : Nat := s.actions.foldr (fun a n => a.bit + n) 0

/-- The set that a number on the wire stands for; one that is no byte stands for nothing. -/
def ofWireValue (n : Int) : EntitlementSet :=
  match n with
  | .ofNat m => if Nat.blt m 256 then ofBits m else empty
  | .negSucc _ => empty

/-- The set that numbers on the wire stand for together. -/
def ofWire (values : List Int) : EntitlementSet :=
  values.foldl (fun s n => s.union (ofWireValue n)) empty

def toWire (s : EntitlementSet) : List Nat := s.actions.map Entitlement.bit

def text (s : EntitlementSet) : String :=
  if s == empty then "none" else Text.join "," (s.actions.map Entitlement.name)

/-- Reads names separated by commas; the first that is unknown is told. -/
def ofNames : List String → Except String EntitlementSet
  | [] => .ok empty
  | raw :: rest =>
      match Entitlement.parse? raw with
      | none => .error (Entitlement.unknownMessage raw)
      | some a => (ofNames rest).map fun s => (single a).union s

/-- Reads `none`, `all`, one number, or names separated by commas. -/
def parse (raw : String) : Except String EntitlementSet :=
  let s := Text.trim raw
  if s.isEmpty || Text.sameName s "none" then .ok empty
  else if Text.sameName s "all" then .ok full
  else
    match (signed? s.toList).bind fun n => (Ranged.ofInt? n : Option Integer64) with
    | some n => .ok (ofWireValue n.val)
    | none => ofNames (Text.split ',' s)

def json (s : EntitlementSet) : Json := .array (s.toWire.map Json.nat)

/-- The whole number of 64 bits that a value is. -/
def wireNumber? : Json → Option Int
  | .number (.int n) => (Ranged.ofInt? n : Option Integer64).map (·.val)
  | _ => none

def wireNumbers? : List Json → Option (List Int)
  | [] => some []
  | item :: rest => do
      let n ← wireNumber? item
      let ns ← wireNumbers? rest
      return n :: ns

/-- The set that a value stands for: a list of numbers, or one number. -/
def ofJson? : Json → Option EntitlementSet
  | .array items => (wireNumbers? items).map ofWire
  | value => (wireNumber? value).map ofWireValue

def decode : Decoder EntitlementSet := Decoder.refine Json.Node.read ofJson?

end EntitlementSet

end RecordGate
