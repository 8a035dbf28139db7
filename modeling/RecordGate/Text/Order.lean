/-!
# Order of texts

Texts are ordered by their code points, which is the order of their UTF-8 bytes.
-/

namespace RecordGate.Text

def orderNat (a b : Nat) : Ordering := if Nat.blt a b then .lt else if Nat.blt b a then .gt else .eq

/-- The order of two lists by the first place where they differ; a list comes before its extensions. -/
def orderBy {α : Type} (order : α → α → Ordering) : List α → List α → Ordering
  | [], [] => .eq
  | [], _ :: _ => .lt
  | _ :: _, [] => .gt
  | a :: s, b :: t =>
      match order a b with
      | .eq => orderBy order s t
      | o => o

def orderBytes : List UInt8 → List UInt8 → Ordering := orderBy fun a b => orderNat a.toNat b.toNat

/-- The order of two texts by code points. -/
def order (a b : String) : Ordering := orderBy (fun c d => orderNat c.toNat d.toNat) a.toList b.toList

/-- Puts a text into an ascending list, where equal texts are kept once. -/
def insertAscending (s : String) : List String → List String
  | [] => [s]
  | t :: rest =>
      match order s t with
      | .lt => s :: t :: rest
      | .eq => t :: rest
      | .gt => t :: insertAscending s rest

def ascending (texts : List String) : List String := texts.foldr insertAscending []

/-- Texts in ascending order, where equal texts are all kept. -/
def sorted (texts : List String) : List String := texts.mergeSort fun s t => order s t != .gt

end RecordGate.Text
