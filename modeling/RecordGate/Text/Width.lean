import RecordGate.Text.Lowercase
import RecordGate.Text.WidthTable

/-!
# Width of a text

The number of places that a text takes on a terminal.
-/

namespace RecordGate.Text

def charWidth (c : Char) : Nat :=
  if Nat.blt c.toNat 0x20 || c.toNat == 0x7F then 0
  else if Nat.blt c.toNat 0x300 then 1
  else if inRuns placelessRuns c.toNat then 0
  else if inRuns wideRuns c.toNat then 2
  else 1

def width (s : List Char) : Nat := s.foldl (fun n c => n + charWidth c) 0

/-- A text filled up with blanks to a width. -/
def padRight (places : Nat) (s : List Char) : List Char :=
  s ++ List.replicate (places - width s) ' '

end RecordGate.Text
