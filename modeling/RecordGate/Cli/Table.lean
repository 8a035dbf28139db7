import RecordGate.Text.Search
import RecordGate.Text.Width

/-!
# Tables

Tables in a frame of lines with round corners. A column is as wide as its widest line; a row is as
high as its highest cell.
-/

namespace RecordGate.Cli

structure Table where
  header : List String
  rows : List (List String)

namespace Table

abbrev Cell := List (List Char)

def cell (s : String) : Cell := Text.pieces '\n' s.toList

def cellWidth (c : Cell) : Nat := c.foldl (fun n line => Nat.max n (Text.width line)) 0

/-- The greater ones of two lists of widths, place by place. -/
def widest : List Nat → List Nat → List Nat
  | a :: as, b :: bs => Nat.max a b :: widest as bs
  | [], bs => bs
  | as, [] => as

def widths (lines : List (List Cell)) : List Nat :=
  lines.foldl (fun ws row => widest ws (row.map cellWidth)) []

def rowLine (widths : List Nat) (i : Nat) (row : List Cell) : String :=
  let cells := (widths.zip row).map fun (w, lines) =>
    " " ++ String.ofList (Text.padRight w (lines[i]?.getD [])) ++ " "
  "│" ++ Text.join "│" cells ++ "│"

def rowLines (widths : List Nat) (row : List Cell) : List String :=
  let height := row.foldl (fun n c => Nat.max n c.length) 0
  (List.range height).map fun i => rowLine widths i row

def frameLine (widths : List Nat) (left mid right : String) : String :=
  let dashes := widths.map fun w => String.ofList (List.replicate (w + 2) '─')
  left ++ Text.join mid dashes ++ right

/-- The lines of the table, with a line of the frame below the header. A table without columns is
empty. -/
def text (t : Table) : String :=
  let header := t.header.map cell
  let rows := t.rows.map (·.map cell)
  let ws := widths (header :: rows)
  let lines := [frameLine ws "╭" "┬" "╮"] ++ rowLines ws header ++ [frameLine ws "├" "┼" "┤"] ++
    rows.flatMap (rowLines ws) ++ [frameLine ws "╰" "┴" "╯"]
  if header.isEmpty then "" else Text.join "\n" lines

end Table

end RecordGate.Cli
