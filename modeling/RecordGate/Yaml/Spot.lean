import RecordGate.Yaml.Node

/-!
# Moving through a text

A reader's place in a text, and the steps over blanks, comments and line breaks.
-/

namespace RecordGate.Yaml

/-- A place in a text: what follows it, its mark, and the nodes that have been given a name. -/
structure Spot where
  rest : List Char
  mark : Mark
  anchors : List (String × Node)

/-- A blank inside a line. -/
def isBlankChar (c : Char) : Bool := c == ' ' || c == '\t'

/-- Says whether a text begins with a blank or a line break, or is at its end. -/
def isGapAt : List Char → Bool
  | [] => true
  | c :: _ => isBlankChar c || c == '\n'

namespace Spot

/-- The start of a text. Every kind of line break counts as one character. -/
def ofText (s : String) : Spot :=
  let rec breaks : List Char → List Char
    | '\r' :: '\n' :: r => '\n' :: breaks r
    | '\r' :: r => '\n' :: breaks r
    | c :: r => c :: breaks r
    | [] => []
  let cs := breaks s.toList
  ⟨if cs.head? == some '\ufeff' then cs.drop 1 else cs, .start, []⟩

def markAfter (m : Mark) (c : Char) : Mark :=
  if c == '\n' then ⟨m.line + 1, 0⟩ else ⟨m.line, m.column + 1⟩

def advance (s : Spot) : Nat → Spot
  | 0 => s
  | n + 1 =>
      match s.rest with
      | [] => s
      | c :: r => advance ⟨r, markAfter s.mark c, s.anchors⟩ n

/-- Moves over the characters at the start that have a property. -/
def advanceWhile (s : Spot) (p : Char → Bool) : Spot := s.advance (s.rest.takeWhile p).length

/-- The number of characters up to the next thing that is no blank, comment or line break. -/
def gapLength : Bool → List Char → Nat
  | _, [] => 0
  | inComment, c :: r =>
      if c == '\n' then gapLength false r + 1
      else if inComment then gapLength true r + 1
      else if isBlankChar c then gapLength false r + 1
      else if c == '#' then gapLength true r + 1
      else 0

/-- Moves over blanks, comments and line breaks. -/
def skipGap (s : Spot) : Spot := s.advance (gapLength false s.rest)

/-- Says whether three given characters at the start of a line mark the bounds of a document. -/
def isRule (s : Spot) (c : Char) : Bool :=
  s.mark.column == 0 &&
    match Text.dropStart? [c, c, c] s.rest with
    | some r => isGapAt r
    | none => false

def atEnd (s : Spot) : Bool := s.rest.isEmpty || s.isRule '-' || s.isRule '.'

/-- The mark of what comes next; the end of the text stands on a line of its own. -/
def nextMark (s : Spot) : Mark :=
  if s.rest.isEmpty && s.mark.column != 0 then ⟨s.mark.line + 1, 0⟩ else s.mark

/-- Says whether a given character stands here with a gap behind it. -/
def isSign (s : Spot) (c : Char) : Bool :=
  match s.rest with
  | d :: r => d == c && isGapAt r
  | [] => false

def problem (s : Spot) (words context : String) (since : Mark) : Problem :=
  ⟨words, s.nextMark, context, since⟩

end Spot

end RecordGate.Yaml
