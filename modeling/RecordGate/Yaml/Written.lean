import RecordGate.Number.Ranged
import RecordGate.Uuid
import RecordGate.Yaml.Spot

/-!
# Scalars in writing

The written forms of scalars: plain ones, ones between quotes, and blocks of lines. Lines are folded:
a single break counts as a blank, and of several breaks the first one does not count.
-/

namespace RecordGate.Yaml.Written

/-- Joins folded text with the next line, after a number of empty lines. -/
def fold (done line : List Char) (empties : Nat) : List Char :=
  done ++ (if empties == 0 then [' '] else List.replicate empties '\n') ++ line

def trimEnd (s : List Char) : List Char := (s.reverse.dropWhile isBlankChar).reverse

/-- The characters with a meaning inside brackets. -/
def isFlowMark (c : Char) : Bool :=
  c == ',' || c == '[' || c == ']' || c == '\x7b' || c == '\x7d'

/-- Says whether a colon before a given rest ends a name. -/
def endsName (inFlow : Bool) (rest : List Char) : Bool :=
  isGapAt rest || (inFlow && rest.head?.any isFlowMark)

/-- The plain text at the start of a line, perhaps with blanks at its end. -/
def plainRun (inFlow : Bool) : List Char → List Char
  | [] => []
  | c :: rest =>
      if c == '\n' || (c == ':' && endsName inFlow rest) || (inFlow && isFlowMark c) ||
          (isBlankChar c && rest.head? == some '#') then []
      else c :: plainRun inFlow rest

/-- The plain text of one line and the place after it. -/
def plainLine (inFlow : Bool) (s : Spot) : List Char × Spot :=
  let text := trimEnd (plainRun inFlow s.rest)
  (text, s.advance text.length)

/-- Goes on with plain text on the lines below, which are indented enough. -/
def plainMore (inFlow : Bool) (least : Nat) : Nat → List Char → Spot → List Char × Spot
  | 0, done, s => (done, s)
  | fuel + 1, done, s =>
      let gap := s.rest.takeWhile fun c => isBlankChar c || c == '\n'
      let breaks := gap.count '\n'
      let t := s.advance gap.length
      let (line, u) := plainLine inFlow t
      if breaks == 0 || t.atEnd || (!inFlow && Nat.blt t.mark.column least) || line.isEmpty ||
          t.rest.head? == some '#' then (done, s)
      else plainMore inFlow least fuel (fold done line (breaks - 1)) u

def plain (inFlow : Bool) (least : Nat) (s : Spot) : List Char × Spot :=
  let (line, t) := plainLine inFlow s
  plainMore inFlow least t.rest.length line t

/-- The raw text before the closing single quote, and how many characters it takes with the quote. -/
def singleRaw : List Char → Option (List Char × Nat)
  | '\'' :: '\'' :: r => (singleRaw r).map fun (t, n) => ('\'' :: t, n + 2)
  | '\'' :: _ => some ([], 1)
  | c :: r => (singleRaw r).map fun (t, n) => (c :: t, n + 1)
  | [] => none

/-- The raw text before the closing double quote, and how many characters it takes with the quote. -/
def doubleRaw : List Char → Option (List Char × Nat)
  | '\\' :: c :: r => (doubleRaw r).map fun (t, n) => ('\\' :: c :: t, n + 2)
  | '"' :: _ => some ([], 1)
  | c :: r => (doubleRaw r).map fun (t, n) => (c :: t, n + 1)
  | [] => none

/-- Says whether a line ends in a backslash that hides its break. -/
def hidesBreak (line : List Char) : Bool :=
  (line.reverse.takeWhile (· == '\\')).length % 2 == 1

/-- Joins the lines after the first one to it. -/
def joinLines (done : List Char) (empties : Nat) : List (List Char) → List Char
  | [] => done
  | line :: rest =>
      let text := line.dropWhile isBlankChar
      let text := if rest.isEmpty then text else trimEnd text
      if text.isEmpty && !rest.isEmpty then joinLines done (empties + 1) rest
      else if hidesBreak done then joinLines (done.dropLast ++ text) 0 rest
      else joinLines (fold done text empties) 0 rest

def folded (raw : List Char) : List Char :=
  match Text.pieces '\n' raw with
  | [] => []
  | [line] => line
  | line :: rest => joinLines (trimEnd line) 0 rest

def escaped? (c : Char) : Option Char :=
  [('0', '\x00'), ('a', '\x07'), ('b', '\x08'), ('t', '\t'), ('\t', '\t'), ('n', '\n'),
    ('v', '\x0b'), ('f', '\x0c'), ('r', '\r'), ('e', '\x1b'), (' ', ' '), ('"', '"'), ('/', '/'),
    ('\\', '\\'), ('N', '\u0085'), ('_', '\u00a0'), ('L', '\u2028'), ('P', '\u2029')].lookup c

/-- The number of hexadecimal digits behind the letter of a long escape. -/
def digitCount? (c : Char) : Option Nat := [('x', 2), ('u', 4), ('U', 8)].lookup c

def charOf? (n : Nat) : Option Char := if h : n.isValidChar then some (Char.ofNatAux n h) else none

/-- Resolves escapes; the first characters are passed over. -/
def unescapeAfter : Nat → List Char → Option (List Char)
  | _, [] => some []
  | skip + 1, _ :: r => unescapeAfter skip r
  | 0, '\\' :: c :: r =>
      match escaped? c, digitCount? c with
      | some d, _ => (unescapeAfter 1 (c :: r)).map (d :: ·)
      | none, some n => do
          let code ← hexFrom? 0 (r.take n)
          let d ← if r.length < n then none else charOf? code
          let rest ← unescapeAfter (n + 1) (c :: r)
          return d :: rest
      | none, none => none
  | 0, c :: r => (unescapeAfter 0 r).map (c :: ·)

def quoted (s : Spot) : Except Problem (List Char × Spot) :=
  let context := "while scanning a quoted scalar"
  let unclosed := (s.advance s.rest.length).problem "found unexpected end of stream" context s.mark
  match s.rest with
  | '"' :: r =>
      match doubleRaw r with
      | some (raw, n) =>
          match unescapeAfter 0 (folded raw) with
          | some text => .ok (text, s.advance (n + 1))
          | none => .error (s.problem "found unknown escape character" context s.mark)
      | none => .error unclosed
  | _ :: r =>
      match singleRaw r with
      | some (raw, n) => .ok (folded raw, s.advance (n + 1))
      | none => .error unclosed
  | [] => .error unclosed

def indentOf (line : List Char) : Nat := (line.takeWhile (· == ' ')).length

def isEmptyLine (line : List Char) : Bool := line.all (· == ' ')

/-- Joins the lines of a folded block. Lines that begin with a blank are not folded. -/
def foldBlock : List (List Char) → List Char
  | [] => []
  | [line] => line
  | line :: next :: rest =>
      let joint := if line.head?.any isBlankChar || next.head?.any isBlankChar then '\n' else ' '
      if line.isEmpty then '\n' :: foldBlock (next :: rest)
      else if next.isEmpty && !line.head?.any isBlankChar then line ++ foldBlock (next :: rest)
      else line ++ joint :: foldBlock (next :: rest)

/-- The lines at the start of a list that belong to a block with an indentation. -/
def blockLines (indent : Nat) (lines : List (List Char)) : List (List Char) :=
  lines.takeWhile fun line => Nat.ble indent (indentOf line) || isEmptyLine line

/-- A block of lines whose sign stands here, with the least indentation that its lines may have. -/
def block (least : Nat) (s : Spot) : List Char × Spot :=
  let head := s.rest.takeWhile (· != '\n')
  let hints := head.takeWhile fun c => !isBlankChar c
  let lines := Text.pieces '\n' (s.rest.drop (head.length + 1))
  let least := Nat.max least 1
  let indent :=
    match hints.findSome? digit? with
    | some n => least - 1 + n
    | none => ((lines.find? fun l => !isEmptyLine l).map indentOf).elim least (Nat.max least)
  let taken := blockLines indent lines
  let texts := taken.map (·.drop indent)
  let body := (texts.reverse.dropWhile List.isEmpty).reverse
  let breaks := if taken.length == lines.length then taken.length - 1 else taken.length
  let breaksAfter := if body.isEmpty then breaks else breaks + 1 - body.length
  let kept :=
    if hints.contains '+' then breaksAfter
    else if hints.contains '-' || body.isEmpty then 0
    else Nat.min breaksAfter 1
  let text := if head.head? == some '>' then foldBlock body
    else (body.flatMap fun line => line ++ ['\n']).dropLast
  let size := taken.foldl (fun n line => n + line.length + 1) (head.length + 1)
  (text ++ List.replicate kept '\n', s.advance size)

end RecordGate.Yaml.Written
