import RecordGate.Number.Ranged
import RecordGate.Pattern.Basic

/-!
# Patterns in writing

Reads a regular expression: characters, sets in brackets, the classes `\d`, `\s` and `\w`, a dot,
anchors, groups, alternatives and repetitions, which are lazy before a further `?`. The text is cut
into tokens first; the tokens are then put together with a stack of the groups that are open. A text
outside this grammar is no pattern.
-/

namespace RecordGate

/-- A token of a written pattern. -/
inductive PatternToken
  | atom (pattern : Pattern)
  | enter (capturing : Bool)
  | leave
  | bar
  | again (least : Nat) (most : Option Nat) (greedy : Bool)

namespace PatternToken

/-- The characters that stand for themselves behind a backslash. -/
def isPunctuation (c : Char) : Bool :=
  let n := c.toNat
  let between (low high : Nat) : Bool := Nat.ble low n && Nat.ble n high
  (between 33 47 || between 58 64 || between 91 96 || between 123 126) && c != '<' && c != '>'

/-- The character that an escape stands for. -/
def escaped? (c : Char) : Option Char :=
  if isPunctuation c then some c
  else
    match c with
    | 'n' => some '\n'
    | 'r' => some '\r'
    | 't' => some '\t'
    | 'f' => some '\x0c'
    | 'v' => some '\x0b'
    | 'a' => some '\x07'
    | _ => none

/-- The set that an escape stands for. -/
def class? : Char → Option CharSet
  | 'd' => some .digit
  | 's' => some .blank
  | 'w' => some .word
  | 'D' => some CharSet.digit.complement
  | 'S' => some CharSet.blank.complement
  | 'W' => some CharSet.word.complement
  | _ => none

/-- What an escape stands for outside brackets. -/
def escape? (c : Char) : Option Pattern :=
  match escaped? c, class? c, c with
  | some d, _, _ => some (.one (.single d))
  | none, some set, _ => some (.one set)
  | none, none, 'A' => some .start
  | none, none, 'z' => some .finish
  | none, none, _ => none

/-- A member of a set in brackets: one character or the ranges of a class. -/
def member? : List Char → Option ((Char ⊕ List (Char × Char)) × List Char)
  | '\\' :: c :: s =>
      match escaped? c, class? c with
      | some d, _ => some (.inl d, s)
      | none, some ⟨false, ranges⟩ => some (.inr ranges, s)
      | none, _ => none
  | '\\' :: [] => none
  | c :: s => some (.inl c, s)
  | [] => none

/-- Two signs in a row that combine sets in brackets, and a set within a set. -/
def isCombination : List Char → Bool
  | '[' :: _ => true
  | '&' :: '&' :: _ => true
  | '-' :: '-' :: _ => true
  | '~' :: '~' :: _ => true
  | _ => false

/-- The ranges up to the closing bracket and the text after it. -/
def members? : Nat → List (Char × Char) → List Char → Option (List (Char × Char) × List Char)
  | 0, _, _ => none
  | _, _, [] => none
  | _, ranges, ']' :: s => some (ranges, s)
  | fuel + 1, ranges, s =>
      if isCombination s then none
      else
        match member? s with
        | none => none
        | some (.inr more, s) => members? fuel (ranges ++ more) s
        | some (.inl low, '-' :: ']' :: s) => members? fuel (ranges ++ [(low, low)]) ('-' :: ']' :: s)
        | some (.inl low, '-' :: '-' :: s) => members? fuel (ranges ++ [(low, low)]) ('-' :: '-' :: s)
        | some (.inl low, '-' :: s) =>
            match member? s with
            | some (.inl high, s) =>
                if Nat.ble low.toNat high.toNat then members? fuel (ranges ++ [(low, high)]) s
                else none
            | _ => none
        | some (.inl c, s) => members? fuel (ranges ++ [(c, c)]) s

/-- The dashes at the start of a set, or else a closing bracket there, stand for themselves. -/
def opening : List Char → List (Char × Char) × List Char
  | ']' :: s => ([(']', ']')], s)
  | s => ((s.takeWhile (· == '-')).map fun c => (c, c), s.dropWhile (· == '-'))

/-- A set behind its opening bracket, and the text after it. -/
def set? (s : List Char) : Option (CharSet × List Char) :=
  let (negated, s) :=
    match s with
    | '^' :: r => (true, r)
    | r => (false, r)
  let (ranges, s) := opening s
  (members? (s.length + 1) ranges s).map fun (ranges, rest) => (⟨negated, ranges⟩, rest)

/-- The numbers of a counted repetition behind its opening brace, and the text after it. -/
def counts? (s : List Char) : Option ((Nat × Option Nat) × List Char) := do
  let least ← natural? (s.takeWhile isDigit)
  match s.dropWhile isDigit with
  | '\x7d' :: rest => some ((least, some least), rest)
  | ',' :: '\x7d' :: rest => some ((least, none), rest)
  | ',' :: s =>
      let most ← natural? (s.takeWhile isDigit)
      match s.dropWhile isDigit with
      | '\x7d' :: rest => if Nat.ble least most then some ((least, some most), rest) else none
      | _ => none
  | _ => none

/-- A repetition is lazy when a question mark follows it. -/
def lazily (least : Nat) (most : Option Nat) : List Char → PatternToken × List Char
  | '?' :: s => (.again least most false, s)
  | s => (.again least most true, s)

/-- The first token and the text after it. -/
def next? : List Char → Option (PatternToken × List Char)
  | [] => none
  | '\\' :: c :: s => (escape? c).map fun p => (.atom p, s)
  | '\\' :: [] => none
  | '[' :: s => (set? s).map fun (set, rest) => (.atom (.one set), rest)
  | '\x7b' :: s => (counts? s).map fun ((least, most), rest) => lazily least most rest
  | '(' :: '?' :: ':' :: s => some (.enter false, s)
  | '(' :: '?' :: _ => none
  | '(' :: s => some (.enter true, s)
  | ')' :: s => some (.leave, s)
  | '|' :: s => some (.bar, s)
  | '*' :: s => some (lazily 0 none s)
  | '+' :: s => some (lazily 1 none s)
  | '?' :: s => some (lazily 0 (some 1) s)
  | '.' :: s => some (.atom (.one .unbroken), s)
  | '^' :: s => some (.atom .start, s)
  | '$' :: s => some (.atom .finish, s)
  | c :: s => some (.atom (.one (.single c)), s)

/-- The tokens of a text; each of them takes one character at least. -/
def scan? : Nat → List Char → Option (List PatternToken)
  | _, [] => some []
  | 0, _ => none
  | fuel + 1, s => do
      let (token, rest) ← next? s
      let tokens ← scan? fuel rest
      return token :: tokens

end PatternToken

/-- A group that is being read: its earlier alternatives and the parts of the present one, the last
first, and its number when it has one. -/
structure OpenGroup where
  earlier : List Pattern := []
  parts : List Pattern := []
  index : Option Nat := none

namespace OpenGroup

def alternative (g : OpenGroup) : Pattern :=
  match g.parts with
  | [] => .empty
  | last :: before => before.foldl (fun p q => .seq q p) last

def pattern (g : OpenGroup) : Pattern :=
  let body := g.earlier.foldl (fun p q => .either q p) g.alternative
  match g.index with
  | some n => .group n body
  | none => body

end OpenGroup

/-- The groups that are open, the innermost first, and the number of the next one. -/
structure PatternStack where
  top : OpenGroup := {}
  outer : List OpenGroup := []
  next : Nat := 1

namespace PatternStack

def push (s : PatternStack) (p : Pattern) : PatternStack :=
  { s with top := { s.top with parts := p :: s.top.parts } }

def step (s : PatternStack) : PatternToken → Option PatternStack
  | .atom p => some (s.push p)
  | .enter true => some ⟨{ index := some s.next }, s.top :: s.outer, s.next + 1⟩
  | .enter false => some ⟨{}, s.top :: s.outer, s.next⟩
  | .leave =>
      match s.outer with
      | [] => none
      | g :: outer => some (PatternStack.push ⟨g, outer, s.next⟩ s.top.pattern)
  | .bar => some { s with top := { s.top with earlier := s.top.alternative :: s.top.earlier, parts := [] } }
  | .again least most greedy =>
      match s.top.parts with
      | [] => none
      | p :: parts =>
          some { s with top := { s.top with parts := p.repeated least most greedy :: parts } }

def finish? (s : PatternStack) : Option Pattern :=
  if s.outer.isEmpty then some s.top.pattern else none

end PatternStack

def Pattern.read? (s : List Char) : Option Pattern := do
  let tokens ← PatternToken.scan? s.length s
  let stack ← tokens.foldlM PatternStack.step {}
  stack.finish?

end RecordGate
