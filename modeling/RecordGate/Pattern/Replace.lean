import RecordGate.Number.Ranged
import RecordGate.Pattern.Basic

/-!
# Replacing matches

Replaces every match of a pattern in a text, from left to right. A match without characters counts
only where no match ends. The replacement is a template: `$` and a number stand for the text of a
group, `$0` for the whole match, `$$` for a dollar sign, and a name stands for nothing.
-/

namespace RecordGate

inductive TemplatePart
  | char (c : Char)
  | group (index : Nat)
deriving DecidableEq

abbrev Template := List TemplatePart

namespace Template

/-- The characters of a name without braces. -/
def isNameChar (c : Char) : Bool := CharSet.word.has c

/-- What a name stands for. -/
def reference (name : List Char) : Template :=
  let digits :=
    match name with
    | '+' :: s => s
    | s => s
  match natural? digits with
  | some n => [.group n]
  | none => []

/-- What stands behind a dollar sign: its parts and the text after it. -/
def afterDollar (s : List Char) : Template × List Char :=
  match s with
  | '$' :: rest => ([.char '$'], rest)
  | '\x7b' :: inner =>
      match inner.dropWhile (· != '\x7d') with
      | [] => ([.char '$'], s)
      | _ :: rest => (reference (inner.takeWhile (· != '\x7d')), rest)
  | _ =>
      let name := s.takeWhile isNameChar
      if name.isEmpty then ([.char '$'], s) else (reference name, s.dropWhile isNameChar)

/-- Reads a template; each step takes one character at least. -/
def scan : Nat → List Char → Template
  | _, [] => []
  | 0, _ => []
  | fuel + 1, '$' :: s =>
      let (parts, rest) := afterDollar s
      parts ++ scan fuel rest
  | fuel + 1, c :: s => .char c :: scan fuel s

def read (s : List Char) : Template := scan s.length s

end Template

/-- A match: its text, the texts of its groups and what follows it. -/
structure PatternMatch where
  text : List Char
  groups : List (Nat × List Char)
  rest : List Char

namespace PatternMatch

/-- The text of a group; the whole match is group 0, and a group that took no part has no text. -/
def group (m : PatternMatch) (index : Nat) : List Char :=
  if index == 0 then m.text else ((m.groups.find? fun g => g.1 == index).map (·.2)).getD []

def expand (m : PatternMatch) : Template → List Char
  | [] => []
  | .char c :: parts => c :: m.expand parts
  | .group n :: parts => m.group n ++ m.expand parts

end PatternMatch

namespace Pattern

/-- The preferred match that begins at a place. -/
def matchAt? (a : Pattern) (p : Cursor) : Option PatternMatch :=
  (a.ends p).head?.map fun q => ⟨p.upTo q, q.groups, q.rest⟩

/-- Replaces the matches in a text. `joined` says that a match ends where the text begins. -/
def replaceFrom (a : Pattern) (template : Template) (atStart joined : Bool) (s : List Char) :
    List Char :=
  match a.matchAt? ⟨s, atStart, []⟩ with
  | none =>
      match s with
      | [] => []
      | c :: r => c :: a.replaceFrom template false false r
  | some m =>
      if m.rest.length < s.length then
        m.expand template ++ a.replaceFrom template false true m.rest
      else
        let inserted := if joined then [] else m.expand template
        match s with
        | [] => inserted
        | c :: r => inserted ++ c :: a.replaceFrom template false false r
termination_by s.length

def replaceAll (a : Pattern) (template : Template) (s : List Char) : List Char :=
  a.replaceFrom template true false s

end Pattern

end RecordGate
