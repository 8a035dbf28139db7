import RecordGate.Text.Blank

/-!
# Patterns

Regular expressions over characters, and the places where a match of one can end. The places are
listed in the order of preference: those of the left alternative come first, a greedy repetition
goes on before it stops, and a round of a repetition that consumes nothing ends the repetition. What
follows a match depends on the place alone, so a repetition visits every place once, and a sequence
keeps only the preferred way to a place.
-/

namespace RecordGate

/-- The characters in some ranges, or all other characters. -/
structure CharSet where
  negated : Bool
  ranges : List (Char × Char)
deriving DecidableEq

namespace CharSet

def has (s : CharSet) (c : Char) : Bool :=
  s.negated != s.ranges.any fun r => Nat.ble r.1.toNat c.toNat && Nat.ble c.toNat r.2.toNat

def single (c : Char) : CharSet := ⟨false, [(c, c)]⟩

/-- Every character that does not end a line. -/
def unbroken : CharSet := ⟨true, [('\n', '\n')]⟩

def complement (s : CharSet) : CharSet := ⟨!s.negated, s.ranges⟩

def digit : CharSet := ⟨false, [('0', '9')]⟩

def word : CharSet := ⟨false, [('0', '9'), ('A', 'Z'), ('_', '_'), ('a', 'z')]⟩

/-- The Unicode property `White_Space`. -/
def blank : CharSet :=
  ⟨false, [('\t', '\r'), (' ', ' '), ('\u0085', '\u0085'), ('\u00a0', '\u00a0'),
    ('\u1680', '\u1680'), ('\u2000', '\u200a'), ('\u2028', '\u2029'), ('\u202f', '\u202f'),
    ('\u205f', '\u205f'), ('\u3000', '\u3000')]⟩

end CharSet

inductive Pattern
  | empty
  | one (set : CharSet)
  | start
  | finish
  | seq (first second : Pattern)
  | either (first second : Pattern)
  | group (index : Nat) (body : Pattern)
  | star (greedy : Bool) (body : Pattern)
deriving DecidableEq

/-- A place in a text: what follows it, whether the text starts there, and the texts that the groups
have matched so far, the latest first. -/
structure Cursor where
  rest : List Char
  atStart : Bool
  groups : List (Nat × List Char) := []
deriving DecidableEq

/-- The text between a place and a later one. -/
def Cursor.upTo (p q : Cursor) : List Char := p.rest.take (p.rest.length - q.rest.length)

/-- The text of a group that began at an earlier place. -/
def Cursor.capture (index : Nat) (p q : Cursor) : Cursor :=
  { q with groups := (index, p.upTo q) :: q.groups }

/-- The places of a list, each with the first way that leads to it. -/
def Cursor.distinct : List Cursor → List Cursor
  | [] => []
  | p :: ps => p :: (distinct ps).filter fun q => q.rest.length != p.rest.length

/-- What a repetition has found: the places it has visited, by the length of what follows them, and
the places where it can end, the latest first. -/
structure Trail where
  seen : List Nat := []
  ends : List Cursor := []

/-- The repetition can end at a place. -/
def Trail.stop (t : Trail) (p : Cursor) : Trail := { t with ends := p :: t.ends }

namespace Pattern

/-- Follows the rounds of a step from a place, for as many rounds as are allowed. -/
def explore (step : Cursor → List Cursor) (greedy : Bool) : Nat → Trail → Cursor → Trail
  | 0, t, p => t.stop p
  | rounds + 1, t, p =>
      let length := p.rest.length
      if t.seen.contains length then t
      else
        let entered : Trail := { t with seen := length :: t.seen }
        let further (t : Trail) : Trail :=
          (step p).foldl
            (fun t q =>
              if Nat.blt q.rest.length length then explore step greedy rounds t q else t.stop q) t
        if greedy then (further entered).stop p else further (entered.stop p)

/-- The places that rounds of a step lead to. -/
def iterate (step : Cursor → List Cursor) (greedy : Bool) (p : Cursor) : List Cursor :=
  (explore step greedy p.rest.length {} p).ends.reverse

/-- The places where a match that begins at a place can end. -/
def ends : Pattern → Cursor → List Cursor
  | .empty, p => [p]
  | .one set, p =>
      match p.rest with
      | [] => []
      | c :: rest => if set.has c then [{ p with rest := rest, atStart := false }] else []
  | .start, p => if p.atStart then [p] else []
  | .finish, p => if p.rest.isEmpty then [p] else []
  | .seq a b, p => Cursor.distinct ((a.ends p).flatMap b.ends)
  | .either a b, p => a.ends p ++ b.ends p
  | .group index a, p => (a.ends p).map (Cursor.capture index p)
  | .star greedy a, p => iterate a.ends greedy p

def plus (greedy : Bool) (a : Pattern) : Pattern := .seq a (.star greedy a)

def optional (greedy : Bool) (a : Pattern) : Pattern :=
  if greedy then .either a .empty else .either .empty a

/-- Up to a number of matches. -/
def atMost (greedy : Bool) (a : Pattern) : Nat → Pattern
  | 0 => .empty
  | n + 1 => optional greedy (.seq a (atMost greedy a n))

/-- A number of matches and what follows them. -/
def times (a next : Pattern) : Nat → Pattern
  | 0 => next
  | n + 1 => .seq a (times a next n)

/-- Between a least number of matches and a greatest one, if there is one. -/
def repeated (least : Nat) (most : Option Nat) (greedy : Bool) (a : Pattern) : Pattern :=
  match most with
  | none => times a (.star greedy a) least
  | some n => times a (atMost greedy a (n - least)) least

end Pattern

end RecordGate
