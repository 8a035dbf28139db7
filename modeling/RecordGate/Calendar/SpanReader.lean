import RecordGate.Calendar.Span
import RecordGate.Number.Ranged
import RecordGate.Text.Blank

/-!
# Reading spans of time

A span is written as numbers with units, `1h 30m` or `1.5h`; their sum is the span. Blanks may stand
anywhere between digits and before and after a unit. A bare zero is the empty span. All amounts are
kept below two to the power of 64.
-/

namespace RecordGate.Span

/-- The least number that an amount cannot have. -/
def limit : Nat := 18446744073709551616

def within? (n : Nat) : Option Nat := if Nat.blt n limit then some n else none

/-- A unit, by its size in seconds or by the number of its parts in a second. -/
inductive TimeUnit
  | part (perSecond : Nat)
  | whole (seconds : Nat)
deriving DecidableEq

namespace TimeUnit

def named : List (String × TimeUnit) :=
  [ ("nanos", .part 1000000000), ("nsec", .part 1000000000), ("ns", .part 1000000000),
    ("usec", .part 1000000), ("us", .part 1000000), ("µs", .part 1000000),
    ("millis", .part 1000), ("msec", .part 1000), ("ms", .part 1000),
    ("seconds", .whole 1), ("second", .whole 1), ("secs", .whole 1), ("sec", .whole 1),
    ("s", .whole 1),
    ("minutes", .whole 60), ("minute", .whole 60), ("mins", .whole 60), ("min", .whole 60),
    ("m", .whole 60),
    ("hours", .whole 3600), ("hour", .whole 3600), ("hrs", .whole 3600), ("hr", .whole 3600),
    ("h", .whole 3600),
    ("days", .whole 86400), ("day", .whole 86400), ("d", .whole 86400),
    ("weeks", .whole 604800), ("week", .whole 604800), ("wks", .whole 604800),
    ("wk", .whole 604800), ("w", .whole 604800),
    ("months", .whole 2630016), ("month", .whole 2630016), ("M", .whole 2630016),
    ("years", .whole 31557600), ("year", .whole 31557600), ("yrs", .whole 31557600),
    ("yr", .whole 31557600), ("y", .whole 31557600) ]

def ofName? (name : List Char) : Option TimeUnit :=
  (named.find? fun u => u.1 == String.ofList name).map (·.2)

def whole? (n : Nat) : TimeUnit → Option Span
  | .part p => (within? (n * (1000000000 / p))).map fun nanos => ⟨0, nanos⟩
  | .whole k => (within? (n * k)).map fun seconds => ⟨seconds, 0⟩

/-- A fraction of a unit, cut to nanoseconds for units up to a minute and to seconds above. The least
unit has no fractions. -/
def fraction? (n d : Nat) : TimeUnit → Option Span
  | .part p =>
      if p == 1000000000 then none
      else (within? (n * (1000000000 / p))).map fun nanos => ⟨0, nanos / d⟩
  | .whole k =>
      if Nat.ble k 60 then (within? (n * (k * 1000000000))).map fun nanos => ⟨0, nanos / d⟩
      else (within? (n * k)).map fun seconds => ⟨seconds / d, 0⟩

end TimeUnit

def add? (x y : Span) : Option Span := do
  let nanos ← within? (x.nanos + y.nanos)
  let seconds ← within? (x.seconds + y.seconds + nanos / 1000000000)
  return ⟨seconds, nanos % 1000000000⟩

/-- The number in front of a unit: its whole part and its fraction, if it has one. -/
structure Amount where
  whole : Nat
  fraction : Option (Nat × Nat) := none

inductive Reading
  | gap
  | whole (n : Nat)
  | fraction (n numerator denominator : Nat)
  | unit (amount : Amount) (name : List Char)

/-- A span is being read: what comes next, and the sum so far. -/
structure Progress where
  reading : Reading
  sum : Span

/-- Adds an amount of the unit with a name, given last character first. -/
def addUnit? (sum : Span) (amount : Amount) (name : List Char) : Option Span := do
  let unit ← TimeUnit.ofName? name.reverse
  let sum ← sum.add? (← unit.whole? amount.whole)
  match amount.fraction with
  | none => return sum
  | some (n, d) => sum.add? (← unit.fraction? n d)

def isUnitLetter (c : Char) : Bool := c.isAlpha || c == 'µ'

def Progress.step (p : Progress) (c : Char) : Option Progress :=
  let go (r : Reading) : Option Progress := some { p with reading := r }
  match p.reading with
  | .gap =>
      match digit? c with
      | some d => go (.whole d)
      | none => if Text.isBlank c then go .gap else none
  | .whole n =>
      match digit? c with
      | some d => (within? (10 * n + d)).bind fun n => go (.whole n)
      | none =>
          if Text.isBlank c then go (.whole n)
          else if isUnitLetter c then go (.unit ⟨n, none⟩ [c])
          else if c == '.' then go (.fraction n 0 1)
          else none
  | .fraction n a b =>
      match digit? c with
      | some d => (within? (10 * b)).bind fun b => go (.fraction n (10 * a + d) b)
      | none =>
          if Text.isBlank c then go (.fraction n a b)
          else if isUnitLetter c && b != 1 then go (.unit ⟨n, some (a, b)⟩ [c])
          else none
  | .unit amount name =>
      if isUnitLetter c then go (.unit amount (c :: name))
      else
        match digit? c, Text.isBlank c with
        | some d, _ => (addUnit? p.sum amount name).map fun sum => ⟨.whole d, sum⟩
        | none, true => (addUnit? p.sum amount name).map fun sum => ⟨.gap, sum⟩
        | none, false => none

def Progress.finish? (p : Progress) : Option Span :=
  match p.reading with
  | .gap => some p.sum
  | .unit amount name => addUnit? p.sum amount name
  | _ => none

/-- The span that a text writes; there is one amount at least. -/
def read? (text : String) : Option Span := do
  if text == "0" then return ⟨0, 0⟩
  if text.toList.all Text.isBlank then none
  let p ← text.toList.foldlM Progress.step ⟨.gap, ⟨0, 0⟩⟩
  p.finish?

end RecordGate.Span
