import RecordGate.Calendar.Instant
import RecordGate.Text.Blank
import RecordGate.Text.Caseless
import RecordGate.Text.Search

/-!
# Reading dates and instants

Four forms are read. The strict form of RFC 3339 has fields of fixed width. The plain forms of a day
and of a day with a time of day have no offset; blanks may stand before each number and leading
zeros may be missing. The loose form is that of RFC 3339 with the same freedom.
-/

namespace RecordGate.Calendar

/-- A reader takes the start of a text and leaves the rest. -/
abbrev Reader (α : Type) := List Char → Option (α × List Char)

def number (least most : Nat) : Reader Nat := fun s =>
  let digits := (s.take most).takeWhile isDigit
  if Nat.ble least digits.length && !digits.isEmpty then
    some (digitsFrom 0 digits, s.drop digits.length)
  else none

def longNumber : Reader Nat := fun s => number 1 s.length s

def literal (c : Char) : Reader Unit
  | d :: s => if c == d then some ((), s) else none
  | [] => none

def field : Reader Nat := fun s => number 1 2 (Text.skipBlanks s)

/-- A year with blanks allowed before it: up to four digits, or a sign and any number of them. -/
def year : Reader Int := fun s =>
  match Text.skipBlanks s with
  | '-' :: r => (longNumber r).map fun (n, rest) => (-Int.ofNat n, rest)
  | '+' :: r => (longNumber r).map fun (n, rest) => (Int.ofNat n, rest)
  | r => (number 1 4 r).map fun (n, rest) => (Int.ofNat n, rest)

/-- The part of a second after a point, cut to nine digits. -/
def fraction : Reader Nat
  | '.' :: s =>
      let digits := s.takeWhile isDigit
      if digits.isEmpty then none
      else
        let kept := digits.take 9
        some (digitsFrom 0 (kept ++ List.replicate (9 - kept.length) '0'), s.dropWhile isDigit)
  | s => some (0, s)

/-- The time of day that hour, minute and second stand for, with a part of a second. Second 60 is
the leap second after second 59. -/
def timeOfDay? (hour minute second nanos : Nat) : Option (Nat × Nat) :=
  if hour ≤ 23 ∧ minute ≤ 59 ∧ second ≤ 60 then
    if second = 60 then some (hour * 3600 + minute * 60 + 59, 1000000000 + nanos)
    else some (hour * 3600 + minute * 60 + second, nanos)
  else none

/-- The distance of a clock from universal time in seconds: `Z`, or a sign, two digits of hours and
two of minutes, with what `separator` removes between them. -/
def offset (separator : Reader Unit) : Reader Int
  | 'Z' :: s | 'z' :: s => some (0, s)
  | sign :: s =>
      if sign == '+' || sign == '-' || sign == '−' then do
        let (hours, s) ← number 2 2 s
        let (_, s) ← separator s
        let (minutes, s) ← number 2 2 s
        if minutes ≤ 59 then
          let seconds : Int := Int.ofNat (hours * 3600 + minutes * 60)
          return (if sign == '+' then seconds else -seconds, s)
        else none
      else none
  | [] => none

/-- The moment of a local time, when the offset is less than a day. -/
def moment? (date : Date) (time : Nat × Nat) (offset : Int) : Option Instant :=
  if -86400 < offset ∧ offset < 86400 then Instant.ofLocal? date time.1 time.2 offset else none

def strict? (s : List Char) : Option Instant := do
  let (y, s) ← number 4 4 s
  let (_, s) ← literal '-' s
  let (m, s) ← number 2 2 s
  let (_, s) ← literal '-' s
  let (d, s) ← number 2 2 s
  let (_, s) ← (literal 'T' s).or ((literal 't' s).or (literal ' ' s))
  let (hour, s) ← number 2 2 s
  let (_, s) ← literal ':' s
  let (minute, s) ← number 2 2 s
  let (_, s) ← literal ':' s
  let (second, s) ← number 2 2 s
  let (nanos, s) ← fraction s
  let (ahead, s) ← offset (literal ':') s
  let date ← Date.ofParts? y m d
  let time ← timeOfDay? hour minute second nanos
  if s.isEmpty then moment? date time ahead else none

/-- Year, month and day with hyphens; the gap stands before each hyphen. -/
def dayParts (gap : List Char → List Char) : Reader (Int × Nat × Nat) := fun s => do
  let (y, s) ← year s
  let (_, s) ← literal '-' (gap s)
  let (m, s) ← field s
  let (_, s) ← literal '-' (gap s)
  let (d, s) ← field s
  return ((y, m, d), s)

/-- Hour, minute and second with colons; the gap stands before each colon. -/
def clockParts (gap : List Char → List Char) : Reader (Nat × Nat × Nat) := fun s => do
  let (hour, s) ← field s
  let (_, s) ← literal ':' (gap s)
  let (minute, s) ← field s
  let (_, s) ← literal ':' (gap s)
  let (second, s) ← field s
  return ((hour, minute, second), s)

def day? (s : List Char) : Option Date := do
  let ((y, m, d), s) ← dayParts id s
  if s.isEmpty then Date.ofParts? y m d else none

/-- A day and a time of day in the plain form; blanks between them may be missing. -/
def dayTime? (s : List Char) : Option Instant := do
  let ((y, m, d), s) ← dayParts id s
  let ((hour, minute, second), s) ← clockParts id s
  let date ← Date.ofParts? y m d
  let time ← timeOfDay? hour minute second 0
  if s.isEmpty then return ⟨date, time.1, time.2⟩ else none

/-- An instant in one of the forms that people type: strict, a day and a time, or a day alone, which
stands for its midnight. -/
def typed? (s : List Char) : Option Instant :=
  ((strict? s).or (dayTime? s)).or ((day? s).map fun d => ⟨d, 0, 0⟩)

/-- Removes colons and blanks. -/
def colonsAndBlanks : Reader Unit := fun s =>
  some ((), s.dropWhile fun c => c == ':' || Text.isBlank c)

/-- An offset, or the letters `UTC` in either case. -/
def looseOffset : Reader Int := fun s =>
  match Text.dropStart? "utc".toList ((s.take 3).map Text.foldChar) with
  | some _ => some (0, s.drop 3)
  | none => offset colonsAndBlanks s

def loose? (s : List Char) : Option Instant := do
  let ((y, m, d), s) ← dayParts Text.skipBlanks s
  let (_, s) ← (literal 'T' s).or ((literal 't' s).or (literal ' ' s))
  let ((hour, minute, second), s) ← clockParts Text.skipBlanks s
  let (nanos, s) ← fraction s
  let (ahead, s) ← looseOffset (Text.skipBlanks s)
  let date ← Date.ofParts? y m d
  let time ← timeOfDay? hour minute second nanos
  if (Text.skipBlanks s).isEmpty then moment? date time ahead else none

/-- A day in the plain form, in which blanks may also stand before the hyphens and at the end. -/
def looseDay? (s : List Char) : Option Date := do
  let ((y, m, d), s) ← dayParts Text.skipBlanks s
  if (Text.skipBlanks s).isEmpty then Date.ofParts? y m d else none

end RecordGate.Calendar
