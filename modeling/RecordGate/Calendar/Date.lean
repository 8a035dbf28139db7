import RecordGate.Number.Ranged
import RecordGate.Text.Order

/-!
# Dates

Days of the Gregorian calendar, continued without gaps in both directions, from 1 January -262143 to
31 December 262142. The order of dates is that of year, month and day.
-/

namespace RecordGate

/-- A leap year is divisible by four, but of the whole centuries only every fourth is one. -/
def isLeapYear (year : Int) : Bool := year % 4 == 0 && (year % 100 != 0 || year % 400 == 0)

def daysInMonth (year : Int) (month : Nat) : Nat :=
  match month with
  | 2 => if isLeapYear year then 29 else 28
  | 4 | 6 | 9 | 11 => 30
  | _ => 31

structure Date where
  year : Int
  month : Nat
  day : Nat
deriving DecidableEq

namespace Date

def firstYear : Int := -262143

def lastYear : Int := 262142

/-- The day with this year, month and day of the month, when there is such a day. -/
def ofParts? (year : Int) (month day : Nat) : Option Date :=
  if firstYear ≤ year ∧ year ≤ lastYear ∧ 1 ≤ month ∧ month ≤ 12 ∧ 1 ≤ day ∧
      day ≤ daysInMonth year month then some ⟨year, month, day⟩
  else none

/-- The day after, unless it is the last one. -/
def next? (d : Date) : Option Date :=
  if d.day + 1 ≤ daysInMonth d.year d.month then some ⟨d.year, d.month, d.day + 1⟩
  else if d.month + 1 ≤ 12 then some ⟨d.year, d.month + 1, 1⟩
  else if d.year + 1 ≤ lastYear then some ⟨d.year + 1, 1, 1⟩
  else none

/-- The day before, unless it is the first one. -/
def previous? (d : Date) : Option Date :=
  if 1 < d.day then some ⟨d.year, d.month, d.day - 1⟩
  else if 1 < d.month then some ⟨d.year, d.month - 1, daysInMonth d.year (d.month - 1)⟩
  else if firstYear ≤ d.year - 1 then some ⟨d.year - 1, 12, 31⟩
  else none

/-- The day that lies a whole number of days after the first of January 1970. -/
def ofDays? (days : Int) : Option Date :=
  let z := days + 719468
  let era := z / 146097
  let dayOfEra := (z % 146097).toNat
  let yearOfEra := (dayOfEra - dayOfEra / 1460 + dayOfEra / 36524 - dayOfEra / 146096) / 365
  let dayOfYear := dayOfEra - (365 * yearOfEra + yearOfEra / 4 - yearOfEra / 100)
  let shifted := (5 * dayOfYear + 2) / 153
  let day := dayOfYear - (153 * shifted + 2) / 5 + 1
  let month := if shifted < 10 then shifted + 3 else shifted - 9
  let year := Int.ofNat yearOfEra + era * 400 + (if month ≤ 2 then 1 else 0)
  ofParts? year month day

def toDays (d : Date) : Int :=
  let year := if d.month ≤ 2 then d.year - 1 else d.year
  let era := year / 400
  let yearOfEra := (year % 400).toNat
  let shifted := if d.month ≤ 2 then d.month + 9 else d.month - 3
  let dayOfYear := (153 * shifted + 2) / 5 + d.day - 1
  let dayOfEra := yearOfEra * 365 + yearOfEra / 4 - yearOfEra / 100 + dayOfYear
  era * 146097 + Int.ofNat dayOfEra - 719468

def orderInt (a b : Int) : Ordering := if a < b then .lt else if b < a then .gt else .eq

def order (a b : Date) : Ordering :=
  ((orderInt a.year b.year).then (Text.orderNat a.month b.month)).then (Text.orderNat a.day b.day)

/-- A year has four digits, and a sign when it lies outside 0 to 9999. -/
def yearText (year : Int) : String :=
  if 0 ≤ year ∧ year ≤ 9999 then padded 4 year.natAbs
  else (if year < 0 then "-" else "+") ++ padded (if year < 0 then 4 else 5) year.natAbs

/-- Year, month and day with hyphens between them. -/
def text (d : Date) : String := yearText d.year ++ "-" ++ padded 2 d.month ++ "-" ++ padded 2 d.day

end Date

end RecordGate
