/-!
# Spans of time

A length of time in seconds and nanoseconds.
-/

namespace RecordGate

/-- A length of time; the nanoseconds are below one thousand million. -/
structure Span where
  seconds : Nat
  nanos : Nat
deriving DecidableEq

namespace Span

def isZero (s : Span) : Bool := s.seconds == 0 && s.nanos == 0

/-- The digits of a fraction of a unit, without zeros at the end. -/
def fractionDigits : Nat → Nat → List Char
  | 0, _ => []
  | places + 1, part =>
      if part == 0 then []
      else
        let unit := Nat.pow 10 places
        (part / unit).digitChar :: fractionDigits places (part % unit)

/-- A whole number of units and the fraction of one, of which a number of digits is known. -/
def inUnits (whole part places : Nat) (unit : String) : String :=
  let digits := fractionDigits places part
  let fraction := if digits.isEmpty then "" else "." ++ String.ofList digits
  toString whole ++ fraction ++ unit

def text (s : Span) : String :=
  if s.seconds != 0 then inUnits s.seconds s.nanos 9 "s"
  else if Nat.ble 1000000 s.nanos then inUnits (s.nanos / 1000000) (s.nanos % 1000000) 6 "ms"
  else if Nat.ble 1000 s.nanos then inUnits (s.nanos / 1000) (s.nanos % 1000) 3 "µs"
  else inUnits s.nanos 0 0 "ns"

end Span

end RecordGate
