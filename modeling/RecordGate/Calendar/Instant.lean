import RecordGate.Calendar.Date

/-!
# Instants

A moment of universal time: a day, a second of that day and a part of a second. The last second of
a minute may be followed by a leap second, which is written as second 60 and counts as part of the
second before it.
-/

namespace RecordGate

/-- A moment of universal time. The nanoseconds of a leap second start at one thousand million. -/
structure Instant where
  date : Date
  second : Nat
  nanos : Nat
deriving DecidableEq

namespace Instant

def order (a b : Instant) : Ordering :=
  ((a.date.order b.date).then (Text.orderNat a.second b.second)).then (Text.orderNat a.nanos b.nanos)

/-- The moment that a clock `offset` seconds ahead of universal time shows as the given day, second
and part of a second. The offset is less than a day. -/
def ofLocal? (date : Date) (second nanos : Nat) (offset : Int) : Option Instant :=
  let s := Int.ofNat second - offset
  if s < 0 then date.previous?.map fun d => ⟨d, (s + 86400).toNat, nanos⟩
  else if 86400 ≤ s then date.next?.map fun d => ⟨d, (s - 86400).toNat, nanos⟩
  else some ⟨date, s.toNat, nanos⟩

/-- The moment a whole number of seconds after the start of 1970, when it lies in the calendar. -/
def ofSeconds? (seconds : Int) : Option Instant :=
  (Date.ofDays? (seconds / 86400)).map fun d => ⟨d, (seconds % 86400).toNat, 0⟩

def seconds (t : Instant) : Int := t.date.toDays * 86400 + t.second

/-- The part of a second in three, six or nine digits after a point, or nothing when it is zero. -/
def fractionText (nanos : Nat) : String :=
  if nanos == 0 then ""
  else if nanos % 1000000 == 0 then "." ++ padded 3 (nanos / 1000000)
  else if nanos % 1000 == 0 then "." ++ padded 6 (nanos / 1000)
  else "." ++ padded 9 nanos

/-- Date and time of day with a `T` between them. -/
def localText (t : Instant) : String :=
  let leap := Nat.ble 1000000000 t.nanos
  let second := t.second % 60 + if leap then 1 else 0
  let nanos := if leap then t.nanos - 1000000000 else t.nanos
  t.date.text ++ "T" ++ padded 2 (t.second / 3600) ++ ":" ++ padded 2 (t.second / 60 % 60) ++ ":" ++
    padded 2 second ++ fractionText nanos

/-- The form in which the offset is written as `+00:00`. -/
def text (t : Instant) : String := t.localText ++ "+00:00"

/-- The form in which universal time is marked by `Z`. -/
def zuluText (t : Instant) : String := t.localText ++ "Z"

end Instant

end RecordGate
