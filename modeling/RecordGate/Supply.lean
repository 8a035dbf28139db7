import RecordGate.Uuid

/-!
# Fresh identifiers

A source of identifiers that gives them out one after another.
-/

namespace RecordGate

/-- A sequence of identifiers and how many of them have been given out. -/
structure Supply where
  ids : Nat → Uuid
  used : Nat

/-- The next identifier and the source after it. -/
def Supply.take (s : Supply) : Uuid × Supply := (s.ids s.used, { s with used := s.used + 1 })

end RecordGate
