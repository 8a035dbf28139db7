import RecordGate.Calendar.Span

/-!
# Settings of authentication
-/

namespace RecordGate

/-- How credentials are made and checked, and which paths need none. -/
structure AuthSettings where
  secret : String := ""
  issuer : Option String := none
  lifetime : Span := ⟨3600, 0⟩
  leeway : Nat := 30
  publicPaths : List String := ["/health", "/metrics"]
  directoryFile : Option String := none

end RecordGate
