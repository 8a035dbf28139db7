/-!
# Comparison without regard to ASCII case

Only the letters `A` to `Z` are folded; any other character is equal to itself alone. The relation
is an equivalence, because it compares images under one function.
-/

namespace RecordGate.Text

/-- The small letter of an ASCII capital; any other character unchanged. -/
def foldChar (c : Char) : Char :=
  if 'A'.toNat ≤ c.toNat && c.toNat ≤ 'Z'.toNat then Char.ofNat (c.toNat + 32) else c

def fold (s : String) : List Char := s.toList.map foldChar

/-- Two texts are the same when their folded forms are. -/
def sameName (a b : String) : Bool := fold a == fold b

theorem sameName_iff {a b : String} : sameName a b = true ↔ fold a = fold b := by
  simp [sameName]

@[simp] theorem sameName_refl (a : String) : sameName a a = true := by simp [sameName]

theorem sameName_symm {a b : String} (h : sameName a b = true) : sameName b a = true := by
  rw [sameName_iff] at *
  exact h.symm

theorem sameName_trans {a b c : String} (h : sameName a b = true) (k : sameName b c = true) :
    sameName a c = true := by
  rw [sameName_iff] at *
  exact h.trans k

end RecordGate.Text
