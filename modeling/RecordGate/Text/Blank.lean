/-!
# Blank characters

The characters of Unicode property `White_Space`, and the removal of blanks from the ends of a text.
A text without blanks is trimmed already.
-/

namespace RecordGate.Text

/-- The Unicode property `White_Space`. -/
def isBlank (c : Char) : Bool :=
  let n := c.toNat
  (0x9 ≤ n && n ≤ 0xD) || n == 0x20 || n == 0x85 || n == 0xA0 || n == 0x1680 ||
    (0x2000 ≤ n && n ≤ 0x200A) || n == 0x2028 || n == 0x2029 || n == 0x202F || n == 0x205F ||
    n == 0x3000

/-- The text without the blanks at its start. -/
def skipBlanks (s : List Char) : List Char := s.dropWhile isBlank

/-- The text without the blanks at either end. -/
def trimmed (s : List Char) : List Char := (skipBlanks (skipBlanks s).reverse).reverse

def trim (s : String) : String := String.ofList (trimmed s.toList)

theorem skipBlanks_of_not_isBlank {c : Char} {s : List Char} (h : isBlank c = false) :
    skipBlanks (c :: s) = c :: s := by
  simp [skipBlanks, List.dropWhile, h]

theorem trimmed_of_forall {s : List Char} (h : ∀ c ∈ s, isBlank c = false) : trimmed s = s := by
  have hskip (t : List Char) (ht : ∀ c ∈ t, isBlank c = false) : skipBlanks t = t := by
    cases t with
    | nil => rfl
    | cons c t => exact skipBlanks_of_not_isBlank (ht c List.mem_cons_self)
  rw [trimmed, hskip s h, hskip s.reverse fun c hc => h c (List.mem_reverse.mp hc),
    List.reverse_reverse]

end RecordGate.Text
