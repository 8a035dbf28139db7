/-!
# Search inside a text

Occurrence of one text in another, splitting at a separator and replacement of characters.
-/

namespace RecordGate.Text

/-- The rest of a text after a given beginning. -/
def dropStart? : List Char → List Char → Option (List Char)
  | [], s => some s
  | _ :: _, [] => none
  | c :: p, d :: s => if c == d then dropStart? p s else none

theorem dropStart?_eq_some_iff {p s r : List Char} : dropStart? p s = some r ↔ s = p ++ r := by
  induction p generalizing s with
  | nil => simp [dropStart?, eq_comm]
  | cons c p ih =>
      cases s with
      | nil => simp [dropStart?]
      | cons d s =>
          by_cases h : c = d
          · subst h
            simp [dropStart?, ih]
          · have h' : d ≠ c := fun e => h e.symm
            simp [dropStart?, h, h']

def startsWith (p s : List Char) : Bool := (dropStart? p s).isSome

def occursIn (needle : List Char) : List Char → Bool
  | [] => needle.isEmpty
  | c :: s => startsWith needle (c :: s) || occursIn needle s

theorem startsWith_iff {p s : List Char} : startsWith p s = true ↔ ∃ r, s = p ++ r := by
  simp only [startsWith, Option.isSome_iff_exists, dropStart?_eq_some_iff]

theorem occursIn_iff {p s : List Char} : occursIn p s = true ↔ ∃ a b, s = a ++ (p ++ b) := by
  induction s with
  | nil =>
      simp only [occursIn, List.isEmpty_iff]
      constructor
      · intro h
        subst h
        exact ⟨[], [], rfl⟩
      · intro h
        obtain ⟨a, b, h⟩ := h
        have h' := congrArg List.length h
        simp only [List.length_nil, List.length_append] at h'
        exact List.length_eq_zero_iff.mp (by omega)
  | cons c s ih =>
      simp only [occursIn, Bool.or_eq_true, startsWith_iff, ih]
      constructor
      · intro h
        rcases h with ⟨r, h⟩ | ⟨a, b, h⟩
        · exact ⟨[], r, h⟩
        · exact ⟨c :: a, b, by simp [h]⟩
      · intro h
        obtain ⟨a, b, h⟩ := h
        cases a with
        | nil => exact .inl ⟨b, h⟩
        | cons d a =>
            simp only [List.cons_append, List.cons.injEq] at h
            exact .inr ⟨a, b, h.2⟩

def contains (hay needle : String) : Bool := occursIn needle.toList hay.toList

/-- The text before the first separator and the text after it. -/
def splitFirst (separator : Char) : List Char → Option (List Char × List Char)
  | [] => none
  | c :: s =>
      if c == separator then some ([], s)
      else (splitFirst separator s).map fun (a, b) => (c :: a, b)

/-- The pieces between the separators; there is always one piece at least. -/
def pieces (separator : Char) : List Char → List (List Char)
  | [] => [[]]
  | c :: s =>
      if c == separator then [] :: pieces separator s
      else
        match pieces separator s with
        | [] => [[c]]
        | p :: ps => (c :: p) :: ps

def split (separator : Char) (s : String) : List String :=
  (pieces separator s.toList).map String.ofList

/-- The text before the last separator and the text after it. -/
def splitLast (separator : Char) (s : List Char) : Option (List Char × List Char) :=
  (splitFirst separator s.reverse).map fun (a, b) => (b.reverse, a.reverse)

/-- Joins texts with a separator between them. -/
def join (separator : String) : List String → String
  | [] => ""
  | [s] => s
  | s :: t :: rest => s ++ separator ++ join separator (t :: rest)

end RecordGate.Text
