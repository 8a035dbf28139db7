import RecordGate.Text.CaseTable

/-!
# Lower case

Full lower-casing of a text. Every character has one lower-case form but two: a capital `İ` gives
`i` and a combining dot, and a capital sigma that ends a word gives the final form `ς`.
-/

namespace RecordGate.Text

/-- Membership of a code point in a table of runs. -/
def inRuns (runs : List (Nat × Nat)) (code : Nat) : Bool :=
  runs.any fun r => r.1 ≤ code && code ≤ r.2

def lowerChar (c : Char) : Char :=
  match caseRuns.find? (·.covers c.toNat) with
  | some run => Char.ofNat (Int.toNat (c.toNat + run.shift))
  | none => c

/-- Past the ignorable marks the text goes on with a letter that has case. -/
def meetsLetter (s : List Char) : Bool :=
  match s.dropWhile fun c => inRuns ignorableRuns c.toNat with
  | [] => false
  | c :: _ => inRuns casedRuns c.toNat

/-- A sigma ends a word when a letter comes before it and none after it. -/
def endsWord (before after : List Char) : Bool := meetsLetter before && !meetsLetter after

/-- Lower-cases the second text; the first one holds what came before it, last character first. -/
def lowerFrom : List Char → List Char → List Char
  | _, [] => []
  | before, c :: after =>
      let small :=
        if c == 'İ' then ['i', '\u0307']
        else if c == 'Σ' then [if endsWord before after then 'ς' else 'σ']
        else [lowerChar c]
      small ++ lowerFrom (c :: before) after

def lowercase (s : String) : String := String.ofList (lowerFrom [] s.toList)

end RecordGate.Text
