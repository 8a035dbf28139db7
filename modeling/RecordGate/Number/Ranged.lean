/-!
# Whole numbers between bounds

A number that is known to lie between two bounds, and the reading of such numbers from decimal text:
an optional sign and at least one digit. A text whose number lies outside the bounds is refused.
-/

namespace RecordGate

/-- A whole number between two bounds. -/
structure Ranged (low high : Int) where
  val : Int
  low_le : low ≤ val
  le_high : val ≤ high
deriving DecidableEq

abbrev Integer64 := Ranged (-9223372036854775808) 9223372036854775807

abbrev Integer32 := Ranged (-2147483648) 2147483647

namespace Ranged

variable {low high : Int}

def ofInt? (n : Int) : Option (Ranged low high) :=
  if h : low ≤ n ∧ n ≤ high then some ⟨n, h.1, h.2⟩ else none

theorem ofInt?_val (r : Ranged low high) : ofInt? r.val = some r := by
  simp [ofInt?, r.low_le, r.le_high]

theorem val_of_ofInt? {n : Int} {r : Ranged low high} (h : ofInt? n = some r) : r.val = n := by
  unfold ofInt? at h
  split at h
  · cases h
    rfl
  · cases h

end Ranged

/-- The number of 64 bits that is nearest to a given one. -/
def Integer64.nearest (n : Int) : Integer64 :=
  if h : n < -9223372036854775808 then ⟨-9223372036854775808, by decide, by decide⟩
  else if h' : 9223372036854775807 < n then ⟨9223372036854775807, by decide, by decide⟩
  else ⟨n, by omega, by omega⟩

def digit? (c : Char) : Option Nat :=
  if '0'.toNat ≤ c.toNat && c.toNat ≤ '9'.toNat then some (c.toNat - '0'.toNat) else none

def isDigit (c : Char) : Bool := (digit? c).isSome

/-- The number that digits write after a given number. -/
def digitsFrom (start : Nat) : List Char → Nat
  | [] => start
  | c :: s => digitsFrom (10 * start + (digit? c).getD 0) s

/-- The number that a text of digits writes; the text holds one digit at least and nothing else. -/
def natural? (s : List Char) : Option Nat :=
  if !s.isEmpty && s.all isDigit then some (digitsFrom 0 s) else none

/-- The number that a text writes as an optional sign and digits. -/
def signed? : List Char → Option Int
  | '+' :: s => (natural? s).map Int.ofNat
  | '-' :: s => (natural? s).map fun n => -Int.ofNat n
  | s => (natural? s).map Int.ofNat

/-- A number with a fixed number of digits at least. -/
def padded (width : Nat) (n : Nat) : String :=
  let digits := Nat.toDigits 10 n
  String.ofList (List.replicate (width - digits.length) '0' ++ digits)

end RecordGate
