import RecordGate.Number.Binary64
import RecordGate.Number.Ranged

/-!
# Decimal numbers

The double nearest to a decimal number, and the fewest digits that read back as a given double.
-/

namespace RecordGate.Decimal

/-- The value nearest to `digits * 10 ^ exponent`. Exponents that leave the range of doubles whatever
the digits are answered without computing the power. -/
def nearest (negative : Bool) (digits : Nat) (exponent : Int) : Binary64 :=
  let size : Int := exponent + (Nat.toDigits 10 digits).length
  if digits == 0 then .ofMagnitude negative 0
  else if size > 400 then .ofMagnitude negative Binary64.infinite
  else if size < -400 then .ofMagnitude negative 0
  else
    match exponent with
    | .ofNat e => .ofQuotient negative (digits * Nat.pow 10 e) 1
    | .negSucc e => .ofQuotient negative digits (Nat.pow 10 (e + 1))

/-- The digits before and after the point, the point removed, with the count of those after it. -/
def mantissa? (s : List Char) : Option (Nat × Nat) :=
  let whole := s.takeWhile isDigit
  match s.dropWhile isDigit with
  | [] => if whole.isEmpty then none else some (digitsFrom 0 whole, 0)
  | '.' :: fraction =>
      if fraction.all isDigit && !(whole.isEmpty && fraction.isEmpty) then
        some (digitsFrom 0 (whole ++ fraction), fraction.length)
      else none
  | _ => none

def splitExponent? (s : List Char) : Option (List Char × Int) :=
  let mantissa := s.takeWhile fun c => !(c == 'e' || c == 'E')
  match s.dropWhile fun c => !(c == 'e' || c == 'E') with
  | [] => some (mantissa, 0)
  | _ :: exponent => (signed? exponent).map fun e => (mantissa, e)

/-- Reads a number without its sign: digits with an optional point and an optional exponent. -/
def unsigned? (negative : Bool) (s : List Char) : Option Binary64 := do
  let (mantissa, exponent) ← splitExponent? s
  let (digits, places) ← mantissa? mantissa
  return nearest negative digits (exponent - places)

/-- The names of the values that are no decimal numbers. -/
def special? (negative : Bool) (s : List Char) : Option Binary64 :=
  match String.ofList (s.map Char.toLower) with
  | "inf" | "infinity" => some (.ofMagnitude negative Binary64.infinite)
  | "nan" => some (.ofMagnitude negative 0x7FF8000000000000)
  | _ => none

/-- Reads a number in decimal notation, or one of the names `inf`, `infinity` and `nan`. -/
def read? (s : List Char) : Option Binary64 :=
  let (negative, rest) :=
    match s with
    | '-' :: r => (true, r)
    | '+' :: r => (false, r)
    | r => (false, r)
  (special? negative rest).or (unsigned? negative rest)

/-- Which of two neighbours a value takes that lies exactly between them. -/
inductive Tie
  | up
  | even
deriving DecidableEq

/-- The interval of quotients `num / den` that round to a value, with the value itself. Its ends
belong to it when the significand is even. -/
structure Interval where
  low : Nat
  value : Nat
  high : Nat
  den : Nat
  closed : Bool

def interval (x : Binary64) : Interval :=
  let (m, q) := x.parts
  let narrow := m == Binary64.leadingBit && x.magnitude.val / Binary64.leadingBit != 1
  let low := if narrow then 4 * m - 1 else 4 * m - 2
  let (scale, den) :=
    match q - 2 with
    | .ofNat e => (Nat.pow 2 e, 1)
    | .negSucc e => (1, Nat.pow 2 (e + 1))
  ⟨low * scale, 4 * m * scale, (4 * m + 2) * scale, den, m % 2 == 0⟩

/-- The multiple of `10 ^ k` nearest to the value among its two neighbours inside the interval. -/
def Interval.hit? (i : Interval) (tie : Tie) (k : Int) : Option Nat :=
  let (unit, den) :=
    match k with
    | .ofNat e => (i.den * Nat.pow 10 e, 1)
    | .negSucc e => (i.den, Nat.pow 10 (e + 1))
  let value := i.value * den
  let below := value / unit
  let above := below + 1
  let inside (d : Nat) (strictLow strictHigh : Bool) : Bool :=
    (strictLow || Nat.ble (i.low * den) (d * unit)) && (strictHigh || Nat.ble (d * unit) (i.high * den)) &&
      (i.closed || (d * unit != i.low * den && d * unit != i.high * den))
  let r := 2 * (value % unit)
  match inside below false true, inside above true false with
  | true, true =>
      if Nat.blt r unit then some below
      else if Nat.blt unit r then some above
      else if tie == .even && below % 2 == 0 then some below
      else some above
  | true, false => some below
  | false, true => some above
  | false, false => none

/-- The first hit on ever finer decimal grids. -/
def Interval.search (i : Interval) (tie : Tie) : Nat → Int → Nat × Int
  | 0, k => (0, k)
  | fuel + 1, k =>
      match i.hit? tie k with
      | some (d + 1) => (d + 1, k)
      | _ => i.search tie fuel (k - 1)

/-- The fewest digits `d` and the exponent `k` such that `d * 10 ^ k` reads back as the finite value,
which is not zero. The search starts above the leading digit and ends with the seventeenth at the
latest. -/
def shortest (tie : Tie) (x : Binary64) : Nat × Int :=
  let i := interval x
  let (m, q) := x.parts
  let start := (Int.ofNat m.log2 + q + 1) * 30103 / 100000 + 1
  i.search tie 24 start

/-- Digits with a decimal point after the given number of them, filled up with zeros. -/
def positional (digits : List Char) (exponent : Int) : List Char :=
  match exponent with
  | .ofNat e => digits ++ List.replicate e '0'
  | .negSucc e =>
      let places := e + 1
      if Nat.blt places digits.length then
        digits.take (digits.length - places) ++ '.' :: digits.drop (digits.length - places)
      else '0' :: '.' :: (List.replicate (places - digits.length) '0' ++ digits)

/-- The plain text of a value: the fewest digits that read back, never with an exponent. -/
def plain (x : Binary64) : String :=
  if x.isNaN then "NaN"
  else
    let body : List Char :=
      if !x.isFinite then ['i', 'n', 'f']
      else if x.magnitude.val == 0 then ['0']
      else
        let (d, k) := shortest .up x
        positional (Nat.toDigits 10 d) k
    String.ofList (if x.negative then '-' :: body else body)

/-- The text of a finite value that always shows a point or an exponent: positional for values from
`1e-5` up to below `1e16`, with an exponent otherwise. -/
def marked (x : Binary64) : String :=
  let body : List Char :=
    if x.magnitude.val == 0 then ['0', '.', '0']
    else
      let (d, k) := shortest .even x
      let digits := Nat.toDigits 10 d
      let point : Int := digits.length + k
      if 0 ≤ k && point ≤ 16 then positional digits k ++ ['.', '0']
      else if -5 < point && point ≤ 16 then positional digits k
      else
        let lead := match digits with
          | [c] => [c]
          | c :: rest => c :: '.' :: rest
          | [] => []
        lead ++ 'e' :: (toString (point - 1)).toList
  String.ofList (if x.negative then '-' :: body else body)

end RecordGate.Decimal
