/-!
# Double-precision numbers

The IEEE-754 binary64 format by its bit pattern: a sign and a magnitude of 63 bits, in which a
larger magnitude stands for a larger absolute value. Rounding of exact quotients goes to the nearest
value, and of two equally near ones to that with the even last bit.
-/

namespace RecordGate

/-- A double-precision number: its sign bit and the other 63 bits. -/
structure Binary64 where
  negative : Bool
  magnitude : Fin 9223372036854775808
deriving DecidableEq

namespace Binary64

/-- The weight of the sign bit. -/
def signBit : Nat := 9223372036854775808

/-- The weight of the bit in front of the 52 bits of a fraction, which is not written. -/
def leadingBit : Nat := 4503599627370496

def infinite : Nat := 0x7FF0000000000000

def isNaN (x : Binary64) : Bool := Nat.blt infinite x.magnitude.val

def isFinite (x : Binary64) : Bool := Nat.blt x.magnitude.val infinite

theorem isNaN_of_isFinite {x : Binary64} (h : x.isFinite = true) : x.isNaN = false := by
  have hlt : x.magnitude.val < infinite := Nat.blt_eq.mp h
  rw [isNaN, Bool.eq_false_iff, ne_eq, Nat.blt_eq]
  omega

def bits (x : Binary64) : Nat := x.magnitude.val + if x.negative then signBit else 0

/-- The magnitude `m` with a sign; a magnitude that is too large becomes infinite. -/
def ofMagnitude (negative : Bool) (m : Nat) : Binary64 :=
  ⟨negative, ⟨m % signBit, Nat.mod_lt _ (by decide)⟩⟩

def zero : Binary64 := ofMagnitude false 0

def negate (x : Binary64) : Binary64 := ⟨!x.negative, x.magnitude⟩

/-- The significand `m` and the exponent `q` of a finite value `m * 2 ^ q`. -/
def parts (x : Binary64) : Nat × Int :=
  let e := x.magnitude.val / leadingBit
  let f := x.magnitude.val % leadingBit
  if e == 0 then (f, -1074) else (f + leadingBit, Int.ofNat e - 1075)

/-- The absolute value of a finite number as a quotient of whole numbers. -/
def quotient (x : Binary64) : Nat × Nat :=
  match x.parts with
  | (m, .ofNat q) => (m * Nat.pow 2 q, 1)
  | (m, .negSucc q) => (m, Nat.pow 2 (q + 1))

/-- Position of a number on the scale of values, on which both zeros have one place. -/
def key (x : Binary64) : Int :=
  if x.negative then -Int.ofNat x.magnitude.val else Int.ofNat x.magnitude.val

/-- The order of two values; what is not a number has no place in it. -/
def compare (x y : Binary64) : Option Ordering :=
  if x.isNaN || y.isNaN then none
  else if x.key < y.key then some .lt
  else if y.key < x.key then some .gt
  else some .eq

/-- The quotient `a / b` rounded to a whole number, a half to the even neighbour. -/
def divideToEven (a b : Nat) : Nat :=
  let m := a / b
  let r := 2 * (a % b)
  if Nat.blt b r || (r == b && m % 2 == 1) then m + 1 else m

/-- The exponent at which `n / d` has a significand of 53 bits, but never below that of the least value. -/
def exponentFor (n d : Nat) : Int :=
  let k : Int := Int.ofNat n.log2 - Int.ofNat d.log2 - 52
  let small : Bool :=
    match k with
    | .ofNat q => Nat.blt n (leadingBit * (d * Nat.pow 2 q))
    | .negSucc q => Nat.blt (n * Nat.pow 2 (q + 1)) (leadingBit * d)
  let q := if small then k - 1 else k
  if q < -1074 then -1074 else q

/-- The magnitude nearest to `n / d`. -/
def roundedMagnitude (n d : Nat) : Nat :=
  if n == 0 then 0
  else
    let q := exponentFor n d
    let m :=
      match q with
      | .ofNat e => divideToEven n (d * Nat.pow 2 e)
      | .negSucc e => divideToEven (n * Nat.pow 2 (e + 1)) d
    let magnitude := (q + 1074).toNat * leadingBit + m
    if Nat.blt infinite magnitude then infinite else magnitude

/-- The value nearest to `n / d`, with a sign. -/
def ofQuotient (negative : Bool) (n d : Nat) : Binary64 := ofMagnitude negative (roundedMagnitude n d)

def ofInt (n : Int) : Binary64 := ofQuotient (decide (n < 0)) n.natAbs 1

def mul (x y : Binary64) : Binary64 :=
  let (a, b) := x.quotient
  let (c, d) := y.quotient
  ofQuotient (x.negative != y.negative) (a * c) (b * d)

/-- The quotient of two finite values, rounded; the second one is not zero. -/
def div (x y : Binary64) : Binary64 :=
  let (a, b) := x.quotient
  let (c, d) := y.quotient
  ofQuotient (x.negative != y.negative) (a * d) (b * c)

end Binary64

end RecordGate
