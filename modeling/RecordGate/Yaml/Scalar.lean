import RecordGate.Json.Value
import RecordGate.Number.Decimal
import RecordGate.Text.Search

/-!
# Plain scalars

What a plain scalar stands for: nothing, a truth value, a number, or else a text.
-/

namespace RecordGate.Yaml.Scalar

def nothings : List String := ["", "null", "Null", "NULL", "~"]

def truths : List String := ["true", "True", "TRUE"]

def falsehoods : List String := ["false", "False", "FALSE"]

def inBase? (base : Nat) (s : List Char) : Option Nat :=
  let value? (c : Char) : Option Nat :=
    let n := c.toLower.toNat
    let d := if isDigit c then n - '0'.toNat else if c.isAlpha then n - 'a'.toNat + 10 else base
    if Nat.blt d base then some d else none
  if s.isEmpty then none
  else s.foldlM (fun n c => (value? c).map fun d => base * n + d) 0

/-- A zero followed by digits only is a text. -/
def isZeroLed (s : List Char) : Bool :=
  let digits :=
    match s with
    | '+' :: r => r
    | '-' :: r => r
    | r => r
  Nat.blt 1 digits.length && digits.head? == some '0' && digits.all isDigit

/-- The absolute value of a whole number in one of four bases. -/
def magnitude? (s : List Char) : Option Nat :=
  match s with
  | '0' :: 'x' :: r => inBase? 16 r
  | '0' :: 'o' :: r => inBase? 8 r
  | '0' :: 'b' :: r => inBase? 2 r
  | r => natural? r

/-- A whole number below two to the power of 128. -/
def integer? (s : List Char) : Option Int :=
  let bounded (n : Nat) : Option Nat :=
    if Nat.blt n 340282366920938463463374607431768211456 then some n else none
  if isZeroLed s then none
  else
    match s with
    | '-' :: r => ((magnitude? r).bind bounded).map fun n => -Int.ofNat n
    | '+' :: r => ((magnitude? r).bind bounded).map Int.ofNat
    | r => ((magnitude? r).bind bounded).map Int.ofNat

def infinities : List String := [".inf", ".Inf", ".INF", "+.inf", "+.Inf", "+.INF"]

def negativeInfinities : List String := ["-.inf", "-.Inf", "-.INF"]

def undefineds : List String := [".nan", ".NaN", ".NAN"]

def float? (s : String) : Option Binary64 :=
  if infinities.contains s then some (.ofMagnitude false Binary64.infinite)
  else if negativeInfinities.contains s then some (.ofMagnitude true Binary64.infinite)
  else if undefineds.contains s then some (.ofMagnitude false 0x7FF8000000000000)
  else if isZeroLed s.toList then none
  else
    match s.toList with
    | '+' :: '+' :: _ => none
    | '+' :: '-' :: _ => none
    | cs => (Decimal.read? cs).filter Binary64.isFinite

def value (s : String) : Json :=
  if nothings.contains s then .null
  else if truths.contains s then .bool true
  else if falsehoods.contains s then .bool false
  else
    match integer? s.toList, float? s with
    | some n, _ => .int n
    | none, some x => .number (.float x)
    | none, none => .string s

/-- Says whether a plain scalar is a text that nobody could take for a number. -/
def isText (s : String) : Bool :=
  match value s with
  | .string _ => !isZeroLed s.toList
  | _ => false

end RecordGate.Yaml.Scalar
