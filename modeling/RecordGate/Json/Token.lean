import RecordGate.Number.Decimal
import RecordGate.Uuid

/-!
# JSON tokens

A text is cut into the tokens of JSON. The first piece that is no token ends the list. A string that
holds half of a surrogate pair, and a number beyond the range of a double, are tokens without a
value: they may be passed over but not read.
-/

namespace RecordGate.Json

/-- What is wrong with a JSON text: it breaks the grammar, it ends too early, or a value is not of
the kind wanted at its place. -/
inductive Fault
  | malformed
  | truncated
  | mismatch
deriving DecidableEq, Repr

/-- A piece that is no token, as it looks to one who reads it and to one who passes over it. -/
structure Break where
  read : Fault
  skipped : Fault
deriving DecidableEq

/-- A number: whole numbers of 64 bits, signed or not, are kept exactly. -/
inductive Number
  | int (n : Int)
  | float (x : Binary64)
deriving DecidableEq

inductive Token
  | openArray
  | closeArray
  | openObject
  | closeObject
  | comma
  | colon
  | null
  | bool (b : Bool)
  | number (value : Option Number)
  | string (content : Option String)
  | badString (broken : Break)
  | bad (fault : Fault)
deriving DecidableEq

def isSpace (c : Char) : Bool := c == ' ' || c == '\n' || c == '\t' || c == '\r'

/-- Powers of ten as doubles. -/
def powerOfTen (e : Nat) : Binary64 := Decimal.nearest false 1 e

/-- A significand times a power of ten, computed in doubles: one product or quotient, after
quotients by `1e308` while the exponent is below the range. There is no value when a product
overflows. -/
def scaled : Nat → Binary64 → Int → Option Binary64
  | 0, f, _ => some f
  | fuel + 1, f, exponent =>
      if exponent.natAbs ≤ 308 then
        if 0 ≤ exponent then
          let product := f.mul (powerOfTen exponent.natAbs)
          if product.isFinite then some product else none
        else some (f.div (powerOfTen exponent.natAbs))
      else if f == Binary64.zero then some f
      else if 0 ≤ exponent then none
      else scaled fuel (f.div (powerOfTen 308)) (exponent + 308)

/-- Appends digits to a significand as long as it fits into 64 bits, and counts those appended. -/
def significand : Nat → List Char → Nat × Nat
  | start, [] => (start, 0)
  | start, c :: s =>
      let next := 10 * start + (digit? c).getD 0
      if Nat.blt next 18446744073709551616 then
        let (value, count) := significand next s
        (value, count + 1)
      else (start, 0)

/-- The exponent part of a number: its sign and digits. -/
structure ExponentPart where
  negative : Bool
  digits : List Char

/-- The value of a number with these digits before the point, after it and in the exponent. -/
def numberValue (negative : Bool) (whole fraction : List Char) (exponent : Option ExponentPart) :
    Option Number :=
  let n := digitsFrom 0 whole
  if fraction.isEmpty && exponent.isNone && (!negative && Nat.blt n 18446744073709551616) then some (.int n)
  else if fraction.isEmpty && exponent.isNone && (negative && n != 0 && Nat.ble n 9223372036854775808) then
    some (.int (-Int.ofNat n))
  else
    let (head, kept) := significand 0 whole
    let (value, places) := if kept == whole.length then significand head fraction else (head, 0)
    let start : Int := Int.ofNat (whole.length - kept) - places
    let signedZero := Binary64.ofMagnitude negative 0
    let result : Option Binary64 :=
      match exponent with
      | none => scaled 8 (Binary64.ofInt value) start
      | some part =>
          let e := digitsFrom 0 part.digits
          if Nat.ble 2147483648 e then if value != 0 && !part.negative then none else some signedZero
          else scaled 8 (Binary64.ofInt value) (if part.negative then start - e else start + e)
    result.map fun f => .float (if negative then f.negate else f)

/-- The fault of a number that goes on with a given rest where a digit must stand. -/
def wantsDigit (rest : List Char) : Fault := if rest.isEmpty then .truncated else .malformed

/-- The digits of a fraction, when the text goes on with a point, and what follows them. -/
def fractionPart : List Char → Except Fault (List Char × List Char)
  | '.' :: s =>
      let digits := s.takeWhile isDigit
      let rest := s.dropWhile isDigit
      if digits.isEmpty then .error (wantsDigit rest) else .ok (digits, rest)
  | s => .ok ([], s)

/-- The exponent, when the text goes on with one, and the number of its characters. -/
def exponentPart : List Char → Except Fault (Option ExponentPart × Nat)
  | [] => .ok (none, 0)
  | c :: s =>
      if c == 'e' || c == 'E' then
        let (negative, used, s) :=
          match s with
          | '-' :: r => (true, 2, r)
          | '+' :: r => (false, 2, r)
          | r => (false, 1, r)
        let digits := s.takeWhile isDigit
        if digits.isEmpty then .error (wantsDigit (s.dropWhile isDigit))
        else .ok (some ⟨negative, digits⟩, used + digits.length)
      else .ok (none, 0)

/-- The number that a text begins with after its sign, and the number of its characters. -/
def numberPart (negative : Bool) (s : List Char) : Except Fault (Option Number × Nat) := do
  let whole := s.takeWhile isDigit
  let rest := s.dropWhile isDigit
  if whole.isEmpty then .error (wantsDigit rest)
  else if whole.head? == some '0' && whole.length != 1 then .error .malformed
  else
    let (fraction, rest) ← fractionPart rest
    let (exponent, used) ← exponentPart rest
    let point := if fraction.isEmpty then 0 else 1
    return (numberValue negative whole fraction exponent,
      whole.length + point + fraction.length + used)

/-- The character that a letter stands for after a backslash. -/
def escaped? (c : Char) : Option Char :=
  if c == '"' || c == '\\' || c == '/' then some c
  else if c == 'b' then some '\x08'
  else if c == 'f' then some '\x0c'
  else if c == 'n' then some '\n'
  else if c == 'r' then some '\r'
  else if c == 't' then some '\t'
  else none

/-- The content of a string so far, last character first; there is none after half a surrogate pair
that stands alone. A first half waits for the second. -/
structure Content where
  text : Option (List Char)
  half : Option Nat

def Content.push (content : Content) (c : Char) : Content :=
  match content.half with
  | some _ => ⟨none, none⟩
  | none => ⟨content.text.map (c :: ·), none⟩

/-- A code unit is added that an escape gives by its number. -/
def Content.unit (content : Content) (n : Nat) : Content :=
  let isHigh := Nat.ble 0xD800 n && Nat.ble n 0xDBFF
  let isLow := Nat.ble 0xDC00 n && Nat.ble n 0xDFFF
  match content.half with
  | some high =>
      if isLow then
        ⟨content.text.map (Char.ofNat (0x10000 + (high - 0xD800) * 0x400 + (n - 0xDC00)) :: ·), none⟩
      else ⟨none, none⟩
  | none =>
      if isHigh then ⟨content.text, some n⟩
      else if isLow then ⟨none, none⟩
      else content.push (Char.ofNat n)

def byteCount (s : List Char) : Nat := s.foldr (fun c n => c.utf8Size + n) 0

/-- The break of a string that the text ends in. -/
def Content.unfinished (content : Content) : Token :=
  .badString ⟨if content.text.isSome then .truncated else .malformed, .truncated⟩

def Content.close (content : Content) : Token :=
  match content.half with
  | some _ => .string none
  | none => .string (content.text.map fun t => String.ofList t.reverse)

/-- The break of a string at a character that cannot stand there. -/
def brokenString : Token := .badString ⟨.malformed, .malformed⟩

/-- The four digits of an escape are missing: the text may end, or have other characters instead. -/
def Content.shortEscape (content : Content) (rest : List Char) : Token :=
  if Nat.blt (byteCount (rest.take 4)) 4 then content.unfinished else brokenString

/-- Reads a string after its opening quote; the number is that of the characters read. -/
def stringFrom (content : Content) (used : Nat) : List Char → Token × Nat
  | [] => (content.unfinished, used)
  | '"' :: _ => (content.close, used + 1)
  | ['\\'] => (content.unfinished, used)
  | '\\' :: 'u' :: a :: b :: c :: d :: s =>
      if Nat.blt (byteCount [a, b, c, d]) 4 then (content.unfinished, used)
      else
        match hexFrom? 0 [a, b, c, d] with
        | some n => stringFrom (content.unit n) (used + 6) s
        | none => (brokenString, used)
  | '\\' :: 'u' :: s => (content.shortEscape s, used)
  | '\\' :: c :: s =>
      match escaped? c with
      | some d => stringFrom (content.push d) (used + 2) s
      | none => (brokenString, used)
  | c :: s =>
      if Nat.blt c.toNat 0x20 then (brokenString, used) else stringFrom (content.push c) (used + 1) s

/-- A word with a meaning of its own; the text may break off inside it. -/
def word (rest expected : List Char) (token : Token) : Token × Nat :=
  match expected, rest with
  | [], _ => (token, 0)
  | _ :: _, [] => (.bad .truncated, 0)
  | c :: e, d :: s =>
      if c == d then
        let (t, n) := word s e token
        (t, n + 1)
      else (.bad .malformed, 0)

def numberToken (negative : Bool) (s : List Char) : Token × Nat :=
  match numberPart negative s with
  | .ok (value, used) => (.number value, used)
  | .error fault => (.bad fault, 0)

/-- The token that begins with the first character, and how many characters after that belong to it. -/
def tokenAt (c : Char) (s : List Char) : Token × Nat :=
  if c == '[' then (.openArray, 0)
  else if c == ']' then (.closeArray, 0)
  else if c == '\x7b' then (.openObject, 0)
  else if c == '\x7d' then (.closeObject, 0)
  else if c == ',' then (.comma, 0)
  else if c == ':' then (.colon, 0)
  else if c == '"' then stringFrom ⟨some [], none⟩ 0 s
  else if c == 'n' then word s ['u', 'l', 'l'] .null
  else if c == 't' then word s ['r', 'u', 'e'] (.bool true)
  else if c == 'f' then word s ['a', 'l', 's', 'e'] (.bool false)
  else if c == '-' then numberToken true s
  else if isDigit c then
    let (t, n) := numberToken false (c :: s)
    (t, n - 1)
  else (.bad .malformed, 0)

/-- A piece after which no token is read. -/
def Token.isBad : Token → Bool
  | .badString _ => true
  | .bad _ => true
  | _ => false

/-- The tokens of a text after its first `skip` characters. -/
def tokensAfter : Nat → List Char → List Token
  | _, [] => []
  | skip + 1, _ :: s => tokensAfter skip s
  | 0, c :: s =>
      if isSpace c then tokensAfter 0 s
      else
        let (token, used) := tokenAt c s
        if token.isBad then [token] else token :: tokensAfter used s

def tokens (s : List Char) : List Token := tokensAfter 0 s

end RecordGate.Json
