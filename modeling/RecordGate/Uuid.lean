import RecordGate.Text.Caseless
import RecordGate.Text.Order
import RecordGate.Text.Search

/-!
# Universally unique identifiers

Identifiers of 128 bits with their written forms. One form is written: 32 small hexadecimal digits
in groups of 8, 4, 4, 4 and 12. Read are that form, the digits without hyphens, and the hyphenated
form in braces or after `urn:uuid:`; letters count in either case.
-/

namespace RecordGate

/-- An identifier of 128 bits. -/
structure Uuid where
  value : Fin 340282366920938463463374607431768211456
deriving DecidableEq

def hexDigit? (c : Char) : Option Nat :=
  let n := c.toNat
  if '0'.toNat ≤ n && n ≤ '9'.toNat then some (n - '0'.toNat)
  else if 'a'.toNat ≤ n && n ≤ 'f'.toNat then some (n - 'a'.toNat + 10)
  else if 'A'.toNat ≤ n && n ≤ 'F'.toNat then some (n - 'A'.toNat + 10)
  else none

/-- The number that hexadecimal digits write after a given number. -/
def hexFrom? (start : Nat) : List Char → Option Nat
  | [] => some start
  | c :: s => (hexDigit? c).bind fun d => hexFrom? (16 * start + d) s

/-- The last `width` hexadecimal digits of a number, in small letters. -/
def hexDigits : Nat → Nat → List Char
  | 0, _ => []
  | width + 1, n => hexDigits width (n / 16) ++ [Nat.digitChar (n % 16)]

namespace Uuid

/-- The number of identifiers. -/
def size : Nat := 340282366920938463463374607431768211456

/-- The identifier that stands for none. -/
def nil : Uuid := ⟨0⟩

def isNil (u : Uuid) : Bool := u == nil

def ofNat (n : Nat) : Uuid := ⟨⟨n % size, Nat.mod_lt _ (by decide)⟩⟩

/-- The order of the numbers, which is that of the written forms. -/
def order (a b : Uuid) : Ordering := Text.orderNat a.value.val b.value.val

def text (u : Uuid) : String :=
  let digits := hexDigits 32 u.value.val
  String.ofList (digits.take 8 ++ '-' :: ((digits.drop 8).take 4 ++ '-' :: ((digits.drop 12).take 4 ++
    '-' :: ((digits.drop 16).take 4 ++ '-' :: digits.drop 20))))

/-- The identifier written by 32 hexadecimal digits. -/
def ofDigits? (s : List Char) : Option Uuid :=
  if s.length == 32 then (hexFrom? 0 s).map ofNat else none

/-- The identifier written by digits in hyphenated groups. -/
def ofGroups? (s : List Char) : Option Uuid :=
  let groups := Text.pieces '-' s
  if groups.map List.length == [8, 4, 4, 4, 12] then ofDigits? groups.flatten else none

/-- The text behind the beginning `urn:uuid:`, which counts in either case. -/
def afterName? (s : List Char) : Option (List Char) :=
  if Text.startsWith "urn:uuid:".toList (s.map Text.foldChar) then some (s.drop 9) else none

/-- Reads one of the written forms, without blanks around it. -/
def read? (s : List Char) : Option Uuid :=
  if s.length == 32 then ofDigits? s
  else if s.length == 36 then ofGroups? s
  else if s.length == 38 then
    match s with
    | '{' :: rest => if rest.getLast? == some '}' then ofGroups? rest.dropLast else none
    | _ => none
  else if s.length == 45 then
    (afterName? s).bind ofGroups?
  else none

/-- Reads one of the written forms. -/
def parse? (s : String) : Option Uuid := read? s.toList

end Uuid

end RecordGate
