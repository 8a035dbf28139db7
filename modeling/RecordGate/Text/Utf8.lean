/-!
# Texts as bytes

The bytes of a text in UTF-8, and the text that bytes stand for. Bytes that are not well formed have
no text, or one in which a mark stands for them.
-/

namespace RecordGate.Text

def bytes (s : String) : List UInt8 := s.toUTF8.data.toList

def ofBytes? (b : List UInt8) : Option String := String.fromUTF8? ⟨b.toArray⟩

/-- The mark for bytes that are not well formed. -/
def replacement : Char := '\uFFFD'

/-- The number of bytes that follow a first byte above ASCII, the bounds of the first of them, and
the bits that the first byte gives. -/
def lead? (b : Nat) : Option (Nat × Nat × Nat × Nat) :=
  if Nat.ble 0xC2 b && Nat.ble b 0xDF then some (1, 0x80, 0xBF, b - 0xC0)
  else if b == 0xE0 then some (2, 0xA0, 0xBF, 0)
  else if b == 0xED then some (2, 0x80, 0x9F, 0xD)
  else if Nat.ble 0xE1 b && Nat.ble b 0xEF then some (2, 0x80, 0xBF, b - 0xE0)
  else if b == 0xF0 then some (3, 0x90, 0xBF, 0)
  else if Nat.ble 0xF1 b && Nat.ble b 0xF3 then some (3, 0x80, 0xBF, b - 0xF0)
  else if b == 0xF4 then some (3, 0x80, 0x8F, 4)
  else none

/-- Reads the bytes that are still wanted of a character, with the bounds of the next one. Gives the
character and the number of bytes read. -/
def follow (low high value used : Nat) : Nat → List UInt8 → Char × Nat
  | 0, _ => (Char.ofNat value, used)
  | _ + 1, [] => (replacement, used)
  | wanted + 1, b :: rest =>
      if Nat.ble low b.toNat && Nat.ble b.toNat high then
        follow 0x80 0xBF (value * 64 + b.toNat % 64) (used + 1) wanted rest
      else (replacement, used)

/-- The character that begins with a byte, and the number of bytes after it that belong to it. -/
def charAt (b : UInt8) (rest : List UInt8) : Char × Nat :=
  if Nat.blt b.toNat 0x80 then (Char.ofNat b.toNat, 0)
  else
    match lead? b.toNat with
    | some (wanted, low, high, value) => follow low high value 0 wanted rest
    | none => (replacement, 0)

/-- The characters of bytes after the first `skip`. -/
def charsAfter : Nat → List UInt8 → List Char
  | _, [] => []
  | skip + 1, _ :: rest => charsAfter skip rest
  | 0, b :: rest =>
      let (c, used) := charAt b rest
      c :: charsAfter used rest

/-- The text of bytes, with a mark for every run of bytes that is not well formed. -/
def ofBytesLossy (b : List UInt8) : String := String.ofList (charsAfter 0 b)

end RecordGate.Text
