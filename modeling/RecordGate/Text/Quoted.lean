import RecordGate.Text.Lowercase
import RecordGate.Uuid

/-!
# Quoted texts in diagnostics

A text between double quotes in which quotes, backslashes and characters that do not show are
escaped.
-/

namespace RecordGate.Text

/-- Characters that leave no mark of their own, by first and last code point. -/
def unseenRuns : List (Nat × Nat) :=
  [(0x0, 0x1F), (0x7F, 0xA0), (0xAD, 0xAD), (0x300, 0x36F), (0x378, 0x379), (0x483, 0x489),
    (0x591, 0x5BD), (0x600, 0x605), (0x610, 0x61A), (0x61C, 0x61C), (0x64B, 0x65F),
    (0x6DD, 0x6DD), (0x70F, 0x70F), (0x1680, 0x1680), (0x180B, 0x180F), (0x1AB0, 0x1ACE),
    (0x1DC0, 0x1DFF), (0x2000, 0x200F), (0x2028, 0x202F), (0x205F, 0x206F), (0x20D0, 0x20F0),
    (0x302A, 0x302F), (0x3000, 0x3000), (0x3099, 0x309A), (0xD800, 0xF8FF), (0xFE00, 0xFE0F),
    (0xFE20, 0xFE2F), (0xFEFF, 0xFEFF), (0xFFF0, 0xFFFB), (0xFFFE, 0xFFFF), (0xE0000, 0x10FFFF)]

def hexText (n : Nat) : List Char := Nat.toDigits 16 n

def escapeShown (c : Char) : List Char :=
  if c == '"' || c == '\\' then ['\\', c]
  else if c == '\n' then ['\\', 'n']
  else if c == '\r' then ['\\', 'r']
  else if c == '\t' then ['\\', 't']
  else if c.toNat == 0 then ['\\', '0']
  else if inRuns unseenRuns c.toNat then '\\' :: 'u' :: '\x7b' :: (hexText c.toNat ++ ['\x7d'])
  else [c]

/-- A text between double quotes, with the escapes of diagnostics. -/
def shown (s : String) : String := "\"" ++ String.ofList (s.toList.flatMap escapeShown) ++ "\""

end RecordGate.Text
