import RecordGate.Json.Value
import RecordGate.Yaml.Scalar

/-!
# Writing YAML

Writes a value in block style. The members of a table go below each other; the items of a list
stand behind dashes, at the indentation of the table that holds the list. A text is plain where it
reads back as that text, and between quotes or in a literal block otherwise.
-/

namespace RecordGate.Yaml

inductive Style
  | plain
  | single
  | double
  | literal
deriving DecidableEq

/-- What matters for the style of a text. -/
structure Traits where
  indicator : Bool := false
  broken : Bool := false
  special : Bool := false
  edgeBlank : Bool := false
  endBlank : Bool := false
  breakBlank : Bool := false
  blankBreak : Bool := false

namespace Traits

def isBreak (c : Char) : Bool :=
  c == '\n' || c == '\r' || c == '\u0085' || c == '\u2028' || c == '\u2029'

/-- A character is written as it is: no control character, no mark of byte order, and none beyond
the first plane. -/
def isPrintable (c : Char) : Bool :=
  let n := c.toNat
  n == 0x0A || (Nat.ble 0x20 n && Nat.ble n 0x7E) || (Nat.ble 0xA0 n && Nat.ble n 0xD7FF) ||
    (Nat.ble 0xE000 n && Nat.ble n 0xFFFD && n != 0xFEFF)

/-- The end of the text, a blank or a break. -/
def isGap : Option Char → Bool
  | none => true
  | some c => c == ' ' || c == '\t' || isBreak c

/-- The characters that have a meaning at the start of a text. -/
def leadIndicators : List Char :=
  ['#', ',', '[', ']', '\x7b', '\x7d', '&', '*', '!', '|', '>', '\'', '"', '%', '@', '\x60']

/-- A character has a meaning where it stands. -/
def indicates (before : Option Char) (c : Char) (after : Option Char) : Bool :=
  match before with
  | none => leadIndicators.contains c || ((c == '?' || c == ':' || c == '-') && isGap after)
  | some b => (c == ':' && isGap after) || (c == '#' && isGap (some b))

/-- Adds up the traits of the characters; the character before the rest of the text is given. -/
def scan (t : Traits) (before : Option Char) : List Char → Traits
  | [] => t
  | c :: rest =>
      let after := rest.head?
      let edge := before.isNone || after.isNone
      let blank := c == ' '
      scan
        { indicator := t.indicator || indicates before c after,
          broken := t.broken || isBreak c,
          special := t.special || !isPrintable c,
          edgeBlank := t.edgeBlank || (edge && (blank || isBreak c)),
          endBlank := t.endBlank || (after.isNone && blank),
          breakBlank := t.breakBlank || (blank && before.any isBreak),
          blankBreak := t.blankBreak || (isBreak c && before == some ' ') }
        (some c) rest

def of (s : List Char) : Traits :=
  let ruled := Text.startsWith ['-', '-', '-'] s || Text.startsWith ['.', '.', '.'] s
  scan { indicator := ruled } none s

/-- The style for a text with the traits, when another one would be liked. -/
def style (t : Traits) (liked : Style) : Style :=
  let plain := !(t.indicator || t.broken || t.special || t.edgeBlank || t.breakBlank || t.blankBreak)
  let single := !(t.special || t.breakBlank || t.blankBreak)
  let literal := !(t.special || t.endBlank || t.blankBreak)
  match liked with
  | .plain => if plain then .plain else if single then .single else .double
  | .single => if single then .single else .double
  | .literal => if literal then .literal else .double
  | .double => .double

end Traits

/-- A text that reads as something else wants quotes; one of several lines wants a block. -/
def likedStyle (s : String) : Style :=
  if s.toList.contains '\n' then .literal
  else if Scalar.isText s then .plain
  else .single

def shortEscape? (c : Char) : Option Char :=
  [('\x00', '0'), ('\x07', 'a'), ('\x08', 'b'), ('\t', 't'), ('\n', 'n'), ('\x0b', 'v'),
    ('\x0c', 'f'), ('\r', 'r'), ('\x1b', 'e'), ('"', '"'), ('\\', '\\'), ('\u0085', 'N'),
    ('\u00a0', '_'), ('\u2028', 'L'), ('\u2029', 'P')].lookup c

/-- A number in capital hexadecimal digits, a fixed number of them. -/
def capitalHex (places n : Nat) : List Char :=
  let digits := (Nat.toDigits 16 n).map Char.toUpper
  List.replicate (places - digits.length) '0' ++ digits

def doubleQuoted (c : Char) : List Char :=
  if Traits.isPrintable c && !Traits.isBreak c && c != '"' && c != '\\' then [c]
  else
    match shortEscape? c with
    | some e => ['\\', e]
    | none =>
        let n := c.toNat
        if Nat.ble n 0xFF then '\\' :: 'x' :: capitalHex 2 n
        else if Nat.ble n 0xFFFF then '\\' :: 'u' :: capitalHex 4 n
        else '\\' :: 'U' :: capitalHex 8 n

def singleQuoted (c : Char) : List Char := if c == '\'' then ['\'', '\''] else [c]

/-- What is noted behind the sign of a literal block: the indentation when the block begins with a
blank, and whether the breaks at its end are none or all of them. -/
def blockHints (s : List Char) : String :=
  let indent := if s.head?.any (fun c => c == ' ' || Traits.isBreak c) then "2" else ""
  let chomp :=
    match s.reverse with
    | [] => "-"
    | [c] => if Traits.isBreak c then "+" else "-"
    | c :: d :: _ => if !Traits.isBreak c then "-" else if Traits.isBreak d then "+" else ""
  indent ++ chomp

/-- The lines of a literal block, indented where they are not empty. -/
def blockLines (indent : String) (s : List Char) : String :=
  let pieces := Text.pieces '\n' s
  let lines := if s.getLast? == some '\n' then pieces.dropLast else pieces
  String.join (lines.map fun l => "\n" ++ if l.isEmpty then "" else indent ++ String.ofList l)

/-- A text as a scalar; the lines of a block stand at the given indentation. -/
def scalar (indent : String) (s : String) : String :=
  let cs := s.toList
  match (Traits.of cs).style (likedStyle s) with
  | .plain => s
  | .single => "'" ++ String.ofList (cs.flatMap singleQuoted) ++ "'"
  | .double => "\"" ++ String.ofList (cs.flatMap doubleQuoted) ++ "\""
  | .literal => "|" ++ blockHints cs ++ blockLines indent cs

mutual

/-- A value behind a name or a dash. What goes on further lines is at the given indentation, and a
list at that of its table. -/
def behind (indent list : String) : Json → String
  | .null => " null"
  | .bool b => if b then " true" else " false"
  | .number n => " " ++ n.text
  | .string s => " " ++ scalar indent s
  | .array [] => " []"
  | .array (item :: items) => "\n" ++ list ++ "-" ++ after (list ++ "  ") item ++ itemsAt list items
  | .object [] => " \x7b\x7d"
  | .object ((name, value) :: members) =>
      "\n" ++ indent ++ scalar indent name ++ ":" ++ behind (indent ++ "  ") indent value ++
        membersAt indent members

/-- A value behind a dash: a list or a table begins on the line of the dash. -/
def after (indent : String) : Json → String
  | .array (item :: items) => " -" ++ after (indent ++ "  ") item ++ itemsAt indent items
  | .object ((name, value) :: members) =>
      " " ++ scalar indent name ++ ":" ++ behind (indent ++ "  ") indent value ++
        membersAt indent members
  | .null => " null"
  | .bool b => if b then " true" else " false"
  | .number n => " " ++ n.text
  | .string s => " " ++ scalar indent s
  | .array [] => " []"
  | .object [] => " \x7b\x7d"

def itemsAt (indent : String) : List Json → String
  | [] => ""
  | item :: items => "\n" ++ indent ++ "-" ++ after (indent ++ "  ") item ++ itemsAt indent items

def membersAt (indent : String) : List (String × Json) → String
  | [] => ""
  | (name, value) :: members =>
      "\n" ++ indent ++ scalar indent name ++ ":" ++ behind (indent ++ "  ") indent value ++
        membersAt indent members

end

def text (value : Json) : String :=
  String.ofList ((behind "" "" value).toList.drop 1) ++ "\n"

end RecordGate.Yaml
