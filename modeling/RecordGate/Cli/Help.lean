import RecordGate.Cli.Verb
import RecordGate.Text.Order
import RecordGate.Text.Width

/-!
# Help

What is said about a verb to those who ask: what it is for, how it is given, the verbs below it, its
arguments and its switches. Short help says it in one line for each, unless the column of names
leaves too little room; long help gives a paragraph to each argument and switch.
-/

namespace RecordGate.Cli

/-- Words on lines of a given width; a wider word has a line of its own. -/
def fill (room : Nat) (line : List Char) : List (List Char) :=
  let put (lines : List (List Char)) (word : List Char) : List (List Char) :=
    match lines with
    | [] => [word]
    | last :: before =>
        if Nat.ble (Text.width last + 1 + Text.width word) room then (last ++ ' ' :: word) :: before
        else word :: last :: before
  ((Text.pieces ' ' line).foldl put []).reverse

def pageWidth : Nat := 100

/-- Something that help explains: how it is written, behind the room for a letter, what it is about,
notes on its values, and the values to choose from. -/
structure HelpEntry where
  lead : String := ""
  word : String
  about : String
  notes : List String := []
  choices : List (String × String) := []

namespace HelpEntry

def blanks (n : Nat) : String := String.ofList (List.replicate n ' ')

def line (e : HelpEntry) : String := Text.join " " (e.about :: e.notes)

def block (indent : Nat) (lines : List String) : String :=
  let filled := lines.flatMap fun s => fill (pageWidth - indent) s.toList
  Text.join ("\n" ++ blanks indent) (filled.map String.ofList)

def choiceBlock (indent : Nat) (choices : List (String × String)) : String :=
  let widest := choices.foldl (fun n c => Nat.max n c.1.length) 0
  let item (c : String × String) : String :=
    "\n" ++ blanks indent ++ "- " ++ c.1 ++ ": " ++ blanks (widest - c.1.length) ++ c.2
  if choices.isEmpty then ""
  else "\n\n" ++ blanks indent ++ "Possible values:" ++ Text.join "" (choices.map item)

def paragraph (e : HelpEntry) : String :=
  let notes := if e.notes.isEmpty then [] else "" :: e.notes
  "  " ++ e.lead ++ e.word ++ "\n" ++ blanks 10 ++ block 10 (e.about :: notes) ++
    choiceBlock 10 e.choices

def longest (entries : List HelpEntry) : Nat :=
  entries.foldl (fun n e => Nat.max n e.word.length) 0

/-- The words take more than two fifths of the page and leave too little room for an entry. -/
def crowded (entries : List HelpEntry) : Bool :=
  let taken := longest entries + 12
  Nat.blt 40 taken && entries.any fun e => Nat.blt (pageWidth - taken) (Text.width e.line.toList)

def columns (entries : List HelpEntry) : String :=
  let widest := longest entries
  let row (e : HelpEntry) : String :=
    "  " ++ e.lead ++ e.word ++ blanks (widest + 2 - e.word.length) ++
      block (widest + 4 + e.lead.length) [e.line]
  Text.join "\n" (entries.map row)

/-- Entries with what is said about them below. -/
def stacked (entries : List HelpEntry) : String :=
  let item (e : HelpEntry) : String :=
    "  " ++ e.lead ++ e.word ++ "\n" ++ blanks 10 ++ block 10 [e.line]
  Text.join "\n" (entries.map item)

/-- Entries under a title. -/
def chapter (title : String) (long : Bool) (entries : List HelpEntry) : List String :=
  let body :=
    if long then Text.join "\n\n" (entries.map paragraph)
    else if crowded entries then stacked entries
    else columns entries
  if entries.isEmpty then [] else [title ++ ":\n" ++ body]

end HelpEntry

namespace Switch

/-- A switch as it is written with its name. -/
def word (s : Switch) : String :=
  "--" ++ s.name ++ (if s.arity == .flag then "" else " <" ++ s.holder ++ ">")

/-- What stands before the name of a switch. -/
def lead (letter : Option Char) : String :=
  letter.elim "    " fun c => String.ofList ['-', c, ',', ' ']

/-- The variable that stands for a switch, perhaps with its value. -/
def variableNote (env : List (String × String)) (s : Switch) (name : String) : String :=
  let value := if s.showsVariable then "=" ++ (env.lookup name).getD "" else ""
  "[env: " ++ name ++ value ++ "]"

/-- The notes on the values of a switch. Long help has the values to choose from in a list. -/
def notes (env : List (String × String)) (long : Bool) (s : Switch) : List String :=
  (s.variableName.map (s.variableNote env)).toList ++
    (s.standard.map fun v => "[default: " ++ v ++ "]").toList ++
    (if long || s.choices.isEmpty then []
      else ["[possible values: " ++ Text.join ", " (s.choices.map (·.1)) ++ "]"])

def helpEntry (env : List (String × String)) (long : Bool) (s : Switch) : HelpEntry :=
  { lead := lead s.letter, word := s.word, about := s.about, notes := s.notes env long
    choices := s.choices }

/-- Where a switch stands among those of its rank: by its letter, or else by its name. -/
def sortKey (s : Switch) : String := s.letter.elim s.name fun c => String.ofList [c, '0']

/-- Switches of two lists in turn; of each pair the one with the smaller key comes first. -/
def interleave : List Switch → List Switch → List Switch
  | s :: own, t :: others =>
      (if Text.order t.sortKey s.sortKey == .lt then [t, s] else [s, t]) ++ interleave own others
  | [], others => others
  | own, [] => own

end Switch

namespace Verb

def usage (v : Verb) : String :=
  let words := v.path ++ ["[OPTIONS]"] ++ v.required.map Switch.word ++
    v.places.map (fun p => "<" ++ p.1 ++ ">") ++ (if v.below.isEmpty then [] else ["<COMMAND>"])
  Text.join " " words

/-- The switches that ask about the program. -/
def questions (long : Bool) : List HelpEntry :=
  [ { lead := "-h, ", word := "--help"
      about := if long then "Print help (see a summary with '-h')"
        else "Print help (see more with '--help')" },
    { lead := "-V, ", word := "--version", about := "Print version" } ]

def belowEntries (v : Verb) : List HelpEntry :=
  let help := ("help", "Print this message or the help of the given subcommand(s)")
  let verbs := v.below.map fun (name, w) => (name, w.about)
  if verbs.isEmpty then [] else (verbs ++ [help]).map fun (word, about) => { word, about }

/-- The help on a verb. The values of variables are shown in it. -/
def help (env : List (String × String)) (long : Bool) (v : Verb) : String :=
  let places := v.places.map fun (name, about) =>
    ({ word := "<" ++ name ++ ">", about } : HelpEntry)
  let switches := (Switch.interleave v.own Switch.common).map (Switch.helpEntry env long)
  let chapters := HelpEntry.chapter "Commands" false v.belowEntries ++
    HelpEntry.chapter "Arguments" long places ++
    HelpEntry.chapter "Options" long (switches ++ questions long)
  Text.join "\n\n" ([if long then v.purpose else v.about, "Usage: " ++ v.usage] ++ chapters) ++ "\n"

end Verb

end RecordGate.Cli
