import RecordGate.Number.Ranged
import RecordGate.Text.Search
import RecordGate.Text.Utf8
import RecordGate.Uuid

/-!
# Addresses of resources

The address of a resource on a server: a scheme, a host with an optional port, a path and optionally
a query and a fragment. An address is brought into one form when it is read: the scheme and the host
are in small letters, the usual port is left out, the path has no dot segments, and characters that
cannot stand in an address are written as percent escapes of their bytes.
-/

namespace RecordGate

inductive UrlFault
  | relative
  | emptyHost
  | badHost
  | badPort
  | foreign (address : String)
deriving DecidableEq

structure Url where
  scheme : String
  host : List Char
  port : Option Nat
  path : List Char
  query : Option (List Char)
  fragment : Option (List Char)

namespace Url

def escapeByte (b : UInt8) : List Char := '%' :: (hexDigits 2 b.toNat).map Char.toUpper

/-- A text in which the characters of a set are escaped, and all beyond ASCII. -/
def escape (reserved : List Char) (s : List Char) : List Char :=
  s.flatMap fun c =>
    if Nat.blt c.toNat 0x20 || Nat.blt 0x7E c.toNat || reserved.contains c then
      (Text.bytes (String.ofList [c])).flatMap escapeByte
    else [c]

def pathReserved : List Char := [' ', '"', '#', '<', '>', '?', '\x60', '\x7b', '\x7d']

def queryReserved : List Char := [' ', '"', '#', '<', '>', '\'']

def fragmentReserved : List Char := [' ', '"', '<', '>', '\x60']

/-- A control character or a blank, which is dropped at both ends. -/
def isEdge (c : Char) : Bool := Nat.ble c.toNat 0x20

/-- The text without blanks at its ends, and without tabs and line breaks. -/
def cleaned (s : List Char) : List Char :=
  let ended := ((s.dropWhile isEdge).reverse.dropWhile isEdge).reverse
  ended.filter fun c => !(c == '\t' || c == '\n' || c == '\r')

def isSchemeChar (c : Char) : Bool := c.isAlphanum || c == '+' || c == '-' || c == '.'

/-- The scheme in small letters and what follows its colon. -/
def splitScheme? (s : List Char) : Option (String × List Char) := do
  let (scheme, rest) ← Text.splitFirst ':' s
  if scheme.head?.any Char.isAlpha && scheme.all isSchemeChar then
    return (String.ofList (scheme.map Char.toLower), rest)
  else none

def isSlash (c : Char) : Bool := c == '/' || c == '\\'

/-- What stands before the first mark of some, and the rest from the mark on. -/
def before (marks : List Char) (s : List Char) : List Char × List Char :=
  s.span fun c => !marks.contains c

def dots : List String := [".", "%2e"]

def doubleDots : List String := ["..", ".%2e", "%2e.", "%2e%2e"]

/-- Resolves the dot segments of a path; the segments so far are given, last one first. -/
def resolve (done : List (List Char)) : List (List Char) → List (List Char)
  | [] => done.reverse
  | segment :: rest =>
      let name := String.ofList (segment.map Char.toLower)
      let kept := if doubleDots.contains name then done.drop 1
        else if dots.contains name then done
        else escape pathReserved segment :: done
      let isDots := doubleDots.contains name || dots.contains name
      resolve (if isDots && rest.isEmpty then [] :: kept else kept) rest

/-- The path that begins with a slash. -/
def readPath (s : List Char) : List Char :=
  let segments := Text.pieces '/' ((s.drop 1).map fun c => if c == '\\' then '/' else c)
  (resolve [] segments).flatMap fun segment => '/' :: segment

def usualPort (scheme : String) : Nat := if scheme == "https" then 443 else 80

/-- The port, unless it is the usual one. -/
def readPort (scheme : String) (s : List Char) : Except UrlFault (Option Nat) :=
  if s.isEmpty then .ok none
  else
    match natural? s with
    | some n =>
        if Nat.blt 65535 n then .error .badPort
        else .ok (if n == usualPort scheme then none else some n)
    | none => .error .badPort

def isHostChar (c : Char) : Bool :=
  Nat.blt 0x20 c.toNat && c.toNat != 0x7F &&
    !(['#', '%', '/', ':', '<', '>', '?', '@', '[', '\\', ']', '^', '|'].contains c)

/-- The host and the port; a host in brackets may hold colons. -/
def splitPort (s : List Char) : List Char × List Char :=
  match s with
  | '[' :: _ =>
      let (host, rest) := before [']'] s
      (host ++ rest.take 1, rest.drop 2)
  | _ => (Text.splitFirst ':' s).getD (s, [])

def readHost (s : List Char) : Except UrlFault (List Char) :=
  let isLiteral := s.head? == some '[' && s.getLast? == some ']'
  let inner := if isLiteral then ((s.drop 1).dropLast).filter (· != ':') else s
  if s.isEmpty then .error .emptyHost
  else if inner.all isHostChar then .ok (s.map Char.toLower)
  else .error .badHost

/-- Reads the address of a server that is spoken to in clear or through encryption. A user name
before the host is left out. -/
def readServer (scheme : String) (s : List Char) : Except UrlFault Url := do
  let (authority, rest) := before ['/', '\\', '?', '#'] (s.dropWhile isSlash)
  let server := (Text.splitLast '@' authority).elim authority (·.2)
  let (host, port) := splitPort server
  let host ← readHost host
  let port ← readPort scheme port
  let (target, fragment) := before ['#'] rest
  let (path, query) := before ['?'] target
  return { scheme := scheme, host := host, port := port, path := readPath path
           query := if query.isEmpty then none else some (escape queryReserved (query.drop 1))
           fragment :=
             if fragment.isEmpty then none else some (escape fragmentReserved (fragment.drop 1)) }

/-- Reads an address; any scheme but two is foreign. -/
def read (s : String) : Except UrlFault Url :=
  match splitScheme? (cleaned s.toList) with
  | none => .error .relative
  | some (scheme, rest) =>
      if scheme == "http" || scheme == "https" then readServer scheme rest
      else .error (.foreign (scheme ++ ":" ++ String.ofList (escape [] rest)))

/-- An optional part behind a mark. -/
def part (mark : String) : Option (List Char) → String
  | none => ""
  | some s => mark ++ String.ofList s

def text (u : Url) : String :=
  let port := (u.port.map fun n => (toString n).toList)
  u.scheme ++ "://" ++ String.ofList u.host ++ part ":" port ++ String.ofList u.path ++
    part "?" u.query ++ part "#" u.fragment

end Url

end RecordGate
