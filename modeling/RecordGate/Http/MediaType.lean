import RecordGate.Text.Caseless
import RecordGate.Text.Search

/-!
# Media types

The header that says of what kind a content is: a type, a subtype that may end in a suffix, and
parameters. It is asked only whether the content is JSON.
-/

namespace RecordGate.MediaType

def isToken (c : Char) : Bool :=
  c.isAlphanum || "!#$%&'*+-.^_`|~".toList.contains c

/-- The subtype up to its last plus sign and the suffix after it. A plus sign at the start does not
count. -/
def suffixed (s : List Char) : List Char × Option (List Char) :=
  match Text.splitLast '+' s with
  | some (before, after) => if before.isEmpty then (s, none) else (before, some after)
  | none => (s, none)

/-- What follows a quoted value: blanks, and a semicolon before more parameters. -/
def afterQuoted : List Char → Option (List Char)
  | [] => some []
  | ' ' :: s => afterQuoted s
  | ';' :: s => some s
  | _ => none

def quotedValue : List Char → Bool → Option (List Char)
  | [], _ => none
  | '"' :: s, false => afterQuoted s
  | c :: s, _ => if Nat.blt 31 c.toNat && c.toNat != 127 then quotedValue s false else none

def value (s : List Char) : Option (List Char) :=
  match s with
  | '"' :: rest => quotedValue rest true
  | _ =>
      match s.dropWhile isToken with
      | [] => some []
      | ';' :: rest => if rest.length + 1 == s.length then none else some rest
      | _ => none

/-- Says whether the parameters are well formed; there are at most `fuel` of them. -/
def parameters : Nat → List Char → Bool
  | 0, _ => true
  | fuel + 1, s =>
      match s.dropWhile (· == ' ') with
      | [] => true
      | t =>
          match t.dropWhile isToken with
          | '=' :: rest =>
              if rest.length + 1 == t.length then false
              else
                match value rest with
                | some more => parameters fuel more
                | none => false
          | _ => false

/-- Says whether a header names JSON: `application/json`, or a subtype with the suffix `json`. -/
def isJson (header : String) : Bool :=
  let s := header.toList
  let kind := s.takeWhile isToken
  match s.dropWhile isToken with
  | '/' :: rest =>
      let subtype := rest.takeWhile isToken
      let (name, suffix) := suffixed subtype
      let wellFormed :=
        match rest.dropWhile isToken with
        | [] => true
        | ';' :: more => !subtype.isEmpty && parameters (more.length + 1) more
        | _ => false
      let same (t : List Char) (expected : String) : Bool :=
        Text.sameName (String.ofList t) expected
      wellFormed && same kind "application" &&
        (same name "json" || (suffix.map fun t => same t "json").getD false)
  | _ => false

end RecordGate.MediaType
