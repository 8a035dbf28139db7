import RecordGate.Text.Blank
import RecordGate.Text.Search

/-!
# Who needs a credential

The paths that are open to everyone, and the token in the header of a request.
-/

namespace RecordGate.Bearer

/-- A pattern with a star at its end stands for the paths that begin with the text before the star,
any other pattern for one path. -/
def covers (path pattern : String) : Bool :=
  match pattern.toList.reverse with
  | '*' :: rest => Text.startsWith rest.reverse path.toList
  | _ => path == pattern

def isPublic (patterns : List String) (path : String) : Bool := patterns.any (covers path)

/-- A header is legible when all its characters are visible ASCII, blanks or tabs. -/
def legible (c : Char) : Bool :=
  let n := c.toNat
  (Nat.ble 0x20 n && Nat.blt n 0x7F) || n == 0x9

def token? (header : String) : Option String :=
  if header.toList.all legible then
    let rest :=
      match Text.dropStart? "Bearer ".toList header.toList with
      | some r => some r
      | none => Text.dropStart? "bearer ".toList header.toList
    match rest.map Text.trimmed with
    | none => none
    | some [] => none
    | some t => some (String.ofList t)
  else none

end RecordGate.Bearer
