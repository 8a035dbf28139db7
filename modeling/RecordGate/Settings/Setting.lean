import RecordGate.Json.Value
import RecordGate.Number.Decimal
import RecordGate.Text.Lowercase
import RecordGate.Text.Search

/-!
# Values of settings

A setting has a value of some kind, and converts into the kind that is wanted where that makes sense.
Tables are written by paths of names: what stands in the way of a path gives way to a table, and a
table that is written is merged into the one that is there.
-/

namespace RecordGate

inductive Setting
  | nothing
  | bool (b : Bool)
  | integer (n : Integer64)
  | float (x : Binary64)
  | text (s : String)
  | list (items : List Setting)
  | table (members : List (String × Setting))

/-- What is wrong with a setting: its value does not convert, or it is not of the form wanted. -/
inductive SettingFault
  | unconvertible
  | unfit
deriving DecidableEq

namespace Setting

/-- A number of JSON; whole numbers beyond 64 bits with a sign are rounded. -/
def ofNumber : Json.Number → Setting
  | .int n =>
      match Ranged.ofInt? n with
      | some r => .integer r
      | none => .float (Binary64.ofInt n)
  | .float x => .float x

def insert (name : String) (value : Setting) :
    List (String × Setting) → List (String × Setting)
  | [] => [(name, value)]
  | (key, old) :: rest =>
      if key == name then (key, value) :: rest else (key, old) :: insert name value rest

mutual

def ofJson : Json → Setting
  | .null => .nothing
  | .bool b => .bool b
  | .number n => ofNumber n
  | .string s => .text s
  | .array items => .list (ofItems items)
  | .object members => .table (ofMembers [] members)

def ofItems : List Json → List Setting
  | [] => []
  | item :: rest => ofJson item :: ofItems rest

def ofMembers (done : List (String × Setting)) : List (String × Json) → List (String × Setting)
  | [] => done
  | (name, value) :: rest => ofMembers (insert name (ofJson value) done) rest

end

def members : Setting → List (String × Setting)
  | .table ms => ms
  | _ => []

def member? (name : String) (s : Setting) : Option Setting :=
  (s.members.find? fun m => m.1 == name).map (·.2)

mutual

/-- Writes a value over an older one that may be there. Only tables are merged. -/
def merge : Setting → Option Setting → Setting
  | .table incoming, old => mergeAll incoming (old.getD (.table []))
  | value, _ => value

def mergeAll : List (String × Setting) → Setting → Setting
  | [], old => old
  | (name, value) :: rest, old =>
      mergeAll rest (.table (insert name (merge value (old.member? name)) old.members))

end

/-- Writes a value at a path below an older value. -/
def put (value : Setting) : List String → Option Setting → Setting
  | [], old => merge value old
  | name :: path, old =>
      let table := old.getD (.table [])
      .table (insert name (put value path (table.member? name)) table.members)

/-- Says whether a character may stand in a name of a path. -/
def isPathChar (c : Char) : Bool := c.isAlphanum || c == '_' || c == '-' || c == ' '

/-- The path that a key writes: names with points between them. A key that is no path is one name. -/
def path (key : String) : List String :=
  let names := Text.split '.' key
  if names.all fun name => !name.isEmpty && name.toList.all isPathChar then names else [key]

def set (old : Setting) (key : String) (value : Setting) : Setting := put value (path key) (some old)

/-! ## Conversions -/

def truths : List String := ["true", "on", "yes"]

def falsehoods : List String := ["false", "off", "no"]

def toText : Setting → Except SettingFault String
  | .text s => .ok s
  | .bool b => .ok (if b then "true" else "false")
  | .integer n => .ok (toString n.val)
  | .float x => .ok (Decimal.plain x)
  | _ => .error .unconvertible

def toBool : Setting → Except SettingFault Bool
  | .bool b => .ok b
  | .integer n => .ok (n.val != 0)
  | .float x => .ok (x.magnitude.val != 0)
  | .text s =>
      let word := Text.lowercase s
      if word == "1" || truths.contains word then .ok true
      else if word == "0" || falsehoods.contains word then .ok false
      else .error .unconvertible
  | _ => .error .unconvertible

/-- The greatest number that a setting can count to. -/
def greatest : Nat := 18446744073709551615

/-- The number nearest to a double, a half going up; beyond the range it is the end of the range. -/
def rounded (x : Binary64) : Nat :=
  if x.isNaN || x.negative then 0
  else if !x.isFinite then greatest
  else
    let (n, d) := x.quotient
    let whole := (2 * n + d) / (2 * d)
    if Nat.ble whole greatest then whole else greatest

def toNatural : Setting → Except SettingFault Nat
  | .integer n => if n.val < 0 then .error .unconvertible else .ok n.val.toNat
  | .bool b => .ok (if b then 1 else 0)
  | .float x => .ok (rounded x)
  | .text s =>
      let word := Text.lowercase s
      let digits :=
        match word.toList with
        | '+' :: r => r
        | r => r
      if truths.contains word then .ok 1
      else if falsehoods.contains word then .ok 0
      else
        match natural? digits with
        | some n => if Nat.ble n greatest then .ok n else .error .unconvertible
        | none => .error .unconvertible
  | _ => .error .unconvertible

end Setting

end RecordGate
