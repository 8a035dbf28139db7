import RecordGate.Number.Ranged
import RecordGate.Text.Blank
import RecordGate.Text.Search

/-!
# Filter directives

Directives choose what is logged: a level alone, or a target with an optional span and fields in
brackets and an optional level, as in `gate[request{id=1}]=debug`. Only whether a text is a
directive matters here. Blanks around a directive are passed over while its parts are found, but the
parts are cut out of the text with them.
-/

namespace RecordGate

/-- What is wrong with a directive. -/
inductive DirectiveFault
  | malformed
  | level
deriving DecidableEq

def DirectiveFault.message : DirectiveFault → String
  | .malformed => "invalid filter directive"
  | .level => "error parsing level filter: expected one of \"off\", \"error\", \"warn\", \"info\", " ++
      "\"debug\", \"trace\", or a number 0-5"

namespace Directive

/-- The part of a directive that is being read, and where it begins. -/
inductive Reading
  | nothing
  | target
  | span (low : Nat)
  | field (low : Nat)
  | fields
  | spanned
  | level (low : Nat)
  | done
deriving DecidableEq

/-- Says whether a text is a level: a name, whatever its case, a number up to five, or nothing. -/
def isLevel (s : List Char) : Bool :=
  let digits :=
    match s with
    | '+' :: r => r
    | r => r
  match natural? digits with
  | some n => Nat.ble n 5
  | none => ["", "off", "error", "warn", "info", "debug", "trace"].contains
      (String.ofList (s.map Char.toLower))

/-- Says whether a directive can begin with a character. -/
def canBegin (c : Char) : Bool :=
  c == '-' || c == ':' || c == '_' || c.isAlphanum || (Nat.ble 128 c.toNat && !Text.isBlank c)

/-- The part of a text between two positions. -/
def slice (s : List Char) (low high : Nat) : List Char := (s.take high).drop low

def step (text : List Char) (i : Nat) (c : Char) : Reading → Except DirectiveFault Reading
  | .nothing =>
      if c == '[' then .ok (.span (i + 1)) else if canBegin c then .ok .target else .error .malformed
  | .target =>
      if c == '=' then .ok (.level (i + 1))
      else if c == '[' then .ok (.span (i + 1))
      else if c == ',' then .ok .done
      else .ok .target
  | .span low =>
      if c == ']' then .ok .spanned else if c == '\x7b' then .ok (.field (i + 1)) else .ok (.span low)
  | .field low =>
      if c == '\x7d' || c == ',' then
        if (slice text low i).isEmpty then .error .malformed
        else if c == ',' then .ok (.field (i + 1))
        else .ok .fields
      else .ok (.field low)
  | .fields => if c == ']' then .ok .spanned else .error .malformed
  | .spanned => if c == '=' then .ok (.level (i + 1)) else .error .malformed
  | .level low =>
      if c == ',' then if isLevel (slice text low i) then .ok .done else .error .level
      else .ok (.level low)
  | .done => .error .malformed

def finish (text : List Char) : Reading → Except DirectiveFault Unit
  | .target => .ok ()
  | .spanned => .ok ()
  | .done => .ok ()
  | .level low => if isLevel (text.drop low) then .ok () else .error .level
  | _ => .error .malformed

def run (text : List Char) : Nat → List Char → Reading → Except DirectiveFault Unit
  | _, [], reading => finish text reading
  | i, c :: rest, reading => do
      let next ← step text i c reading
      run text (i + 1) rest next

def check (text : List Char) : Except DirectiveFault Unit :=
  run text 0 (Text.trimmed text) .nothing

/-- Checks the directives between commas; empty ones are passed over. -/
def checkAll (text : List Char) : Except DirectiveFault Unit :=
  ((Text.pieces ',' text).filter fun d => !d.isEmpty).forM check

end Directive

end RecordGate
