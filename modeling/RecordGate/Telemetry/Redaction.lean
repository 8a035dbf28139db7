import RecordGate.Pattern.Reader
import RecordGate.Pattern.Replace
import RecordGate.Text.Lowercase
import RecordGate.Text.Search

/-!
# Redaction

Keeps credentials out of what is logged. A value is replaced as a whole when the name of its field
is sensitive; in any other value the matches of the patterns are replaced.
-/

namespace RecordGate

/-- A kind of sensitive data: parts of the names of its fields, and a pattern of its values. -/
structure RedactionRule where
  name : String
  fieldNames : List String := []
  valuePattern : Option String := none

namespace RedactionRule

/-- Three runs of letters, digits, underscores and dashes with points between them, the first of
which begins like the header of a token. -/
def tokenPattern : String := "eyJ[a-zA-Z0-9_-]+\\.[a-zA-Z0-9_-]+\\.[a-zA-Z0-9_-]+"

/-- The rules that hold where no others are given. -/
def standard : List RedactionRule :=
  [ ⟨"credentials", ["authorization", "token", "bearer", "jwt"], some tokenPattern⟩,
    ⟨"secrets", ["secret", "password", "api_key"], none⟩,
    ⟨"acl_claim", ["userinrole", "acl_payload"], none⟩ ]

end RedactionRule

structure RedactionSettings where
  enabled : Bool := true
  rules : List RedactionRule := RedactionRule.standard
  replacement : String := "[REDACTED]"

/-- The rules in the form in which they are applied. -/
structure Redactor where
  enabled : Bool
  fieldNames : List String
  patterns : List Pattern
  replacement : String

namespace Redactor

/-- Texts that are no patterns are left out. -/
def ofSettings (settings : RedactionSettings) : Redactor :=
  { enabled := settings.enabled,
    fieldNames := settings.rules.flatMap fun r => r.fieldNames.map Text.lowercase,
    patterns := settings.rules.filterMap fun r =>
      r.valuePattern.bind fun p => Pattern.read? p.toList,
    replacement := settings.replacement }

/-- The name of a field contains the name of sensitive data; letter case does not matter. -/
def isSensitive (r : Redactor) (field : String) : Bool :=
  r.enabled && r.fieldNames.any fun name => Text.contains (Text.lowercase field) name

def cleaned (r : Redactor) (value : String) : String :=
  if r.enabled then
    let template := Template.read r.replacement.toList
    String.ofList (r.patterns.foldl (fun s p => p.replaceAll template s) value.toList)
  else value

def redact (r : Redactor) (field value : String) : String :=
  if r.isSensitive field then r.replacement else r.cleaned value

end Redactor

end RecordGate
