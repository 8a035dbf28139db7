import RecordGate.Acl.Model
import RecordGate.Cli.Failure

/-!
# Grants

Entries of access control lists in short form: the name of an entity, an equals sign and actions.
-/

namespace RecordGate.Cli

/-- Reads an entry; the name ends at the first equals sign. -/
def readGrant (raw : String) : Except Failure AclEntry :=
  match Text.splitFirst '=' raw.toList with
  | none => .error (.malformedGrant raw)
  | some (name, actions) =>
      match EntitlementSet.parse (String.ofList actions) with
      | .ok bits => .ok ⟨String.ofList (Text.trimmed name), bits⟩
      | .error reason => .error (.unknownAction raw reason)

def readGrants : List String → Except Failure (List AclEntry)
  | [] => .ok []
  | raw :: rest => do
      let entry ← readGrant raw
      let entries ← readGrants rest
      return entry :: entries

/-- The access control list of entries; there is none without entries. -/
def grantedAcl (raw : List String) : Except Failure (Option Acl) :=
  if raw.isEmpty then .ok none else (readGrants raw).map fun entries => some ⟨entries⟩

end RecordGate.Cli
