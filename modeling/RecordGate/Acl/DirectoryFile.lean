import RecordGate.Acl.Directory
import RecordGate.Yaml.Decode
import RecordGate.Yaml.Reader

/-!
# Directory files

A seed of a directory that is written in YAML, of which JSON is a part.
-/

namespace RecordGate

open Yaml (Decoder Slot)

/-- A set of actions, as a list of numbers or one number. -/
def EntitlementSet.ofYaml : Decoder EntitlementSet := fun _ node =>
  match EntitlementSet.ofJson? node.json with
  | some bits => .ok bits
  | none => .error (.bare "data did not match any variant of untagged enum WireEntitlements")

def AclEntry.ofYaml : Decoder AclEntry := Slot.record "struct AclEntry" ⟨"", .empty⟩
  [ .of ["entityName", "EntityName"] true Decoder.string fun s e => { e with entityName := s },
    .of ["entitlementBits", "Action"] false EntitlementSet.ofYaml fun b e => { e with bits := b } ]

def RoleSeed.ofYaml : Decoder RoleSeed := Slot.record "struct RoleSeed" ⟨none, none, [], []⟩
  [ .of ["id"] false Decoder.uuid fun u r => { r with id := some ⟨u⟩ },
    .of ["name"] false Decoder.optionalString fun s r => { r with name := s },
    .of ["grants"] false (Decoder.list AclEntry.ofYaml) fun gs r => { r with grants := gs },
    .of ["members"] false (Decoder.list Decoder.uuid)
      fun us r => { r with members := us.map UserId.mk } ]

def TenantSeed.ofYaml : Decoder TenantSeed := Slot.record "struct TenantSeed" ⟨⟨.nil⟩, [], []⟩
  [ .of ["id"] true Decoder.uuid fun u t => { t with id := ⟨u⟩ },
    .of ["entities"] false (Decoder.list Decoder.string) fun es t => { t with entities := es },
    .of ["roles"] false (Decoder.list RoleSeed.ofYaml) fun rs t => { t with roles := rs } ]

namespace DirectorySeed

def ofYaml : Decoder DirectorySeed := Slot.record "struct DirectorySeed" ⟨[]⟩
  [.of ["tenants"] false (Decoder.list TenantSeed.ofYaml) fun ts _ => ⟨ts⟩]

/-- Reads a seed in YAML, or says what is wrong. A text without a document is a seed of nothing. -/
def readYaml (text : String) : Except String DirectorySeed :=
  match Yaml.read text with
  | .error p => .error p.text
  | .ok none => .ok ⟨[]⟩
  | .ok (some node) =>
      match ofYaml "" node with
      | .ok seed => .ok seed
      | .error c => .error c.text

end DirectorySeed

end RecordGate
