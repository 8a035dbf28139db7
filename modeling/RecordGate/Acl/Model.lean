import RecordGate.Acl.Entitlement

/-!
# Access control lists

What a user may do in a tenant: a list of entity names with the actions granted on each. Names are
compared without regard to ASCII case; the entries of one name count together.
-/

namespace RecordGate

open Json (Decoder Fault Slot)

structure TenantId where
  uuid : Uuid
deriving DecidableEq

structure UserId where
  uuid : Uuid
deriving DecidableEq

structure RoleId where
  uuid : Uuid
deriving DecidableEq

structure EntityId where
  uuid : Uuid
deriving DecidableEq

/-- Reads an identifier with blanks around it. -/
def Uuid.parseTrimmed? (raw : String) : Option Uuid := Uuid.read? (Text.trimmed raw.toList)

def TenantId.parse? (raw : String) : Option TenantId := (Uuid.parseTrimmed? raw).map TenantId.mk

def UserId.parse? (raw : String) : Option UserId := (Uuid.parseTrimmed? raw).map UserId.mk

def UserId.isNil (u : UserId) : Bool := u.uuid.isNil

/-- An entity that a tenant has. -/
structure EntityDefinition where
  id : EntityId
  tenant : TenantId
  name : String
deriving DecidableEq

structure RoleMembership where
  tenant : TenantId
  user : UserId
  role : RoleId
deriving DecidableEq

structure RoleGrant where
  tenant : TenantId
  role : RoleId
  entity : EntityId
  bits : EntitlementSet
deriving DecidableEq

namespace EntityDefinition

def json (e : EntityDefinition) : Json :=
  .object [("id", .string e.id.uuid.text), ("tenantId", .string e.tenant.uuid.text),
    ("name", .string e.name)]

def slots : List (Slot EntityDefinition) :=
  [ .of "id" [] .required Decoder.uuid fun u e => { e with id := ⟨u⟩ },
    .of "tenantId" [] .required Decoder.uuid fun u e => { e with tenant := ⟨u⟩ },
    .of "name" [] .required Decoder.string fun s e => { e with name := s } ]

def decode : Decoder EntityDefinition := Slot.record ⟨⟨.nil⟩, ⟨.nil⟩, ""⟩ slots

end EntityDefinition

namespace RoleMembership

def json (m : RoleMembership) : Json :=
  .object [("tenantId", .string m.tenant.uuid.text), ("userId", .string m.user.uuid.text),
    ("roleId", .string m.role.uuid.text)]

def slots : List (Slot RoleMembership) :=
  [ .of "tenantId" [] .required Decoder.uuid fun u m => { m with tenant := ⟨u⟩ },
    .of "userId" [] .required Decoder.uuid fun u m => { m with user := ⟨u⟩ },
    .of "roleId" [] .required Decoder.uuid fun u m => { m with role := ⟨u⟩ } ]

def decode : Decoder RoleMembership := Slot.record ⟨⟨.nil⟩, ⟨.nil⟩, ⟨.nil⟩⟩ slots

end RoleMembership

namespace RoleGrant

def json (g : RoleGrant) : Json :=
  .object [("tenantId", .string g.tenant.uuid.text), ("roleId", .string g.role.uuid.text),
    ("entityId", .string g.entity.uuid.text), ("entitlementBits", g.bits.json)]

def slots : List (Slot RoleGrant) :=
  [ .of "tenantId" [] .required Decoder.uuid fun u g => { g with tenant := ⟨u⟩ },
    .of "roleId" [] .required Decoder.uuid fun u g => { g with role := ⟨u⟩ },
    .of "entityId" [] .required Decoder.uuid fun u g => { g with entity := ⟨u⟩ },
    .of "entitlementBits" [] .required EntitlementSet.decode fun b g => { g with bits := b } ]

def decode : Decoder RoleGrant := Slot.record ⟨⟨.nil⟩, ⟨.nil⟩, ⟨.nil⟩, .empty⟩ slots

end RoleGrant

structure AclEntry where
  entityName : String
  bits : EntitlementSet
deriving DecidableEq

namespace AclEntry

def json (e : AclEntry) : Json :=
  .object [("entityName", .string e.entityName), ("entitlementBits", e.bits.json)]

def slots : List (Slot AclEntry) :=
  [ .of "entityName" ["EntityName"] .required Decoder.string fun s e => { e with entityName := s },
    .of "entitlementBits" ["Action"] .defaulted EntitlementSet.decode
      fun b e => { e with bits := b } ]

def decode : Decoder AclEntry := Slot.record ⟨"", .empty⟩ slots

end AclEntry

structure Acl where
  entries : List AclEntry
deriving DecidableEq

namespace Acl

def empty : Acl := ⟨[]⟩

def matching (acl : Acl) (name : String) : List AclEntry :=
  acl.entries.filter fun e => Text.sameName e.entityName name

/-- The first entry for an entity. -/
def entryFor? (acl : Acl) (name : String) : Option AclEntry :=
  acl.entries.find? fun e => Text.sameName e.entityName name

/-- The actions granted on an entity by all its entries, when it has any. -/
def lookup? (acl : Acl) (name : String) : Option EntitlementSet :=
  match acl.matching name with
  | [] => none
  | e :: rest => some (rest.foldl (fun s f => s.union f.bits) e.bits)

/-- The actions granted on an entity; none when it has no entry. -/
def entitlements (acl : Acl) (name : String) : EntitlementSet := (acl.lookup? name).getD .empty

def allows (acl : Acl) (name : String) (action : Entitlement) : Bool :=
  match acl.lookup? name with
  | some bits => bits.allows action
  | none => false

def json (acl : Acl) : Json := .array (acl.entries.map AclEntry.json)

def decode : Decoder Acl
  | depth, node => (Decoder.list AclEntry.decode depth node).map Acl.mk

/-- The text that a credential carries. -/
def payload (acl : Acl) : String := acl.json.compact

def ofPayload (text : String) : Except Fault Acl := Json.parseWith decode text

end Acl

end RecordGate
