import RecordGate.Acl.Aggregate
import RecordGate.Error.Report
import RecordGate.Supply

/-!
# The directory of tenants

A directory keeps the entities, role memberships and grants of all tenants. An entity is defined
once in a tenant, whatever the case of its name, and a membership is held once. A directory can be
filled from a seed, tenant by tenant and role by role.
-/

namespace RecordGate

open Json (Decoder Slot)

structure Directory where
  entities : List EntityDefinition
  memberships : List RoleMembership
  grants : List RoleGrant

namespace Directory

def empty : Directory := ⟨[], [], []⟩

def entity? (d : Directory) (tenant : TenantId) (name : String) : Option EntityDefinition :=
  d.entities.find? fun e => e.tenant == tenant && Text.sameName e.name name

/-- Defines an entity with a fresh identifier, unless the tenant has one of that name. -/
def define (d : Directory) (tenant : TenantId) (name : String) (supply : Supply) :
    EntityId × Directory × Supply :=
  match d.entity? tenant name with
  | some e => (e.id, d, supply)
  | none =>
      let (u, supply) := supply.take
      (⟨u⟩, { d with entities := d.entities ++ [⟨⟨u⟩, tenant, name⟩] }, supply)

def assign (d : Directory) (tenant : TenantId) (user : UserId) (role : RoleId) : Directory :=
  if d.memberships.contains ⟨tenant, user, role⟩ then d
  else { d with memberships := d.memberships ++ [⟨tenant, user, role⟩] }

/-- Takes a role from a user, and says whether the user held it. -/
def revoke (d : Directory) (tenant : TenantId) (user : UserId) (role : RoleId) : Bool × Directory :=
  let kept := d.memberships.filter fun m => m != ⟨tenant, user, role⟩
  (kept.length != d.memberships.length, { d with memberships := kept })

def grant (d : Directory) (tenant : TenantId) (role : RoleId) (entity : EntityId)
    (bits : EntitlementSet) : Directory :=
  { d with grants := d.grants ++ [⟨tenant, role, entity, bits⟩] }

/-- Grants actions on the entity of a name, which is defined where it is not there yet. -/
def grantByName (d : Directory) (tenant : TenantId) (role : RoleId) (name : String)
    (bits : EntitlementSet) (supply : Supply) : Directory × Supply :=
  let (id, d, supply) := d.define tenant name supply
  (d.grant tenant role id bits, supply)

def membershipsOf (d : Directory) (tenant : TenantId) (user : UserId) : List RoleMembership :=
  d.memberships.filter fun m => m.tenant == tenant && m.user == user

def entitiesOf (d : Directory) (tenant : TenantId) : List EntityDefinition :=
  d.entities.filter fun e => e.tenant == tenant

def grantsOf (d : Directory) (tenant : TenantId) : List RoleGrant :=
  d.grants.filter fun g => g.tenant == tenant

/-- The access control list of a user when memberships, entities and grants are read one after the
other, each from the state of the directory at that time. -/
def resolveAcross (first second third : Directory) (tenant : TenantId) (user : UserId) : Acl :=
  let memberships := first.membershipsOf tenant user
  if memberships.isEmpty then Acl.empty
  else
    Acl.aggregate tenant user memberships (second.entitiesOf tenant) (third.grantsOf tenant)

def resolve (d : Directory) (tenant : TenantId) (user : UserId) : Acl :=
  resolveAcross d d d tenant user

end Directory

/-- A role to be put into a directory; one without an identifier gets a fresh one. -/
structure RoleSeed where
  id : Option RoleId
  name : Option String
  grants : List AclEntry
  members : List UserId

structure TenantSeed where
  id : TenantId
  entities : List String
  roles : List RoleSeed

/-- What a directory starts with. -/
structure DirectorySeed where
  tenants : List TenantSeed

namespace RoleSeed

def slots : List (Slot RoleSeed) :=
  [ .of "id" [] .defaulted Decoder.uuid fun u r => { r with id := some ⟨u⟩ },
    .of "name" [] .defaulted (Decoder.option Decoder.string) fun s r => { r with name := s },
    .of "grants" [] .defaulted (Decoder.list AclEntry.decode) fun gs r => { r with grants := gs },
    .of "members" [] .defaulted (Decoder.list Decoder.uuid)
      fun us r => { r with members := us.map UserId.mk } ]

def decode : Decoder RoleSeed := Slot.record ⟨none, none, [], []⟩ slots

end RoleSeed

namespace TenantSeed

def slots : List (Slot TenantSeed) :=
  [ .of "id" [] .required Decoder.uuid fun u t => { t with id := ⟨u⟩ },
    .of "entities" [] .defaulted (Decoder.list Decoder.string) fun es t => { t with entities := es },
    .of "roles" [] .defaulted (Decoder.list RoleSeed.decode) fun rs t => { t with roles := rs } ]

def decode : Decoder TenantSeed := Slot.record ⟨⟨.nil⟩, [], []⟩ slots

end TenantSeed

namespace DirectorySeed

def slots : List (Slot DirectorySeed) :=
  [.of "tenants" [] .defaulted (Decoder.list TenantSeed.decode) fun ts _ => ⟨ts⟩]

def decode : Decoder DirectorySeed := Slot.record ⟨[]⟩ slots

/-- Reads a seed. One that cannot be read is a wrong configuration. -/
def parse (text : String) : Except ErrorReport DirectorySeed :=
  match Json.parseWith decode text with
  | .ok seed => .ok seed
  | .error _ => .error (.underCode .invalidConfiguration "unreadable directory")

end DirectorySeed

namespace Directory

def seedEntities (d : Directory) (tenant : TenantId) (supply : Supply) : List String →
    Directory × Supply
  | [] => (d, supply)
  | name :: rest =>
      let (_, d, supply) := d.define tenant name supply
      d.seedEntities tenant supply rest

def seedGrants (d : Directory) (tenant : TenantId) (role : RoleId) (supply : Supply) :
    List AclEntry → Directory × Supply
  | [] => (d, supply)
  | g :: rest =>
      let (d, supply) := d.grantByName tenant role g.entityName g.bits supply
      d.seedGrants tenant role supply rest

def seedMembers (d : Directory) (tenant : TenantId) (role : RoleId) (members : List UserId) :
    Directory :=
  members.foldl (fun d user => d.assign tenant user role) d

def seedRoles (d : Directory) (tenant : TenantId) (supply : Supply) : List RoleSeed →
    Directory × Supply
  | [] => (d, supply)
  | role :: rest =>
      let (id, supply) :=
        match role.id with
        | some id => (id, supply)
        | none =>
            let (u, supply) := supply.take
            (RoleId.mk u, supply)
      let (d, supply) := d.seedGrants tenant id supply role.grants
      (d.seedMembers tenant id role.members).seedRoles tenant supply rest

def seedTenants (d : Directory) (supply : Supply) : List TenantSeed → Directory × Supply
  | [] => (d, supply)
  | tenant :: rest =>
      let (d, supply) := d.seedEntities tenant.id supply tenant.entities
      let (d, supply) := d.seedRoles tenant.id supply tenant.roles
      d.seedTenants supply rest

def ofSeed (seed : DirectorySeed) (supply : Supply) : Directory × Supply :=
  empty.seedTenants supply seed.tenants

/-- What is said of a file that cannot be read. -/
def unreadableFile (path cause : String) : ErrorReport :=
  .inContext ("Failed to read ACL directory " ++ path) cause

end Directory

end RecordGate
