import RecordGate.Acl.Model

/-!
# Aggregation

The access control list of a user is put together from role memberships, entity definitions and
grants. A user without a role gets the empty list; otherwise each entity of the tenant has one
entry, with everything that is granted on it to a role of the user.
-/

namespace RecordGate.Acl

def rolesOf (tenant : TenantId) (user : UserId) (memberships : List RoleMembership) : List RoleId :=
  (memberships.filter fun m => m.tenant == tenant && m.user == user).map (·.role)

/-- The actions granted on an entity of a tenant to some of the roles. -/
def grantedTo (tenant : TenantId) (roles : List RoleId) (entity : EntityId)
    (grants : List RoleGrant) : EntitlementSet :=
  (grants.filter fun g => g.tenant == tenant && g.entity == entity && roles.contains g.role).foldl
    (fun s g => s.union g.bits) .empty

def aggregate (tenant : TenantId) (user : UserId) (memberships : List RoleMembership)
    (entities : List EntityDefinition) (grants : List RoleGrant) : Acl :=
  let roles := rolesOf tenant user memberships
  if roles.isEmpty then empty
  else
    ⟨(entities.filter fun e => e.tenant == tenant).map fun e =>
      ⟨e.name, grantedTo tenant roles e.id grants⟩⟩

end RecordGate.Acl
