import RecordGate.Acl.Directory

/-!
# Seeding step by step

A directory is filled from a seed by definitions, grants and assignments, between which fresh role
identifiers are drawn. What each of these steps keeps holds of the directory that a seed gives.
-/

namespace RecordGate.Directory

/-- Each step of seeding keeps a property of the directory and the source of identifiers. -/
structure KeptBySeeding (P : Directory → Supply → Prop) : Prop where
  take : ∀ d supply, P d supply → P d supply.take.2
  define : ∀ d supply tenant name, P d supply →
    P (d.define tenant name supply).2.1 (d.define tenant name supply).2.2
  assign : ∀ d supply tenant user role, P d supply → P (d.assign tenant user role) supply
  grant : ∀ d supply tenant role entity bits, P d supply → P (d.grant tenant role entity bits) supply

namespace KeptBySeeding

variable {P : Directory → Supply → Prop} (kept : KeptBySeeding P) {d : Directory} {supply : Supply}

include kept

theorem seedEntities (h : P d supply) (tenant : TenantId) (names : List String) :
    P (d.seedEntities tenant supply names).1 (d.seedEntities tenant supply names).2 := by
  induction names generalizing d supply with
  | nil => exact h
  | cons name rest ih => exact ih (kept.define d supply tenant name h)

theorem seedGrants (h : P d supply) (tenant : TenantId) (role : RoleId) (grants : List AclEntry) :
    P (d.seedGrants tenant role supply grants).1 (d.seedGrants tenant role supply grants).2 := by
  induction grants generalizing d supply with
  | nil => exact h
  | cons g rest ih => exact ih (kept.grant _ _ tenant role _ g.bits (kept.define d supply tenant _ h))

theorem seedMembers (h : P d supply) (tenant : TenantId) (role : RoleId) (members : List UserId) :
    P (d.seedMembers tenant role members) supply := by
  induction members generalizing d with
  | nil => exact h
  | cons user rest ih => exact ih (kept.assign d supply tenant user role h)

theorem seedRoles (h : P d supply) (tenant : TenantId) (roles : List RoleSeed) :
    P (d.seedRoles tenant supply roles).1 (d.seedRoles tenant supply roles).2 := by
  induction roles generalizing d supply with
  | nil => exact h
  | cons role rest ih =>
      cases hid : role.id with
      | some id =>
          simp only [Directory.seedRoles, hid]
          exact ih (kept.seedMembers (kept.seedGrants h tenant id role.grants) tenant id role.members)
      | none =>
          simp only [Directory.seedRoles, hid]
          exact ih (kept.seedMembers (kept.seedGrants (kept.take d supply h) tenant _ role.grants)
            tenant _ role.members)

theorem seedTenants (h : P d supply) (tenants : List TenantSeed) :
    P (d.seedTenants supply tenants).1 (d.seedTenants supply tenants).2 := by
  induction tenants generalizing d supply with
  | nil => exact h
  | cons tenant rest ih =>
      exact ih (kept.seedRoles (kept.seedEntities h tenant.id tenant.entities) tenant.id tenant.roles)

theorem ofSeed (h : P empty supply) (seed : DirectorySeed) :
    P (Directory.ofSeed seed supply).1 (Directory.ofSeed seed supply).2 :=
  kept.seedTenants h seed.tenants

end KeptBySeeding

end RecordGate.Directory
