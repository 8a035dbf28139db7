import Mathlib.Data.List.Forall2
import RecordGate.Acl.Directory
import RecordGate.Auth.Decision

/-!
# What an access control list allows

An action is allowed by a list when some entry of the name has it. In an aggregated list such an
entry stands for a role that the user holds, an entity of that name, and a grant to the role on the
entity. The list has one entry for each entity of the tenant, and goes by nothing but these.
-/

namespace RecordGate

theorem EntitlementSet.allows_foldl_union {α : Type} (f : α → EntitlementSet) (l : List α)
    (s : EntitlementSet) (a : Entitlement) :
    (l.foldl (fun s x => s.union (f x)) s).allows a =
      (s.allows a || l.any fun x => (f x).allows a) := by
  induction l generalizing s with
  | nil => simp
  | cons x l ih => rw [List.foldl_cons, ih, allows_union, List.any_cons, Bool.or_assoc]

/-- Sets put together allow what one of them allows. -/
theorem EntitlementSet.allows_foldl_union_empty {α : Type} {f : α → EntitlementSet} {l : List α}
    {a : Entitlement} :
    (l.foldl (fun s x => s.union (f x)) empty).allows a = true ↔ ∃ x ∈ l, (f x).allows a = true := by
  have hempty : empty.allows a = false := by cases a <;> rfl
  rw [allows_foldl_union, hempty, Bool.false_or, List.any_eq_true]

namespace Acl

theorem allows_iff {acl : Acl} {name : String} {a : Entitlement} :
    acl.allows name a = true ↔
      ∃ e ∈ acl.entries, Text.sameName e.entityName name = true ∧ e.bits.allows a = true := by
  have hmatching (e : AclEntry) :
      e ∈ acl.matching name ↔ e ∈ acl.entries ∧ Text.sameName e.entityName name = true :=
    List.mem_filter
  have hany : acl.allows name a = (acl.matching name).any fun e => e.bits.allows a := by
    unfold allows lookup?
    cases acl.matching name with
    | nil => rfl
    | cons e rest => simp only [EntitlementSet.allows_foldl_union, List.any_cons]
  rw [hany, List.any_eq_true]
  constructor
  · intro h
    obtain ⟨e, he, ha⟩ := h
    obtain ⟨hmem, hname⟩ := (hmatching e).mp he
    exact ⟨e, hmem, hname, ha⟩
  · intro h
    obtain ⟨e, hmem, hname, ha⟩ := h
    exact ⟨e, (hmatching e).mpr ⟨hmem, hname⟩, ha⟩

theorem mem_rolesOf {tenant : TenantId} {user : UserId} {memberships : List RoleMembership}
    {role : RoleId} :
    role ∈ rolesOf tenant user memberships ↔ ⟨tenant, user, role⟩ ∈ memberships := by
  simp only [rolesOf, List.mem_map, List.mem_filter, Bool.and_eq_true, beq_iff_eq]
  constructor
  · intro h
    obtain ⟨⟨t, u, r⟩, ⟨hmem, rfl, rfl⟩, rfl⟩ := h
    exact hmem
  · intro hmem
    exact ⟨_, ⟨hmem, rfl, rfl⟩, rfl⟩

theorem allows_grantedTo {tenant : TenantId} {roles : List RoleId} {entity : EntityId}
    {grants : List RoleGrant} {a : Entitlement} :
    (grantedTo tenant roles entity grants).allows a = true ↔
      ∃ g ∈ grants, g.tenant = tenant ∧ g.entity = entity ∧ g.role ∈ roles ∧
        g.bits.allows a = true := by
  rw [grantedTo, EntitlementSet.allows_foldl_union_empty]
  simp only [List.mem_filter, Bool.and_eq_true, beq_iff_eq, List.contains_iff_mem, and_assoc]

theorem rolesOf_isEmpty_iff {tenant : TenantId} {user : UserId} {memberships : List RoleMembership} :
    (rolesOf tenant user memberships).isEmpty = true ↔
      ∀ role, ⟨tenant, user, role⟩ ∉ memberships := by
  rw [List.isEmpty_iff, List.eq_nil_iff_forall_not_mem]
  exact forall_congr' fun role => not_congr mem_rolesOf

theorem aggregate_of_no_role {tenant : TenantId} {user : UserId} {memberships : List RoleMembership}
    (h : ∀ role, ⟨tenant, user, role⟩ ∉ memberships) (entities : List EntityDefinition)
    (grants : List RoleGrant) : aggregate tenant user memberships entities grants = empty := by
  rw [aggregate]
  exact if_pos (rolesOf_isEmpty_iff.mpr h)

theorem entries_aggregate {tenant : TenantId} {user : UserId} {memberships : List RoleMembership}
    (h : ∃ role, ⟨tenant, user, role⟩ ∈ memberships) (entities : List EntityDefinition)
    (grants : List RoleGrant) :
    (aggregate tenant user memberships entities grants).entries =
      (entities.filter fun e => e.tenant == tenant).map fun e =>
        ⟨e.name, grantedTo tenant (rolesOf tenant user memberships) e.id grants⟩ := by
  have hroles : ¬ (rolesOf tenant user memberships).isEmpty = true := by
    rw [rolesOf_isEmpty_iff]
    exact fun hnone => h.elim hnone
  simp only [aggregate, if_neg hroles]

theorem mem_entries_aggregate {tenant : TenantId} {user : UserId}
    {memberships : List RoleMembership} {entities : List EntityDefinition} {grants : List RoleGrant}
    {entry : AclEntry} :
    entry ∈ (aggregate tenant user memberships entities grants).entries ↔
      (∃ role, ⟨tenant, user, role⟩ ∈ memberships) ∧
        ∃ e ∈ entities, e.tenant = tenant ∧
          entry = ⟨e.name, grantedTo tenant (rolesOf tenant user memberships) e.id grants⟩ := by
  by_cases h : ∃ role, ⟨tenant, user, role⟩ ∈ memberships
  · rw [entries_aggregate h, and_iff_right h]
    simp only [List.mem_map, List.mem_filter, beq_iff_eq, and_assoc, @eq_comm _ entry]
  · rw [aggregate_of_no_role (not_exists.mp h), iff_false_right fun hentry => h hentry.1]
    exact List.not_mem_nil

/-- An aggregated list allows an action exactly where a role of the user has a grant of it on an
entity of that name. -/
theorem allows_aggregate {tenant : TenantId} {user : UserId} {memberships : List RoleMembership}
    {entities : List EntityDefinition} {grants : List RoleGrant} {name : String} {a : Entitlement} :
    (aggregate tenant user memberships entities grants).allows name a = true ↔
      ∃ role, ⟨tenant, user, role⟩ ∈ memberships ∧
        ∃ e ∈ entities, e.tenant = tenant ∧ Text.sameName e.name name = true ∧
          ∃ g ∈ grants, g.tenant = tenant ∧ g.entity = e.id ∧ g.role = role ∧
            g.bits.allows a = true := by
  rw [allows_iff]
  constructor
  · intro h
    obtain ⟨entry, hentry, hname, ha⟩ := h
    obtain ⟨-, e, hmem, htenant, rfl⟩ := mem_entries_aggregate.mp hentry
    obtain ⟨g, hg, hgt, hge, hrole, hbits⟩ := allows_grantedTo.mp ha
    exact ⟨g.role, mem_rolesOf.mp hrole, e, hmem, htenant, hname, g, hg, hgt, hge, rfl, hbits⟩
  · intro h
    obtain ⟨role, hrole, e, hmem, htenant, hname, g, hg, hgt, hge, rfl, hbits⟩ := h
    refine ⟨_, mem_entries_aggregate.mpr ⟨⟨g.role, hrole⟩, e, hmem, htenant, rfl⟩, hname, ?_⟩
    exact allows_grantedTo.mpr ⟨g, hg, hgt, hge, mem_rolesOf.mpr hrole, hbits⟩

theorem rolesOf_isEmpty_congr {tenant : TenantId} {user : UserId}
    {memberships memberships' : List RoleMembership}
    (h : ∀ role, ⟨tenant, user, role⟩ ∈ memberships ↔ ⟨tenant, user, role⟩ ∈ memberships') :
    (rolesOf tenant user memberships).isEmpty = (rolesOf tenant user memberships').isEmpty := by
  rw [Bool.eq_iff_iff, rolesOf_isEmpty_iff, rolesOf_isEmpty_iff]
  exact forall_congr' fun role => not_congr (h role)

/-- A list depends on the set of roles of the user and on the set of grants to them. -/
theorem aggregate_congr {tenant : TenantId} {user : UserId}
    {memberships memberships' : List RoleMembership} (entities : List EntityDefinition)
    {grants grants' : List RoleGrant}
    (hroles : ∀ role, ⟨tenant, user, role⟩ ∈ memberships ↔ ⟨tenant, user, role⟩ ∈ memberships')
    (hgrants : ∀ g, g.tenant = tenant → ⟨tenant, user, g.role⟩ ∈ memberships →
      (g ∈ grants ↔ g ∈ grants')) :
    aggregate tenant user memberships entities grants =
      aggregate tenant user memberships' entities grants' := by
  have hgranted (entity : EntityId) :
      grantedTo tenant (rolesOf tenant user memberships) entity grants =
        grantedTo tenant (rolesOf tenant user memberships') entity grants' := by
    refine EntitlementSet.ext_allows fun a => Bool.eq_iff_iff.mpr ?_
    simp only [allows_grantedTo, mem_rolesOf, ← hroles]
    exact exists_congr fun g => and_congr_left fun h => hgrants g h.1 h.2.2.1
  simp only [aggregate, rolesOf_isEmpty_congr hroles, hgranted]

/-- A user without a role in a tenant has the empty list. Any other has one entry for each entity of
the tenant, in order, with the actions that rows of the tenant give on it to the roles held there.
Nothing else counts: not how often or where a membership or a row stands, not other users, not roles
that the user does not hold, not other tenants. -/
theorem aggregate_by_roles (tenant : TenantId) (user : UserId) (memberships : List RoleMembership)
    (entities : List EntityDefinition) (grants : List RoleGrant) :
    ((∀ role, ⟨tenant, user, role⟩ ∉ memberships) →
        aggregate tenant user memberships entities grants = empty) ∧
      ((∃ role, ⟨tenant, user, role⟩ ∈ memberships) →
        List.Forall₂
          (fun entry e => entry.entityName = e.name ∧ ∀ a, entry.bits.allows a = true ↔
            ∃ g ∈ grants, g.tenant = tenant ∧ g.entity = e.id ∧ g.bits.allows a = true ∧
              ⟨tenant, user, g.role⟩ ∈ memberships)
          (aggregate tenant user memberships entities grants).entries
          (entities.filter fun e => e.tenant == tenant)) ∧
      ∀ memberships' entities' grants',
        (∀ role, ⟨tenant, user, role⟩ ∈ memberships ↔ ⟨tenant, user, role⟩ ∈ memberships') →
        (entities.filter fun e => e.tenant == tenant) =
          (entities'.filter fun e => e.tenant == tenant) →
        (∀ g, g.tenant = tenant → ⟨tenant, user, g.role⟩ ∈ memberships →
          (g ∈ grants ↔ g ∈ grants')) →
        aggregate tenant user memberships entities grants =
          aggregate tenant user memberships' entities' grants' := by
  refine ⟨?_, ?_, ?_⟩
  · intro hnone
    exact aggregate_of_no_role hnone entities grants
  · intro hheld
    rw [entries_aggregate hheld, List.forall₂_map_left_iff, List.forall₂_same]
    intro e _
    refine ⟨rfl, fun a => ?_⟩
    simp only [allows_grantedTo, mem_rolesOf, and_comm]
  · intro memberships' entities' grants' hroles hentities hgrants
    rw [aggregate_congr entities hroles hgrants, aggregate, aggregate, hentities]

/-- Memberships of two users in two tenants; one of them stands twice. -/
def branchMemberships : List RoleMembership :=
  [ ⟨⟨.ofNat 1⟩, ⟨.ofNat 5⟩, ⟨.ofNat 8⟩⟩, ⟨⟨.ofNat 2⟩, ⟨.ofNat 5⟩, ⟨.ofNat 9⟩⟩,
    ⟨⟨.ofNat 1⟩, ⟨.ofNat 6⟩, ⟨.ofNat 9⟩⟩, ⟨⟨.ofNat 1⟩, ⟨.ofNat 5⟩, ⟨.ofNat 8⟩⟩ ]

def branchEntities : List EntityDefinition :=
  [⟨⟨.ofNat 4⟩, ⟨.ofNat 2⟩, "Authors"⟩, ⟨⟨.ofNat 3⟩, ⟨.ofNat 1⟩, "Books"⟩]

/-- Rows of a role that two tenants have, some of them on an entity that is not there. -/
def branchGrants : List RoleGrant :=
  [ ⟨⟨.ofNat 2⟩, ⟨.ofNat 8⟩, ⟨.ofNat 3⟩, .single .create⟩,
    ⟨⟨.ofNat 1⟩, ⟨.ofNat 8⟩, ⟨.ofNat 7⟩, .single .delete⟩,
    ⟨⟨.ofNat 1⟩, ⟨.ofNat 9⟩, ⟨.ofNat 3⟩, .single .update⟩,
    ⟨⟨.ofNat 1⟩, ⟨.ofNat 8⟩, ⟨.ofNat 3⟩, .single .read⟩ ]

/-- The list of a user of the first branch is what it is without the other user and the other branch,
and with its memberships and rows in another order. -/
theorem aggregate_by_roles_branches :
    ⟨⟨.ofNat 1⟩, ⟨.ofNat 5⟩, ⟨.ofNat 8⟩⟩ ∈ branchMemberships ∧
      aggregate ⟨.ofNat 1⟩ ⟨.ofNat 5⟩ branchMemberships branchEntities branchGrants =
        aggregate ⟨.ofNat 1⟩ ⟨.ofNat 5⟩ [⟨⟨.ofNat 1⟩, ⟨.ofNat 5⟩, ⟨.ofNat 8⟩⟩]
          [⟨⟨.ofNat 3⟩, ⟨.ofNat 1⟩, "Books"⟩]
          [ ⟨⟨.ofNat 1⟩, ⟨.ofNat 8⟩, ⟨.ofNat 3⟩, .single .read⟩,
            ⟨⟨.ofNat 1⟩, ⟨.ofNat 8⟩, ⟨.ofNat 7⟩, .single .delete⟩,
            ⟨⟨.ofNat 1⟩, ⟨.ofNat 8⟩, ⟨.ofNat 3⟩, .single .read⟩ ] ∧
      aggregate ⟨.ofNat 1⟩ ⟨.ofNat 5⟩ branchMemberships branchEntities branchGrants =
        ⟨[⟨"Books", .single .read⟩]⟩ := by
  have hbranch : Uuid.ofNat 1 ≠ Uuid.ofNat 2 := by decide
  have huser : Uuid.ofNat 5 ≠ Uuid.ofNat 6 := by decide
  have hroles (role : RoleId) : ⟨⟨.ofNat 1⟩, ⟨.ofNat 5⟩, role⟩ ∈ branchMemberships ↔
      role = ⟨.ofNat 8⟩ := by
    simp [branchMemberships, hbranch, huser]
  refine ⟨by decide, (aggregate_by_roles _ _ _ _ _).2.2 _ _ _ ?_ (by decide) ?_, by decide⟩
  · intro role
    rw [hroles]
    simp
  · intro g hg hrole
    rw [hroles] at hrole
    obtain ⟨tenant, role, entity, bits⟩ := g
    subst hg hrole
    have hother : Uuid.ofNat 8 ≠ Uuid.ofNat 9 := by decide
    simp [branchGrants, hbranch, hother, or_comm]

end Acl

theorem Directory.mem_membershipsOf {d : Directory} {tenant : TenantId} {user : UserId}
    {role : RoleId} :
    ⟨tenant, user, role⟩ ∈ d.membershipsOf tenant user ↔ ⟨tenant, user, role⟩ ∈ d.memberships := by
  simp [membershipsOf]

theorem Directory.resolveAcross_eq_aggregate (first second third : Directory) (tenant : TenantId)
    (user : UserId) :
    resolveAcross first second third tenant user =
      Acl.aggregate tenant user (first.membershipsOf tenant user) (second.entitiesOf tenant)
        (third.grantsOf tenant) := by
  rw [resolveAcross]
  cases first.membershipsOf tenant user with
  | nil => rfl
  | cons m rest => rfl

/-- The list from reads of several directories goes by the memberships of the first one, the entities
of the second and the grants of the third. -/
theorem Directory.allows_resolveAcross {first second third : Directory} {tenant : TenantId}
    {user : UserId} {name : String} {a : Entitlement} :
    (resolveAcross first second third tenant user).allows name a = true ↔
      ∃ role, ⟨tenant, user, role⟩ ∈ first.memberships ∧
        ∃ e ∈ second.entities, e.tenant = tenant ∧ Text.sameName e.name name = true ∧
          ∃ g ∈ third.grants, g.tenant = tenant ∧ g.entity = e.id ∧ g.role = role ∧
            g.bits.allows a = true := by
  rw [resolveAcross_eq_aggregate, Acl.allows_aggregate]
  simp only [membershipsOf, entitiesOf, grantsOf, List.mem_filter, Bool.and_eq_true, beq_iff_eq,
    and_self, and_true, and_assoc, and_self_left]

theorem Directory.allows_resolve {d : Directory} {tenant : TenantId} {user : UserId} {name : String}
    {a : Entitlement} :
    (d.resolve tenant user).allows name a = true ↔
      ∃ role, ⟨tenant, user, role⟩ ∈ d.memberships ∧
        ∃ e ∈ d.entities, e.tenant = tenant ∧ Text.sameName e.name name = true ∧
          ∃ g ∈ d.grants, g.tenant = tenant ∧ g.entity = e.id ∧ g.role = role ∧
            g.bits.allows a = true :=
  allows_resolveAcross

theorem Identity.isSome_subject? {user : UserId} :
    (subject? user).isSome = true ↔ user.isNil = false := by
  unfold subject?
  cases user.isNil <;> simp

/-- A caller who is no super admin needs a user id and a list that allows the action. -/
theorem Identity.allowed_evaluate_iff {i : Identity} {entity : String} {action : Entitlement} :
    (i.evaluate entity action).allowed = true ↔
      i.isSuperAdmin = true ∨
        (i.hasSubject = true ∧ ∃ acl, i.acl = some acl ∧ acl.allows entity action = true) := by
  unfold evaluate
  cases hadmin : i.isSuperAdmin with
  | true => simp [Decision.allow]
  | false =>
      cases hacl : i.acl with
      | none => simp [Decision.deny]
      | some acl =>
          cases hsubject : i.hasSubject with
          | false => simp [Decision.deny]
          | true =>
              cases hlookup : acl.lookup? entity with
              | none => simp [Decision.deny, Acl.allows, hlookup]
              | some bits =>
                  cases h : bits.allows action <;>
                    simp [Decision.allow, Decision.deny, Acl.allows, hlookup, h]

end RecordGate
