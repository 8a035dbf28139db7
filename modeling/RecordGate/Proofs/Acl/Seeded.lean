import RecordGate.Proofs.Acl.Confinement
import RecordGate.Proofs.Acl.Integrity

/-!
# What a seed gives a user

Filling a directory from a seed is a history of writes, in which each role has the identifier that
the seed gives it or one drawn for it. The entities of a tenant are the names in its blocks, each in
its first spelling. A user may do what is granted to the roles that list the user, and to the roles
with the identifier of one of these.
-/

namespace RecordGate

/-- Without later duplicates a list grows at its end by what is new. -/
theorem eraseDupsBy_append_singleton {α : Type} (r : α → α → Bool) (l : List α) (a : α) :
    (l ++ [a]).eraseDupsBy r =
      if (l.eraseDupsBy r).any (r a) then l.eraseDupsBy r else l.eraseDupsBy r ++ [a] := by
  have hloop (kept : List α) : List.eraseDupsBy.loop r (l ++ [a]) kept =
      if (List.eraseDupsBy.loop r l kept).any (r a) then List.eraseDupsBy.loop r l kept
      else List.eraseDupsBy.loop r l kept ++ [a] := by
    induction l generalizing kept with
    | nil =>
        simp only [List.nil_append, List.eraseDupsBy.loop, List.any_reverse]
        cases kept.any (r a) <;> simp
    | cons b l ih =>
        simp only [List.cons_append, List.eraseDupsBy.loop]
        by_cases hb : kept.any (r b) = true
        · simp only [hb, ih]
        · rw [Bool.not_eq_true] at hb
          simp only [hb, ih]
  exact hloop []

namespace DirectorySeed

/-- The roles in the blocks of a tenant. -/
def rolesOf (seed : DirectorySeed) (tenant : TenantId) : List RoleSeed :=
  (seed.tenants.filter fun block => block.id == tenant).flatMap (·.roles)

/-- The names in the blocks of a tenant: in each block those of its entities, and behind them those
that its roles have grants on. -/
def namesOf (seed : DirectorySeed) (tenant : TenantId) : List String :=
  (seed.tenants.filter fun block => block.id == tenant).flatMap fun block =>
    block.entities ++ block.roles.flatMap fun role => role.grants.map (·.entityName)

/-- A role is one of a user in a tenant: it lists the user, or has the identifier of one that does. A
role without an identifier shares that with no other. -/
def Lists (seed : DirectorySeed) (tenant : TenantId) (user : UserId) (role : RoleSeed) : Prop :=
  user ∈ role.members ∨
    ∃ id, role.id = some id ∧ ∃ other ∈ seed.rolesOf tenant, other.id = some id ∧ user ∈ other.members

/-- The identifiers drawn while a directory is filled are different, and the seed gives none of them
to a role. -/
structure Fresh (seed : DirectorySeed) (supply : Supply) : Prop where
  apart : Directory.Apart supply.used (Directory.ofSeed seed supply).2
  unused : ∀ i < (Directory.ofSeed seed supply).2.used, supply.used ≤ i →
    ∀ block ∈ seed.tenants, ∀ role ∈ block.roles, role.id ≠ some ⟨supply.ids i⟩

end DirectorySeed

namespace Directory

/-- A write without the identifier that it may draw. -/
def Write.unnumbered : Write → Write
  | .define tenant name _ => .define tenant name .nil
  | .grantByName tenant role name bits _ => .grantByName tenant role name bits .nil
  | w => w

/-- The roles of a block with the identifiers that they are given, or that are drawn for them one
after the other behind the first `start`. -/
inductive Numbered (ids : Nat → Uuid) : Nat → Nat → List (RoleId × RoleSeed) → Prop
  | nil {start stop : Nat} : start ≤ stop → Numbered ids start stop []
  | given {start stop : Nat} {id : RoleId} {role : RoleSeed} {rest : List (RoleId × RoleSeed)} :
      role.id = some id → Numbered ids start stop rest → Numbered ids start stop ((id, role) :: rest)
  | drawn {start stop i : Nat} {role : RoleSeed} {rest : List (RoleId × RoleSeed)} :
      role.id = none → start ≤ i → Numbered ids (i + 1) stop rest →
      Numbered ids start stop ((⟨ids i⟩, role) :: rest)

namespace Numbered

variable {ids : Nat → Uuid} {start middle stop : Nat} {roles more : List (RoleId × RoleSeed)}

theorem le (h : Numbered ids start stop roles) : start ≤ stop := by
  induction h with
  | nil hle => exact hle
  | given _ _ ih => exact ih
  | drawn _ hi _ ih => omega

theorem of_le (h : Numbered ids middle stop roles) (hle : start ≤ middle) :
    Numbered ids start stop roles := by
  induction h generalizing start with
  | nil hstop => exact .nil (hle.trans hstop)
  | given hid _ ih => exact .given hid (ih hle)
  | drawn hid hi hrest _ => exact .drawn hid (hle.trans hi) hrest

theorem append (h : Numbered ids start middle roles) (k : Numbered ids middle stop more) :
    Numbered ids start stop (roles ++ more) := by
  induction h with
  | nil hle => exact k.of_le hle
  | given hid _ ih => exact .given hid (ih k)
  | drawn hid hi _ ih => exact .drawn hid hi (ih k)

/-- A role has the identifier that it is given, or one that was drawn. -/
theorem given_or_drawn (h : Numbered ids start stop roles) {e : RoleId × RoleSeed} (he : e ∈ roles) :
    e.2.id = some e.1 ∨
      (e.2.id = none ∧ ∃ i, start ≤ i ∧ i < stop ∧ e.1 = ⟨ids i⟩) := by
  induction h with
  | nil => cases he
  | given hid _ ih =>
      rcases List.mem_cons.mp he with rfl | hrest
      · exact .inl hid
      · exact ih hrest
  | drawn hid hi hrest ih =>
      rcases List.mem_cons.mp he with rfl | hmem
      · exact .inr ⟨hid, _, hi, hrest.le, rfl⟩
      · refine (ih hmem).imp_right ?_
        rintro ⟨hnone, j, hj, hstop, heq⟩
        exact ⟨hnone, j, by omega, hstop, heq⟩

/-- Only roles that are given an identifier share it with another role of the list. -/
theorem pairwise (h : Numbered ids start stop roles)
    (apart : ∀ j < stop, ∀ i < j, start ≤ i → ids i ≠ ids j)
    (unused : ∀ i < stop, start ≤ i → ∀ e ∈ roles, e.2.id ≠ some ⟨ids i⟩) :
    roles.Pairwise fun a b => a.1 = b.1 → a.2.id = some a.1 ∧ b.2.id = some b.1 := by
  induction h with
  | nil => exact .nil
  | given hid hrest ih =>
      refine .cons ?_ (ih apart fun i hi hstart e he => unused i hi hstart e (.tail _ he))
      rintro e he rfl
      refine ⟨hid, (hrest.given_or_drawn he).resolve_right ?_⟩
      rintro ⟨-, i, hstart, hstop, heq⟩
      exact unused i hstop hstart _ List.mem_cons_self (hid.trans (congrArg some heq))
  | drawn hid hi hrest ih =>
      refine .cons ?_ (ih (fun j hj i hij hstart => apart j hj i hij (by omega))
        fun i hstop hstart e he => unused i hstop (by omega) e (.tail _ he))
      rintro e he heq
      -- a later role of the identifier drawn here would be given it, or have it drawn once more
      rcases hrest.given_or_drawn he with hgiven | ⟨-, j, hj, hstop, hdrawn⟩
      · exact absurd (hgiven.trans (congrArg some heq.symm)) (unused _ hrest.le hi e (.tail _ he))
      · have hids := RoleId.mk.inj (heq.trans hdrawn)
        exact absurd hids (apart j hstop _ hj hi)

end Numbered

section Writes

/-- A source of identifiers after some of them have been drawn. -/
def Later (supply : Supply) (_ : Directory) (s : Supply) : Prop :=
  s.ids = supply.ids ∧ supply.used ≤ s.used

theorem keptBySeeding_later (supply : Supply) : KeptBySeeding (Later supply) where
  take _ _ h := ⟨h.1, Nat.le_succ_of_le h.2⟩
  define d s tenant name h := by
    rw [define]
    cases d.entity? tenant name with
    | some e => exact h
    | none => exact ⟨h.1, Nat.le_succ_of_le h.2⟩
  assign _ _ _ _ _ h := h
  grant _ _ _ _ _ _ h := h

theorem exists_seedEntities (d : Directory) (supply : Supply) (tenant : TenantId)
    (names : List String) :
    ∃ h, (d.seedEntities tenant supply names).1 = d.after h ∧
      h.map Write.unnumbered = names.map fun name => .define tenant name .nil := by
  induction names generalizing d supply with
  | nil => exact ⟨[], rfl, rfl⟩
  | cons name rest ih =>
      obtain ⟨h, hrun, hwrites⟩ := ih (d.define tenant name supply).2.1 (d.define tenant name supply).2.2
      refine ⟨.define tenant name supply.take.1 :: h, ?_, ?_⟩
      · rw [seedEntities, hrun, define_eq_apply]
        rfl
      · rw [List.map_cons, hwrites]
        rfl

theorem exists_seedGrants (d : Directory) (supply : Supply) (tenant : TenantId) (role : RoleId)
    (grants : List AclEntry) :
    ∃ h, (d.seedGrants tenant role supply grants).1 = d.after h ∧
      h.map Write.unnumbered =
        grants.map fun g => .grantByName tenant role g.entityName g.bits .nil := by
  induction grants generalizing d supply with
  | nil => exact ⟨[], rfl, rfl⟩
  | cons g rest ih =>
      obtain ⟨h, hrun, hwrites⟩ := ih (d.grantByName tenant role g.entityName g.bits supply).1
        (d.grantByName tenant role g.entityName g.bits supply).2
      refine ⟨.grantByName tenant role g.entityName g.bits supply.take.1 :: h, ?_, ?_⟩
      · rw [seedGrants, hrun, grantByName_eq_apply]
        rfl
      · rw [List.map_cons, hwrites]
        rfl

theorem seedMembers_eq_after (d : Directory) (tenant : TenantId) (role : RoleId)
    (members : List UserId) :
    d.seedMembers tenant role members =
      d.after (members.map fun user => .assign tenant user role) := by
  rw [seedMembers, after, List.foldl_map]
  rfl

/-- What is written for a role of a block that has an identifier. -/
def roleWrites (tenant : TenantId) (e : RoleId × RoleSeed) : List Write :=
  (e.2.grants.map fun g => .grantByName tenant e.1 g.entityName g.bits .nil) ++
    e.2.members.map fun user => .assign tenant user e.1

theorem exists_seedRole (d : Directory) (supply : Supply) (tenant : TenantId) (id : RoleId)
    (role : RoleSeed) :
    ∃ h, (d.seedGrants tenant id supply role.grants).1.seedMembers tenant id role.members =
        d.after h ∧
      h.map Write.unnumbered = roleWrites tenant (id, role) := by
  obtain ⟨h, hrun, hwrites⟩ := exists_seedGrants d supply tenant id role.grants
  refine ⟨h ++ role.members.map fun user => .assign tenant user id, ?_, ?_⟩
  · rw [hrun, seedMembers_eq_after, after_append]
  · rw [List.map_append, hwrites, List.map_map]
    rfl

/-- The first role of a block is put into the directory under an identifier that it is given, or
under the next one. -/
theorem exists_seedRoles_cons (d : Directory) (supply : Supply) (tenant : TenantId) (role : RoleSeed)
    (rest : List RoleSeed) :
    ∃ id s, d.seedRoles tenant supply (role :: rest) =
        ((d.seedGrants tenant id s role.grants).1.seedMembers tenant id role.members).seedRoles tenant
          (d.seedGrants tenant id s role.grants).2 rest ∧
      s.ids = supply.ids ∧
      (role.id = some id ∧ s.used = supply.used ∨
        role.id = none ∧ id = ⟨supply.ids supply.used⟩ ∧ s.used = supply.used + 1) := by
  rw [seedRoles]
  cases hid : role.id with
  | some id => exact ⟨id, supply, rfl, rfl, .inl ⟨rfl, rfl⟩⟩
  | none => exact ⟨⟨supply.take.1⟩, supply.take.2, rfl, rfl, .inr ⟨rfl, rfl, rfl⟩⟩

theorem exists_seedRoles (d : Directory) (supply : Supply) (tenant : TenantId)
    (roles : List RoleSeed) :
    ∃ h numbered, (d.seedRoles tenant supply roles).1 = d.after h ∧
      h.map Write.unnumbered = numbered.flatMap (roleWrites tenant) ∧
      numbered.map (·.2) = roles ∧
      Numbered supply.ids supply.used (d.seedRoles tenant supply roles).2.used numbered := by
  induction roles generalizing d supply with
  | nil => exact ⟨[], [], rfl, rfl, rfl, .nil (Nat.le_refl _)⟩
  | cons role rest ih =>
      obtain ⟨id, s, hfirst, hids, hid⟩ := exists_seedRoles_cons d supply tenant role rest
      obtain ⟨h, hrun, hwrites⟩ := exists_seedRole d s tenant id role
      obtain ⟨hids', hused⟩ : Later s d (d.seedGrants tenant id s role.grants).2 :=
        (keptBySeeding_later s).seedGrants ⟨rfl, Nat.le_refl _⟩ tenant id role.grants
      obtain ⟨k, numbered, hrest, hkwrites, hroles, hnumbered⟩ := ih
        ((d.seedGrants tenant id s role.grants).1.seedMembers tenant id role.members)
        (d.seedGrants tenant id s role.grants).2
      rw [hfirst]
      refine ⟨h ++ k, (id, role) :: numbered, ?_, ?_, ?_, ?_⟩
      · rw [hrest, hrun, after_append]
      · rw [List.map_append, hwrites, hkwrites, List.flatMap_cons]
      · rw [List.map_cons, hroles]
      · rw [hids', hids] at hnumbered
        rcases hid with ⟨hgiven, hstart⟩ | ⟨hnone, rfl, hstart⟩
        · exact .given hgiven (hnumbered.of_le (by omega))
        · exact .drawn hnone (Nat.le_refl _) (hnumbered.of_le (by omega))

/-- A block of a seed with an identifier for each of its roles. -/
structure NumberedBlock where
  block : TenantSeed
  roles : List (RoleId × RoleSeed)
  roles_eq : roles.map (·.2) = block.roles

/-- What is written for a block: its entities, and then its roles. -/
def NumberedBlock.writes (b : NumberedBlock) : List Write :=
  (b.block.entities.map fun name => .define b.block.id name .nil) ++
    b.roles.flatMap (roleWrites b.block.id)

theorem exists_seedTenants (d : Directory) (supply : Supply) (tenants : List TenantSeed) :
    ∃ (h : List Write) (blocks : List NumberedBlock), (d.seedTenants supply tenants).1 = d.after h ∧
      h.map Write.unnumbered = blocks.flatMap NumberedBlock.writes ∧
      blocks.map (·.block) = tenants ∧
      Numbered supply.ids supply.used (d.seedTenants supply tenants).2.used
        (blocks.flatMap (·.roles)) := by
  induction tenants generalizing d supply with
  | nil => exact ⟨[], [], rfl, rfl, rfl, .nil (Nat.le_refl _)⟩
  | cons block rest ih =>
      obtain ⟨h, hrun, hwrites⟩ := exists_seedEntities d supply block.id block.entities
      obtain ⟨hids, hused⟩ : Later supply d (d.seedEntities block.id supply block.entities).2 :=
        (keptBySeeding_later supply).seedEntities ⟨rfl, Nat.le_refl _⟩ block.id block.entities
      obtain ⟨k, roles, hkrun, hkwrites, hroles, hnumbered⟩ :=
        exists_seedRoles (d.seedEntities block.id supply block.entities).1
          (d.seedEntities block.id supply block.entities).2 block.id block.roles
      obtain ⟨hids', -⟩ : Later supply d _ :=
        (keptBySeeding_later supply).seedRoles ⟨hids, hused⟩ block.id block.roles
      obtain ⟨l, blocks, hlrun, hlwrites, hblocks, hlnumbered⟩ := ih
        ((d.seedEntities block.id supply block.entities).1.seedRoles block.id
          (d.seedEntities block.id supply block.entities).2 block.roles).1
        ((d.seedEntities block.id supply block.entities).1.seedRoles block.id
          (d.seedEntities block.id supply block.entities).2 block.roles).2
      refine ⟨h ++ k ++ l, ⟨block, roles, hroles⟩ :: blocks, ?_, ?_, ?_, ?_⟩
      · rw [seedTenants, hlrun, hkrun, hrun, after_append, after_append]
      · rw [List.map_append, List.map_append, hwrites, hkwrites, hlwrites, List.flatMap_cons]
        rfl
      · rw [List.map_cons, hblocks]
      · -- what is drawn for the entities of a block lies before what is drawn for its roles
        rw [hids] at hnumbered
        rw [hids'] at hlnumbered
        rw [List.flatMap_cons]
        exact (hnumbered.of_le hused).append hlnumbered

/-- A history that fills a directory from a seed, with the blocks of the seed as they are numbered
there. -/
structure Fills (seed : DirectorySeed) (supply : Supply) (h : List Write)
    (blocks : List NumberedBlock) : Prop where
  run : (ofSeed seed supply).1 = empty.after h
  writes : h.map Write.unnumbered = blocks.flatMap NumberedBlock.writes
  tenants : blocks.map (·.block) = seed.tenants
  numbered : Numbered supply.ids supply.used (ofSeed seed supply).2.used (blocks.flatMap (·.roles))

theorem ids_ofSeed (seed : DirectorySeed) (supply : Supply) :
    (ofSeed seed supply).2.ids = supply.ids :=
  ((keptBySeeding_later supply).ofSeed ⟨rfl, Nat.le_refl _⟩ seed).1

theorem exists_fills (seed : DirectorySeed) (supply : Supply) :
    ∃ h blocks, Fills seed supply h blocks := by
  obtain ⟨h, blocks, hrun, hwrites, hblocks, hnumbered⟩ :=
    exists_seedTenants empty supply seed.tenants
  exact ⟨h, blocks, hrun, hwrites, hblocks, hnumbered⟩

end Writes

section Blocks

variable {tenant : TenantId} {user : UserId} {id : RoleId} {role : RoleSeed}

/-- A role stands in a block of a tenant, under an identifier. -/
def RoleIn (blocks : List NumberedBlock) (tenant : TenantId) (id : RoleId) (role : RoleSeed) : Prop :=
  ∃ b ∈ blocks, b.block.id = tenant ∧ (id, role) ∈ b.roles

theorem assign_mem_writes_iff {blocks : List NumberedBlock} :
    .assign tenant user id ∈ blocks.flatMap NumberedBlock.writes ↔
      ∃ role, RoleIn blocks tenant id role ∧ user ∈ role.members := by
  simp only [NumberedBlock.writes, roleWrites, RoleIn, List.mem_flatMap, List.mem_append, List.mem_map,
    reduceCtorEq, and_false, exists_false, false_or, Write.assign.injEq]
  constructor
  · rintro ⟨b, hb, ⟨i, role⟩, hrole, u, hu, rfl, rfl, rfl⟩
    exact ⟨role, ⟨b, hb, rfl, hrole⟩, hu⟩
  · rintro ⟨role, ⟨b, hb, rfl, hrole⟩, hu⟩
    exact ⟨b, hb, (id, role), hrole, user, hu, rfl, rfl, rfl⟩

theorem grantByName_mem_writes_iff {blocks : List NumberedBlock} {name : String}
    {bits : EntitlementSet} :
    .grantByName tenant id name bits .nil ∈ blocks.flatMap NumberedBlock.writes ↔
      ∃ role, RoleIn blocks tenant id role ∧ ⟨name, bits⟩ ∈ role.grants := by
  simp only [NumberedBlock.writes, roleWrites, RoleIn, List.mem_flatMap, List.mem_append, List.mem_map,
    reduceCtorEq, and_false, exists_false, false_or, or_false, Write.grantByName.injEq, and_true]
  constructor
  · rintro ⟨b, hb, ⟨i, role⟩, hrole, g, hg, rfl, rfl, rfl, rfl⟩
    exact ⟨role, ⟨b, hb, rfl, hrole⟩, hg⟩
  · rintro ⟨role, ⟨b, hb, rfl, hrole⟩, hg⟩
    exact ⟨b, hb, (id, role), hrole, _, hg, rfl, rfl, rfl, rfl⟩

theorem revoke_not_mem_writes {blocks : List NumberedBlock} :
    .revoke tenant user id ∉ blocks.flatMap NumberedBlock.writes := by
  simp [NumberedBlock.writes, roleWrites]

theorem grant_not_mem_writes {blocks : List NumberedBlock} {entity : EntityId}
    {bits : EntitlementSet} :
    .grant tenant id entity bits ∉ blocks.flatMap NumberedBlock.writes := by
  simp [NumberedBlock.writes, roleWrites]

/-- The name that a write gives an entity of a tenant, unless it is there. -/
def Write.nameIn? (tenant : TenantId) : Write → Option String
  | .define t name _ => if t = tenant then some name else none
  | .grantByName t _ name _ _ => if t = tenant then some name else none
  | _ => none

theorem nameIn?_unnumbered (tenant : TenantId) (w : Write) :
    w.unnumbered.nameIn? tenant = w.nameIn? tenant := by
  cases w <;> rfl

theorem filterMap_roleWrites (tenant t : TenantId) (e : RoleId × RoleSeed) :
    (roleWrites t e).filterMap (Write.nameIn? tenant) =
      if t = tenant then e.2.grants.map (·.entityName) else [] := by
  by_cases ht : t = tenant <;>
    simp [roleWrites, Write.nameIn?, ht, List.filterMap_map, Function.comp_def]

theorem filterMap_writes (tenant : TenantId) (b : NumberedBlock) :
    b.writes.filterMap (Write.nameIn? tenant) =
      if b.block.id = tenant then
        b.block.entities ++ b.block.roles.flatMap fun role => role.grants.map (·.entityName)
      else [] := by
  have hroles : b.block.roles.flatMap (fun role => role.grants.map (·.entityName)) =
      b.roles.flatMap fun e => e.2.grants.map (·.entityName) := by
    rw [← b.roles_eq, List.flatMap_map]
  rw [NumberedBlock.writes, List.filterMap_append, List.filterMap_flatMap, hroles]
  simp only [filterMap_roleWrites]
  by_cases ht : b.block.id = tenant <;>
    simp [Write.nameIn?, ht, List.filterMap_map, Function.comp_def]

theorem any_sameName_entitiesOf (d : Directory) (tenant : TenantId) (name : String) :
    ((d.entitiesOf tenant).map (·.name)).any (Text.sameName name) =
      (d.entity? tenant name).isSome := by
  rw [entity?_eq_find?, Bool.eq_iff_iff, List.find?_isSome, List.any_map, List.any_eq_true]
  refine exists_congr fun e => and_congr_right fun _ => ?_
  exact ⟨Text.sameName_symm, Text.sameName_symm⟩

/-- A write adds the name that it gives, unless the tenant has an entity of this name. -/
theorem names_entitiesOf_apply (d : Directory) (w : Write) (tenant : TenantId) :
    ((w.apply d).entitiesOf tenant).map (·.name) = (d.entitiesOf tenant).map (·.name) ++
      ((w.nameIn? tenant).filter fun name => (d.entity? tenant name).isNone).toList := by
  have hnamed (t : TenantId) (fresh : Uuid) (name : String) :
      ((some (⟨⟨fresh⟩, t, name⟩ : EntityDefinition)).filter fun e =>
          e.tenant == tenant && (d.entity? tenant e.name).isNone).toList.map (·.name) =
        ((if t = tenant then some name else none).filter fun name =>
          (d.entity? tenant name).isNone).toList := by
    by_cases ht : t = tenant <;> by_cases hfree : (d.entity? tenant name).isNone <;>
      simp [Option.filter, ht, hfree]
  rw [entitiesOf_apply, List.map_append]
  cases w with
  | define t name fresh => rw [Write.offer?, hnamed, Write.nameIn?]
  | grantByName t role name bits fresh => rw [Write.offer?, hnamed, Write.nameIn?]
  | assign t user role => rfl
  | revoke t user role => rfl
  | grant t role entity bits => rfl

/-- The entities of a tenant are the names that a history gives them, each in its first spelling. -/
theorem names_entitiesOf_after (h : List Write) (tenant : TenantId) :
    ((empty.after h).entitiesOf tenant).map (·.name) =
      (h.filterMap (Write.nameIn? tenant)).eraseDupsBy Text.sameName := by
  induction h using List.reverseRecOn with
  | nil => rfl
  | append_singleton h w ih =>
      rw [after_snoc, names_entitiesOf_apply, List.filterMap_append]
      cases hname : w.nameIn? tenant with
      | none => simp [hname, ih]
      | some name =>
          rw [List.filterMap_cons_some hname, List.filterMap_nil, eraseDupsBy_append_singleton, ← ih,
            any_sameName_entitiesOf]
          cases hfound : (empty.after h).entity? tenant name <;> simp [hfound]

end Blocks

/-- In a sound directory a name is defined as an entity of the same identifier exactly when it is the
name of the entity. -/
theorem Sound.exists_entity?_iff {d : Directory} (hd : d.Sound) {e : EntityDefinition}
    (he : e ∈ d.entities) {name : String} :
    (∃ f, d.entity? e.tenant name = some f ∧ f.id = e.id) ↔ Text.sameName e.name name = true := by
  constructor
  · rintro ⟨f, hf, hid⟩
    obtain ⟨hmem, -, hname⟩ := of_entity?_eq_some hf
    obtain rfl := List.inj_on_of_nodup_map hd.ids hmem he hid
    exact hname
  · intro hname
    exact ⟨e, (Distinct.entity?_eq_some_iff hd.names).mpr ⟨he, rfl, hname⟩, rfl⟩

namespace Fills

variable {seed : DirectorySeed} {supply : Supply} {h : List Write} {blocks : List NumberedBlock}
  {tenant : TenantId} {user : UserId} {id : RoleId} {role : RoleSeed}

theorem names_entitiesOf (fills : Fills seed supply h blocks) (tenant : TenantId) :
    ((ofSeed seed supply).1.entitiesOf tenant).map (·.name) =
      (seed.namesOf tenant).eraseDupsBy Text.sameName := by
  have hnames : h.filterMap (Write.nameIn? tenant) =
      (h.map Write.unnumbered).filterMap (Write.nameIn? tenant) := by
    rw [List.filterMap_map]
    exact congrArg (List.filterMap · h) (funext fun w => (nameIn?_unnumbered tenant w).symm)
  have hblocks : seed.namesOf tenant =
      blocks.flatMap fun b => b.writes.filterMap (Write.nameIn? tenant) := by
    rw [DirectorySeed.namesOf, ← fills.tenants]
    clear fills
    induction blocks with
    | nil => rfl
    | cons b blocks ih =>
        rw [List.map_cons, List.flatMap_cons, filterMap_writes, List.filter_cons, ← ih]
        by_cases ht : b.block.id = tenant <;> simp [ht]
  rw [fills.run, names_entitiesOf_after, hnames, fills.writes, List.filterMap_flatMap, hblocks]

theorem mem_memberships (fills : Fills seed supply h blocks) :
    ⟨tenant, user, id⟩ ∈ (ofSeed seed supply).1.memberships ↔
      ∃ role, RoleIn blocks tenant id role ∧ user ∈ role.members := by
  have hassigned : .assign tenant user id ∈ h ↔
      .assign tenant user id ∈ h.map Write.unnumbered := by
    rw [List.mem_map]
    refine ⟨fun hmem => ⟨_, hmem, rfl⟩, ?_⟩
    rintro ⟨w, hw, heq⟩
    cases w <;> simp only [Write.unnumbered, reduceCtorEq] at heq
    exact heq ▸ hw
  have hrevoked : .revoke tenant user id ∉ h := fun hmem =>
    revoke_not_mem_writes (fills.writes ▸ List.mem_map_of_mem hmem)
  rw [← assign_mem_writes_iff, ← fills.writes, ← hassigned, fills.run, mem_memberships_after]
  constructor
  · rintro ⟨earlier, later, rfl, -⟩
    exact List.mem_append_right _ List.mem_cons_self
  · intro hmem
    obtain ⟨earlier, later, hsplit⟩ := List.append_of_mem hmem
    refine ⟨earlier, later, hsplit, fun hlater => hrevoked ?_⟩
    rw [hsplit]
    exact List.mem_append_right _ (List.mem_cons_of_mem _ hlater)

/-- The grants of a directory that was filled from a seed are those of the roles in its blocks, on
what the names in them are defined as. -/
theorem mem_grants (fills : Fills seed supply h blocks) {g : RoleGrant} :
    g ∈ (ofSeed seed supply).1.grants ↔
      ∃ role, RoleIn blocks g.tenant g.role role ∧ ∃ name, ⟨name, g.bits⟩ ∈ role.grants ∧
        ∃ e, (ofSeed seed supply).1.entity? g.tenant name = some e ∧ e.id = g.entity := by
  have hnamed (name : String) : (∃ fresh, .grantByName g.tenant g.role name g.bits fresh ∈ h) ↔
      ∃ role, RoleIn blocks g.tenant g.role role ∧ ⟨name, g.bits⟩ ∈ role.grants := by
    rw [← grantByName_mem_writes_iff, ← fills.writes, List.mem_map]
    constructor
    · rintro ⟨fresh, hmem⟩
      exact ⟨_, hmem, rfl⟩
    · rintro ⟨w, hw, heq⟩
      cases w <;> simp only [Write.unnumbered, reduceCtorEq, Write.grantByName.injEq] at heq
      obtain ⟨rfl, rfl, rfl, rfl, -⟩ := heq
      exact ⟨_, hw⟩
  have hdirect : .grant g.tenant g.role g.entity g.bits ∉ h := fun hmem =>
    grant_not_mem_writes (fills.writes ▸ List.mem_map_of_mem hmem)
  rw [fills.run, mem_grants_after_iff_given]
  constructor
  · rintro ⟨w, hw, hg⟩
    rcases mem_given_iff.mp hg with rfl | ⟨name, fresh, e, rfl, he⟩
    · exact absurd hw hdirect
    · obtain ⟨role, hrole, hgrant⟩ := (hnamed name).mp ⟨fresh, hw⟩
      exact ⟨role, hrole, name, hgrant, e, he⟩
  · rintro ⟨role, hrole, name, hgrant, e, he⟩
    obtain ⟨fresh, hw⟩ := (hnamed name).mpr ⟨role, hrole, hgrant⟩
    exact ⟨_, hw, mem_given_iff.mpr (.inr ⟨name, fresh, e, rfl, he⟩)⟩

theorem mem_rolesOf_iff (fills : Fills seed supply h blocks) :
    role ∈ seed.rolesOf tenant ↔ ∃ id, RoleIn blocks tenant id role := by
  simp only [DirectorySeed.rolesOf, ← fills.tenants, RoleIn, List.mem_flatMap, List.mem_filter,
    List.mem_map, beq_iff_eq]
  constructor
  · rintro ⟨block, ⟨⟨b, hb, rfl⟩, ht⟩, hrole⟩
    rw [← b.roles_eq, List.mem_map] at hrole
    obtain ⟨⟨id, r⟩, hmem, rfl⟩ := hrole
    exact ⟨id, b, hb, ht, hmem⟩
  · rintro ⟨id, b, hb, ht, hmem⟩
    refine ⟨b.block, ⟨⟨b, hb, rfl⟩, ht⟩, ?_⟩
    rw [← b.roles_eq]
    exact List.mem_map_of_mem (f := (·.2)) hmem

/-- Roles under one identifier are one role, or are both given it. -/
theorem eq_or_given (fills : Fills seed supply h blocks) (fresh : seed.Fresh supply) {t : TenantId}
    {other : RoleSeed} (hrole : RoleIn blocks tenant id role) (hother : RoleIn blocks t id other) :
    role = other ∨ (role.id = some id ∧ other.id = some id) := by
  have hmem {t : TenantId} {r : RoleSeed} (h : RoleIn blocks t id r) :
      (id, r) ∈ blocks.flatMap (·.roles) := by
    obtain ⟨b, hb, -, hr⟩ := h
    exact List.mem_flatMap.mpr ⟨b, hb, hr⟩
  have hapart := fresh.apart
  rw [Apart, ids_ofSeed] at hapart
  have hunused : ∀ i < (ofSeed seed supply).2.used, supply.used ≤ i →
      ∀ e ∈ blocks.flatMap (·.roles), e.2.id ≠ some ⟨supply.ids i⟩ := by
    intro i hi hstart e he
    obtain ⟨b, hb, he⟩ := List.mem_flatMap.mp he
    refine fresh.unused i hi hstart b.block ?_ e.2 ?_
    · rw [← fills.tenants]
      exact List.mem_map_of_mem hb
    · rw [← b.roles_eq]
      exact List.mem_map_of_mem (f := (·.2)) he
  -- roles that are not one role stand at two places of the numbered list
  have hsymm : Std.Symm fun a b : RoleId × RoleSeed =>
      a.1 = b.1 → a.2.id = some a.1 ∧ b.2.id = some b.1 :=
    ⟨fun a b hab heq => (hab heq.symm).symm⟩
  by_cases heq : role = other
  · exact .inl heq
  · refine .inr ((fills.numbered.pairwise hapart hunused).forall (hmem hrole) (hmem hother) ?_ rfl)
    exact fun hpair => heq (congrArg Prod.snd hpair)

theorem id_of_given (fills : Fills seed supply h blocks) (hrole : RoleIn blocks tenant id role)
    {given : RoleId} (hgiven : role.id = some given) : id = given := by
  obtain ⟨b, hb, -, hmem⟩ := hrole
  rcases fills.numbered.given_or_drawn (List.mem_flatMap.mpr ⟨b, hb, hmem⟩) with hid | ⟨hnone, -⟩
  · exact Option.some.inj (hid.symm.trans hgiven)
  · cases hnone.symm.trans hgiven

/-- A role of a tenant is one of a user there when the user holds the identifier that it is under. -/
theorem lists_iff (fills : Fills seed supply h blocks) (fresh : seed.Fresh supply)
    (hrole : RoleIn blocks tenant id role) :
    seed.Lists tenant user role ↔
      ⟨tenant, user, id⟩ ∈ (ofSeed seed supply).1.memberships := by
  rw [fills.mem_memberships]
  constructor
  · rintro (hlists | ⟨given, hgiven, other, hother, hshared, hlists⟩)
    · exact ⟨role, hrole, hlists⟩
    · obtain ⟨id', hother⟩ := fills.mem_rolesOf_iff.mp hother
      obtain rfl := fills.id_of_given hrole hgiven
      obtain rfl := fills.id_of_given hother hshared
      exact ⟨other, hother, hlists⟩
  · rintro ⟨other, hother, hlists⟩
    rcases fills.eq_or_given fresh hrole hother with rfl | ⟨hgiven, hshared⟩
    · exact .inl hlists
    · exact .inr ⟨id, hgiven, other, fills.mem_rolesOf_iff.mpr ⟨id, hother⟩, hshared, hlists⟩

/-- Roles that a user has are granted an action on an entity exactly when roles of the user in the
blocks of its tenant have grants of the action on its name. -/
theorem exists_grant_iff (fills : Fills seed supply h blocks) (fresh : seed.Fresh supply)
    {e : EntityDefinition} (he : e ∈ (ofSeed seed supply).1.entities) {a : Entitlement} :
    (∃ g ∈ (ofSeed seed supply).1.grants, g.tenant = e.tenant ∧ g.entity = e.id ∧
        ⟨e.tenant, user, g.role⟩ ∈ (ofSeed seed supply).1.memberships ∧ g.bits.allows a = true) ↔
      ∃ role ∈ seed.rolesOf e.tenant, seed.Lists e.tenant user role ∧
        ∃ g ∈ role.grants, Text.sameName e.name g.entityName = true ∧ g.bits.allows a = true := by
  have hd := sound_ofSeed fresh.apart
  constructor
  · rintro ⟨g, hg, htenant, hentity, hheld, ha⟩
    obtain ⟨role, hrole, name, hgrant, f, hf, hid⟩ := fills.mem_grants.mp hg
    rw [htenant] at hrole hf
    have hlists := (fills.lists_iff fresh hrole).mpr hheld
    have hsame := (hd.exists_entity?_iff he).mp ⟨f, hf, hid.trans hentity⟩
    exact ⟨role, fills.mem_rolesOf_iff.mpr ⟨_, hrole⟩, hlists, _, hgrant, hsame, ha⟩
  · rintro ⟨role, hrole, hlists, ⟨name, bits⟩, hgrant, hsame, ha⟩
    obtain ⟨id, hrole⟩ := fills.mem_rolesOf_iff.mp hrole
    obtain ⟨f, hf, hid⟩ := (hd.exists_entity?_iff he).mpr hsame
    refine ⟨⟨e.tenant, id, e.id, bits⟩, ?_, rfl, rfl, (fills.lists_iff fresh hrole).mp hlists, ha⟩
    exact fills.mem_grants.mpr ⟨role, hrole, name, hgrant, f, hf, hid⟩

end Fills

/-- An entry of a list stands for an entity, with what is granted on it to roles that the user has. -/
theorem exists_of_mem_entries_resolve {d : Directory} {tenant : TenantId} {user : UserId}
    {entry : AclEntry} (h : entry ∈ (d.resolve tenant user).entries) :
    ∃ e ∈ d.entities, e.tenant = tenant ∧ entry.entityName = e.name ∧
      ∀ a, entry.bits.allows a = true ↔
        ∃ g ∈ d.grants, g.tenant = tenant ∧ g.entity = e.id ∧
          ⟨tenant, user, g.role⟩ ∈ d.memberships ∧ g.bits.allows a = true := by
  rw [resolve, resolveAcross_eq_aggregate, Acl.mem_entries_aggregate] at h
  obtain ⟨-, e, he, htenant, rfl⟩ := h
  refine ⟨e, (List.mem_filter.mp he).1, htenant, rfl, fun a => ?_⟩
  simp only [Acl.allows_grantedTo, Acl.mem_rolesOf, mem_membershipsOf, grantsOf, List.mem_filter,
    beq_iff_eq, and_assoc, and_self_left]

/-- A user whom no role in the blocks of a tenant lists gets the empty list from a seed. Any other has
an entry for each name in these blocks, in order, in the first of its spellings, with all actions
that roles of the user in these blocks have grants of on the name. -/
theorem resolve_ofSeed {seed : DirectorySeed} {supply : Supply} (fresh : seed.Fresh supply)
    (tenant : TenantId) (user : UserId) :
    ((∀ role ∈ seed.rolesOf tenant, user ∉ role.members) →
        (ofSeed seed supply).1.resolve tenant user = Acl.empty) ∧
      ((∃ role ∈ seed.rolesOf tenant, user ∈ role.members) →
        ((ofSeed seed supply).1.resolve tenant user).entries.map (·.entityName) =
            (seed.namesOf tenant).eraseDupsBy Text.sameName ∧
          ∀ entry ∈ ((ofSeed seed supply).1.resolve tenant user).entries, ∀ a,
            entry.bits.allows a = true ↔
              ∃ role ∈ seed.rolesOf tenant, seed.Lists tenant user role ∧
                ∃ g ∈ role.grants, Text.sameName entry.entityName g.entityName = true ∧
                  g.bits.allows a = true) := by
  obtain ⟨h, blocks, fills⟩ := exists_fills seed supply
  refine ⟨?_, ?_⟩
  · intro hnone
    rw [resolve, resolveAcross_eq_aggregate]
    refine Acl.aggregate_of_no_role (fun id hheld => ?_) _ _
    obtain ⟨role, hrole, hlists⟩ := fills.mem_memberships.mp (mem_membershipsOf.mp hheld)
    exact hnone role (fills.mem_rolesOf_iff.mpr ⟨id, hrole⟩) hlists
  · rintro ⟨role, hrole, hlists⟩
    obtain ⟨id, hrole⟩ := fills.mem_rolesOf_iff.mp hrole
    have hheld := mem_membershipsOf.mpr (fills.mem_memberships.mpr ⟨role, hrole, hlists⟩)
    refine ⟨?_, ?_⟩
    · rw [entityNames_resolve, if_neg (List.ne_nil_of_mem hheld), fills.names_entitiesOf]
    · intro entry hentry a
      obtain ⟨e, he, rfl, hname, hallows⟩ := exists_of_mem_entries_resolve hentry
      rw [hallows, hname, fills.exists_grant_iff fresh he]

/-- A tenant with two blocks, which have a role in common and another one without an identifier, and a
tenant with a role of the same identifier. -/
def chainSeed : DirectorySeed :=
  ⟨[ ⟨⟨.ofNat 1⟩, ["Books"],
      [ ⟨some ⟨.ofNat 8⟩, some "clerk", [⟨"books", .single .read⟩], [⟨.ofNat 5⟩]⟩,
        ⟨none, some "guest", [⟨"AUTHORS", .single .delete⟩], [⟨.ofNat 6⟩]⟩ ]⟩,
    ⟨⟨.ofNat 2⟩, [], [⟨some ⟨.ofNat 8⟩, none, [⟨"Loans", .full⟩], []⟩]⟩,
    ⟨⟨.ofNat 1⟩, ["Authors"],
      [⟨some ⟨.ofNat 8⟩, none, [⟨"authors", .single .update⟩, ⟨"BOOKS", .single .create⟩], []⟩]⟩ ]⟩

/-- The clerk may do what the role is granted in the second block too, and not what the guest may. -/
theorem resolve_ofSeed_chain :
    chainSeed.Fresh ⟨Uuid.ofNat, 10⟩ ∧
      (ofSeed chainSeed ⟨Uuid.ofNat, 10⟩).1.resolve ⟨.ofNat 1⟩ ⟨.ofNat 7⟩ = Acl.empty ∧
      ∃ books authors, (ofSeed chainSeed ⟨Uuid.ofNat, 10⟩).1.resolve ⟨.ofNat 1⟩ ⟨.ofNat 5⟩ =
          ⟨[⟨"Books", books⟩, ⟨"AUTHORS", authors⟩]⟩ ∧
        ["Books", "AUTHORS"] = (chainSeed.namesOf ⟨.ofNat 1⟩).eraseDupsBy Text.sameName ∧
        books.actions = [.create, .read] ∧ authors.actions = [.update] ∧
        ∃ role ∈ chainSeed.rolesOf ⟨.ofNat 1⟩, chainSeed.Lists ⟨.ofNat 1⟩ ⟨.ofNat 5⟩ role ∧
          ∃ g ∈ role.grants, Text.sameName "AUTHORS" g.entityName = true ∧
            g.bits.allows .update = true := by
  have fresh : chainSeed.Fresh ⟨Uuid.ofNat, 10⟩ := ⟨by decide, by decide⟩
  have hclerk : (ofSeed chainSeed ⟨Uuid.ofNat, 10⟩).1.resolve ⟨.ofNat 1⟩ ⟨.ofNat 5⟩ =
      ⟨[⟨"Books", .ofList [.create, .read]⟩, ⟨"AUTHORS", .single .update⟩]⟩ := by decide
  obtain ⟨hnames, hbits⟩ := (resolve_ofSeed fresh ⟨.ofNat 1⟩ ⟨.ofNat 5⟩).2 (by decide)
  rw [hclerk] at hnames hbits
  refine ⟨fresh, (resolve_ofSeed fresh _ _).1 (by decide), _, _, hclerk, hnames, by decide, by decide,
    ?_⟩
  exact (hbits ⟨"AUTHORS", .single .update⟩ (by simp) .update).mp rfl

end Directory

end RecordGate
