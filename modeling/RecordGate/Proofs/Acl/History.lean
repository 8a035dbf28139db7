import Mathlib.Data.List.Induction
import Mathlib.Data.List.Pairwise
import RecordGate.Proofs.Acl.Aggregate

/-!
# Histories of a directory

A directory is what the writes to it have made of the empty one. Its entities, memberships and
grants are told by the writes alone: a name is defined by the first write that names it in its
tenant, a role is held from its last assignment until it is revoked, and a grant stays.
-/

namespace RecordGate

namespace Directory

/-- A write to a directory. Where it may define an entity, `fresh` is the identifier drawn for it. -/
inductive Write
  | define (tenant : TenantId) (name : String) (fresh : Uuid)
  | assign (tenant : TenantId) (user : UserId) (role : RoleId)
  | revoke (tenant : TenantId) (user : UserId) (role : RoleId)
  | grant (tenant : TenantId) (role : RoleId) (entity : EntityId) (bits : EntitlementSet)
  | grantByName (tenant : TenantId) (role : RoleId) (name : String) (bits : EntitlementSet)
      (fresh : Uuid)
deriving DecidableEq

namespace Write

/-- The directory after a write. -/
def apply (d : Directory) : Write → Directory
  | .define tenant name fresh => (d.define tenant name ⟨fun _ => fresh, 0⟩).2.1
  | .assign tenant user role => d.assign tenant user role
  | .revoke tenant user role => (d.revoke tenant user role).2
  | .grant tenant role entity bits => d.grant tenant role entity bits
  | .grantByName tenant role name bits fresh =>
      (d.grantByName tenant role name bits ⟨fun _ => fresh, 0⟩).1

/-- The entity that a write defines when the tenant has none of its name. -/
def offer? : Write → Option EntityDefinition
  | .define tenant name fresh => some ⟨⟨fresh⟩, tenant, name⟩
  | .grantByName tenant _ name _ fresh => some ⟨⟨fresh⟩, tenant, name⟩
  | _ => none

/-- The memberships after a write, where there were some before. -/
def members (memberships : List RoleMembership) : Write → List RoleMembership
  | .assign tenant user role =>
      if memberships.contains ⟨tenant, user, role⟩ then memberships
      else memberships ++ [⟨tenant, user, role⟩]
  | .revoke tenant user role => memberships.filter fun m => m != ⟨tenant, user, role⟩
  | _ => memberships

/-- The grants that a write makes, in the directory after it. -/
def given (d : Directory) : Write → List RoleGrant
  | .grant tenant role entity bits => [⟨tenant, role, entity, bits⟩]
  | .grantByName tenant role name bits _ =>
      ((d.entity? tenant name).map fun e => ⟨tenant, role, e.id, bits⟩).toList
  | _ => []

end Write

/-- The directory after a sequence of writes. -/
def after (d : Directory) (h : List Write) : Directory := h.foldl Write.apply d

theorem after_append (d : Directory) (h k : List Write) : d.after (h ++ k) = (d.after h).after k :=
  List.foldl_append

theorem after_snoc (d : Directory) (h : List Write) (w : Write) :
    d.after (h ++ [w]) = w.apply (d.after h) := by
  rw [after_append]
  rfl

section Steps

variable {d : Directory} {tenant : TenantId} {name other : String} {e : EntityDefinition}
  {supply : Supply}

theorem define_of_some (h : d.entity? tenant name = some e) :
    d.define tenant name supply = (e.id, d, supply) := by
  rw [define, h]

theorem define_of_none (h : d.entity? tenant name = none) :
    d.define tenant name supply =
      (⟨supply.take.1⟩, { d with entities := d.entities ++ [⟨⟨supply.take.1⟩, tenant, name⟩] },
        supply.take.2) := by
  rw [define, h]

/-- To define a name from a source of identifiers is to write it with the next one. -/
theorem define_eq_apply (d : Directory) (tenant : TenantId) (name : String) (supply : Supply) :
    (d.define tenant name supply).2.1 = (Write.define tenant name supply.take.1).apply d := by
  rw [Write.apply]
  cases h : d.entity? tenant name with
  | some e => rw [define_of_some h, define_of_some h]
  | none =>
      rw [define_of_none h, define_of_none h]
      rfl

theorem grantByName_eq_apply (d : Directory) (tenant : TenantId) (role : RoleId) (name : String)
    (bits : EntitlementSet) (supply : Supply) :
    (d.grantByName tenant role name bits supply).1 =
      (Write.grantByName tenant role name bits supply.take.1).apply d := by
  simp only [Write.apply, grantByName]
  cases h : d.entity? tenant name with
  | some e => rw [define_of_some h, define_of_some h]
  | none =>
      rw [define_of_none h, define_of_none h]
      rfl

theorem entity?_congr (h : Text.sameName name other = true) :
    d.entity? tenant name = d.entity? tenant other := by
  have hfold := Text.sameName_iff.mp h
  simp only [entity?, Text.sameName, hfold]

theorem of_entity?_eq_some (h : d.entity? tenant name = some e) :
    e ∈ d.entities ∧ e.tenant = tenant ∧ Text.sameName e.name name = true := by
  have hfound := List.find?_some h
  rw [Bool.and_eq_true, beq_iff_eq] at hfound
  exact ⟨List.mem_of_find?_eq_some h, hfound⟩

/-- A write adds the entity that it offers, unless the tenant has one of its name. -/
theorem entities_apply (d : Directory) (w : Write) :
    (w.apply d).entities =
      d.entities ++ (w.offer?.filter fun e => (d.entity? e.tenant e.name).isNone).toList := by
  cases w with
  | define tenant name fresh =>
      cases h : d.entity? tenant name with
      | some e => simp [Write.apply, Write.offer?, define_of_some h, h]
      | none => simp [Write.apply, Write.offer?, define_of_none h, h, Supply.take, Option.filter]
  | grantByName tenant role name bits fresh =>
      cases h : d.entity? tenant name with
      | some e => simp [Write.apply, Write.offer?, grantByName, grant, define_of_some h, h]
      | none =>
          simp [Write.apply, Write.offer?, grantByName, grant, define_of_none h, h, Supply.take,
            Option.filter]
  | assign tenant user role =>
      simp only [Write.apply, assign]
      split <;> simp [Write.offer?]
  | revoke tenant user role => simp [Write.apply, revoke, Write.offer?]
  | grant tenant role entity bits => simp [Write.apply, grant, Write.offer?]

/-- A name is looked up as before a write, or else it is what the write offers. -/
theorem entity?_apply (d : Directory) (w : Write) (tenant : TenantId) (name : String) :
    (w.apply d).entity? tenant name =
      (d.entity? tenant name).or
        (w.offer?.filter fun e => e.tenant == tenant && Text.sameName e.name name) := by
  have hfind : (w.apply d).entity? tenant name = (d.entity? tenant name).or
      ((w.offer?.filter fun e => (d.entity? e.tenant e.name).isNone).toList.find? fun e =>
        e.tenant == tenant && Text.sameName e.name name) := by
    rw [entity?, entities_apply, List.find?_append]
    rfl
  rw [hfind]
  cases hfound : d.entity? tenant name with
  | some e => rfl
  | none =>
      cases hoffer : w.offer? with
      | none => rfl
      | some e =>
          by_cases hmatch : e.tenant = tenant ∧ Text.sameName e.name name = true
          · obtain ⟨rfl, hname⟩ := hmatch
            have hnone : d.entity? e.tenant e.name = none := by rw [entity?_congr hname, hfound]
            simp [Option.filter, hnone, hname]
          · by_cases hfree : d.entity? e.tenant e.name = none
            · simp [Option.filter, hfree, hmatch]
            · simp [Option.filter, hfree, hmatch]

theorem grants_apply (d : Directory) (w : Write) :
    (w.apply d).grants = d.grants ++ w.given (w.apply d) := by
  cases w with
  | define tenant name fresh =>
      cases h : d.entity? tenant name with
      | some e => simp [Write.apply, Write.given, define_of_some h]
      | none => simp [Write.apply, Write.given, define_of_none h]
  | grantByName tenant role name bits fresh =>
      have hlookup (g : List RoleGrant) :
          ({ d with grants := g } : Directory).entity? tenant name = d.entity? tenant name := rfl
      cases h : d.entity? tenant name with
      | some e =>
          simp [Write.apply, Write.given, grantByName, grant, define_of_some h, hlookup, h]
      | none =>
          have hnone := h
          unfold entity? at hnone
          simp [Write.apply, Write.given, grantByName, grant, define_of_none h, Supply.take, entity?,
            List.find?_append, hnone]
  | assign tenant user role =>
      simp only [Write.apply, assign]
      split <;> simp [Write.given]
  | revoke tenant user role => simp [Write.apply, revoke, Write.given]
  | grant tenant role entity bits => simp [Write.apply, grant, Write.given]

theorem memberships_apply (d : Directory) (w : Write) :
    (w.apply d).memberships = w.members d.memberships := by
  cases w with
  | define tenant name fresh =>
      cases h : d.entity? tenant name with
      | some e => simp [Write.apply, Write.members, define_of_some h]
      | none => simp [Write.apply, Write.members, define_of_none h]
  | grantByName tenant role name bits fresh =>
      cases h : d.entity? tenant name with
      | some e => simp [Write.apply, Write.members, grantByName, grant, define_of_some h]
      | none => simp [Write.apply, Write.members, grantByName, grant, define_of_none h]
  | assign tenant user role =>
      simp only [Write.apply, Write.members, assign]
      split <;> rfl
  | revoke tenant user role => rfl
  | grant tenant role entity bits => rfl

theorem mem_members {memberships : List RoleMembership} {w : Write} {m : RoleMembership} :
    m ∈ w.members memberships ↔
      w = .assign m.tenant m.user m.role ∨
        (m ∈ memberships ∧ w ≠ .revoke m.tenant m.user m.role) := by
  have hself (t : TenantId) (u : UserId) (r : RoleId) :
      m = ⟨t, u, r⟩ ↔ t = m.tenant ∧ u = m.user ∧ r = m.role := by
    constructor
    · intro h
      subst h
      exact ⟨rfl, rfl, rfl⟩
    · intro h
      obtain ⟨rfl, rfl, rfl⟩ := h
      rfl
  cases w with
  | define tenant name fresh => simp [Write.members]
  | grantByName tenant role name bits fresh => simp [Write.members]
  | assign tenant user role =>
      simp only [Write.members, List.contains_iff_mem, Write.assign.injEq, ne_eq, reduceCtorEq,
        not_false_eq_true, and_true, ← hself]
      split
      · constructor
        · exact .inr
        · intro h
          rcases h with rfl | hm
          · assumption
          · exact hm
      · rw [List.mem_append, List.mem_singleton, or_comm]
  | revoke tenant user role =>
      simp only [Write.members, List.mem_filter, bne_iff_ne, ne_eq, hself, reduceCtorEq, false_or,
        Write.revoke.injEq]
  | grant tenant role entity bits => simp [Write.members]

end Steps

/-- Entities stay where they are, as they are. -/
theorem entities_prefix_after (d : Directory) (h : List Write) :
    d.entities <+: (d.after h).entities := by
  induction h using List.reverseRecOn with
  | nil => exact List.prefix_rfl
  | append_singleton h w ih =>
      rw [after_snoc, entities_apply]
      exact ih.trans (List.prefix_append _ _)

/-- Grants stay where they are, as they are. -/
theorem grants_prefix_after (d : Directory) (h : List Write) : d.grants <+: (d.after h).grants := by
  induction h using List.reverseRecOn with
  | nil => exact List.prefix_rfl
  | append_singleton h w ih =>
      rw [after_snoc, grants_apply]
      exact ih.trans (List.prefix_append _ _)

/-- No tenant has two entities of one name. -/
def Distinct (d : Directory) : Prop :=
  d.entities.Pairwise fun e f => e.tenant = f.tenant → Text.sameName e.name f.name = false

theorem distinct_empty : empty.Distinct := List.Pairwise.nil

theorem distinct_apply {d : Directory} (hd : d.Distinct) (w : Write) : (w.apply d).Distinct := by
  rw [Distinct, entities_apply, List.pairwise_append]
  refine ⟨hd, ?_, ?_⟩
  · cases w.offer?.filter fun e => (d.entity? e.tenant e.name).isNone with
    | none => exact List.Pairwise.nil
    | some f => exact List.pairwise_singleton _ f
  · intro e he f hf htenant
    simp only [Option.mem_toList, Option.filter_eq_some_iff, Option.isNone_iff_eq_none,
      entity?, List.find?_eq_none, Bool.and_eq_true, not_and, Bool.not_eq_true] at hf
    exact hf.2 e he (by simpa using htenant)

theorem distinct_after {d : Directory} (hd : d.Distinct) (h : List Write) : (d.after h).Distinct := by
  induction h using List.reverseRecOn with
  | nil => exact hd
  | append_singleton h w ih =>
      rw [after_snoc]
      exact distinct_apply ih w

theorem Distinct.entity?_eq_some_iff {d : Directory} (hd : d.Distinct) {tenant : TenantId}
    {name : String} {e : EntityDefinition} :
    d.entity? tenant name = some e ↔
      e ∈ d.entities ∧ e.tenant = tenant ∧ Text.sameName e.name name = true := by
  refine ⟨of_entity?_eq_some, ?_⟩
  intro h
  obtain ⟨hmem, htenant, hname⟩ := h
  cases hfound : d.entity? tenant name with
  | none =>
      have hnone := List.find?_eq_none.mp hfound e hmem
      simp [htenant, hname] at hnone
  | some f =>
      obtain ⟨hf, hftenant, hfname⟩ := of_entity?_eq_some hfound
      have hsymm : Std.Symm fun e f : EntityDefinition =>
          e.tenant = f.tenant → Text.sameName e.name f.name = false := by
        refine ⟨fun a b hab hba => ?_⟩
        have hdiffer := hab hba.symm
        rw [Bool.eq_false_iff] at hdiffer ⊢
        exact fun hsame => hdiffer (Text.sameName_symm hsame)
      have hsame : Text.sameName f.name e.name = true :=
        Text.sameName_trans hfname (Text.sameName_symm hname)
      by_contra hne
      have hdiffer := List.Pairwise.forall hd hf hmem (fun heq => hne (congrArg some heq))
        (hftenant.trans htenant.symm)
      rw [hsame] at hdiffer
      cases hdiffer

/-- A user holds a role after a history: it was assigned, and not revoked since. -/
def Holds (h : List Write) (m : RoleMembership) : Prop :=
  ∃ earlier later, h = earlier ++ .assign m.tenant m.user m.role :: later ∧
    .revoke m.tenant m.user m.role ∉ later

/-- A write of a history defines an entity: no earlier write has named it in its tenant. -/
def Defines (h : List Write) (e : EntityDefinition) : Prop :=
  ∃ earlier w later, h = earlier ++ w :: later ∧ w.offer? = some e ∧
    ∀ v ∈ earlier, ∀ f, v.offer? = some f → f.tenant = e.tenant → Text.sameName f.name e.name = false

/-- A write of a history makes a grant, on an identifier or on what a name is defined as. -/
def Grants (h : List Write) (g : RoleGrant) : Prop :=
  .grant g.tenant g.role g.entity g.bits ∈ h ∨
    ∃ name fresh e, .grantByName g.tenant g.role name g.bits fresh ∈ h ∧ Defines h e ∧
      e.tenant = g.tenant ∧ Text.sameName e.name name = true ∧ e.id = g.entity

/-- The last of a sequence of writes stands after all others. -/
theorem snoc_eq_append_cons {h earlier later : List Write} {v w : Write} :
    h ++ [w] = earlier ++ v :: later ↔
      (later = [] ∧ h = earlier ∧ w = v) ∨
        ∃ rest, later = rest ++ [w] ∧ h = earlier ++ v :: rest := by
  cases later using List.reverseRecOn with
  | nil => simp
  | append_singleton rest x =>
      have hassoc : earlier ++ v :: (rest ++ [x]) = (earlier ++ v :: rest) ++ [x] := by simp
      rw [hassoc, List.append_singleton_inj]
      constructor
      · intro hlast
        obtain ⟨hh, rfl⟩ := hlast
        exact .inr ⟨rest, rfl, hh⟩
      · intro hplace
        rcases hplace with ⟨hnil, -⟩ | ⟨rest', hrest, hh⟩
        · simp at hnil
        · obtain ⟨rfl, rfl⟩ := List.append_singleton_inj.mp hrest
          exact ⟨hh, rfl⟩

theorem holds_snoc {h : List Write} {w : Write} {m : RoleMembership} :
    Holds (h ++ [w]) m ↔
      w = .assign m.tenant m.user m.role ∨ (Holds h m ∧ w ≠ .revoke m.tenant m.user m.role) := by
  simp only [Holds, snoc_eq_append_cons]
  constructor
  · intro hm
    rcases hm with ⟨earlier, later, ⟨-, -, hw⟩ | ⟨rest, rfl, hh⟩, hkept⟩
    · exact .inl hw
    · simp only [List.mem_append, List.mem_singleton, not_or] at hkept
      exact .inr ⟨⟨earlier, rest, hh, hkept.1⟩, fun hw => hkept.2 hw.symm⟩
  · intro hm
    rcases hm with hw | ⟨⟨earlier, rest, hh, hkept⟩, hw⟩
    · exact ⟨h, [], .inl ⟨rfl, rfl, hw⟩, by simp⟩
    · refine ⟨earlier, rest ++ [w], .inr ⟨rest, rfl, hh⟩, ?_⟩
      simp only [List.mem_append, List.mem_singleton, not_or]
      exact ⟨hkept, fun h => hw h.symm⟩

theorem defines_snoc {h : List Write} {w : Write} {e : EntityDefinition} :
    Defines (h ++ [w]) e ↔
      Defines h e ∨ (w.offer? = some e ∧ ∀ v ∈ h, ∀ f, v.offer? = some f → f.tenant = e.tenant →
        Text.sameName f.name e.name = false) := by
  simp only [Defines, snoc_eq_append_cons]
  constructor
  · intro he
    rcases he with ⟨earlier, v, later, ⟨-, rfl, rfl⟩ | ⟨rest, -, hh⟩, hv, hfirst⟩
    · exact .inr ⟨hv, hfirst⟩
    · exact .inl ⟨earlier, v, rest, hh, hv, hfirst⟩
  · intro he
    rcases he with ⟨earlier, v, rest, hh, hv, hfirst⟩ | ⟨hw, hfirst⟩
    · exact ⟨earlier, v, rest ++ [w], .inr ⟨rest, rfl, hh⟩, hv, hfirst⟩
    · exact ⟨h, w, [], .inl ⟨rfl, rfl, rfl⟩, hw, hfirst⟩

theorem mem_memberships_after {h : List Write} {m : RoleMembership} :
    m ∈ (empty.after h).memberships ↔ Holds h m := by
  induction h using List.reverseRecOn with
  | nil => simp [after, empty, Holds]
  | append_singleton h w ih => rw [after_snoc, memberships_apply, mem_members, holds_snoc, ih]

/-- A tenant has no entity of a name as long as no write has named it. -/
theorem entity?_after_eq_none_iff {h : List Write} {tenant : TenantId} {name : String} :
    (empty.after h).entity? tenant name = none ↔
      ∀ v ∈ h, ∀ f, v.offer? = some f → f.tenant = tenant → Text.sameName f.name name = false := by
  induction h using List.reverseRecOn with
  | nil => simp [after, empty, entity?]
  | append_singleton h w ih =>
      rw [after_snoc, entity?_apply, Option.or_eq_none_iff, ih]
      simp only [List.mem_append, List.mem_singleton, or_imp, forall_and, forall_eq]
      refine and_congr_right fun _ => ?_
      rw [Option.filter_eq_none_iff]
      simp

/-- What a name is defined as stays. -/
theorem entity?_after_of_some {d : Directory} {tenant : TenantId} {name : String}
    {e : EntityDefinition} (hfound : d.entity? tenant name = some e) (h : List Write) :
    (d.after h).entity? tenant name = some e := by
  induction h using List.reverseRecOn with
  | nil => exact hfound
  | append_singleton h w ih => rw [after_snoc, entity?_apply, ih, Option.some_or]

theorem mem_entities_after {h : List Write} {e : EntityDefinition} :
    e ∈ (empty.after h).entities ↔ Defines h e := by
  induction h using List.reverseRecOn with
  | nil => simp [after, empty, Defines]
  | append_singleton h w ih =>
      rw [after_snoc, entities_apply, List.mem_append, defines_snoc, ih, Option.mem_toList,
        Option.filter_eq_some_iff, Option.isNone_iff_eq_none, entity?_after_eq_none_iff]

theorem entity?_after_eq_some_iff {h : List Write} {tenant : TenantId} {name : String}
    {e : EntityDefinition} :
    (empty.after h).entity? tenant name = some e ↔
      Defines h e ∧ e.tenant = tenant ∧ Text.sameName e.name name = true := by
  rw [(distinct_after distinct_empty h).entity?_eq_some_iff, mem_entities_after]

/-- A write of a history makes a grant in the directory after it. -/
theorem mem_given_iff {d : Directory} {w : Write} {g : RoleGrant} :
    g ∈ w.given d ↔
      w = .grant g.tenant g.role g.entity g.bits ∨
        ∃ name fresh e, w = .grantByName g.tenant g.role name g.bits fresh ∧
          d.entity? g.tenant name = some e ∧ e.id = g.entity := by
  obtain ⟨t, r, i, b⟩ := g
  cases w with
  | grant tenant role entity bits => simp [Write.given, @eq_comm _ t, @eq_comm _ r, @eq_comm _ i,
      @eq_comm _ b]
  | grantByName tenant role name bits fresh =>
      simp only [Write.given, Option.mem_toList, Option.map_eq_some_iff, RoleGrant.mk.injEq,
        reduceCtorEq, false_or, Write.grantByName.injEq]
      constructor
      · intro h
        obtain ⟨e, he, rfl, rfl, hid, rfl⟩ := h
        exact ⟨name, fresh, e, ⟨rfl, rfl, rfl, rfl, rfl⟩, he, hid⟩
      · intro h
        obtain ⟨_, _, e, ⟨rfl, rfl, rfl, rfl, rfl⟩, he, hid⟩ := h
        exact ⟨e, he, rfl, rfl, hid, rfl⟩
  | define tenant name fresh => simp [Write.given]
  | assign tenant user role => simp [Write.given]
  | revoke tenant user role => simp [Write.given]

/-- A name that a write of a history grants on is defined after the history. -/
theorem exists_entity?_after {h : List Write} {tenant : TenantId} {role : RoleId} {name : String}
    {bits : EntitlementSet} {fresh : Uuid} (hmem : .grantByName tenant role name bits fresh ∈ h) :
    ∃ e, (empty.after h).entity? tenant name = some e := by
  rw [← Option.ne_none_iff_exists', ne_eq, entity?_after_eq_none_iff]
  intro hnone
  have hself := hnone _ hmem ⟨⟨fresh⟩, tenant, name⟩ rfl rfl
  simp at hself

/-- The grants in a directory are those that the writes give in the directory at the end. -/
theorem mem_grants_after_iff_given {h : List Write} {g : RoleGrant} :
    g ∈ (empty.after h).grants ↔ ∃ w ∈ h, g ∈ w.given (empty.after h) := by
  induction h using List.reverseRecOn with
  | nil => simp [after, empty]
  | append_singleton h w ih =>
      -- a name that has been granted on means the same before and after the last write
      have hstays {v : Write} (hv : v ∈ h) :
          g ∈ v.given (empty.after h) ↔ g ∈ v.given (empty.after (h ++ [w])) := by
        simp only [mem_given_iff, after_append]
        refine or_congr_right (exists_congr fun name => exists_congr fun fresh => ?_)
        refine exists_congr fun e => and_congr_right ?_
        intro hname
        subst hname
        obtain ⟨f, hf⟩ := exists_entity?_after hv
        rw [hf, entity?_after_of_some hf]
      rw [after_snoc, grants_apply, List.mem_append, ih, ← after_snoc]
      simp only [List.mem_append, List.mem_singleton, or_and_right, exists_or, exists_eq_left]
      exact or_congr_left (exists_congr fun v => and_congr_right hstays)

theorem mem_grants_after {h : List Write} {g : RoleGrant} :
    g ∈ (empty.after h).grants ↔ Grants h g := by
  simp only [mem_grants_after_iff_given, mem_given_iff, entity?_after_eq_some_iff, Grants, and_assoc]
  constructor
  · intro hg
    rcases hg with ⟨w, hmem, rfl | ⟨name, fresh, e, rfl, he⟩⟩
    · exact .inl hmem
    · exact .inr ⟨name, fresh, e, hmem, he⟩
  · intro hg
    rcases hg with hmem | ⟨name, fresh, e, hmem, he⟩
    · exact ⟨_, hmem, .inl rfl⟩
    · exact ⟨_, hmem, .inr ⟨name, fresh, e, rfl, he⟩⟩

/-- What a history entitles a user to: a role held at its end has a grant of the action on an entity
that the tenant defines under the name. -/
def Entitles (h : List Write) (tenant : TenantId) (user : UserId) (name : String)
    (action : Entitlement) : Prop :=
  ∃ role, Holds h ⟨tenant, user, role⟩ ∧
    ∃ e, Defines h e ∧ e.tenant = tenant ∧ Text.sameName e.name name = true ∧
      ∃ g, Grants h g ∧ g.tenant = tenant ∧ g.entity = e.id ∧ g.role = role ∧
        g.bits.allows action = true

/-- The list resolved after a history allows what the history entitles the user to. -/
theorem allows_resolve_after {h : List Write} {tenant : TenantId} {user : UserId} {name : String}
    {action : Entitlement} :
    ((empty.after h).resolve tenant user).allows name action = true ↔
      Entitles h tenant user name action := by
  simp only [allows_resolve, mem_memberships_after, mem_entities_after, mem_grants_after, Entitles]

end Directory

end RecordGate
