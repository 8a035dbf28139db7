import RecordGate.Proofs.Acl.History

/-!
# Writes that concern a user

The list of a user in a tenant depends on the definitions and grants of that tenant and on the
memberships of that user there. All other writes may be left out of a history.
-/

namespace RecordGate.Directory

/-- A write that counts for a user in a tenant. -/
def Write.concerns (tenant : TenantId) (user : UserId) : Write → Bool
  | .define t _ _ => t == tenant
  | .assign t u _ => t == tenant && u == user
  | .revoke t u _ => t == tenant && u == user
  | .grant t _ _ _ => t == tenant
  | .grantByName t _ _ _ _ => t == tenant

/-- A write that gives a role to a user in a tenant or takes one. -/
def Write.moves (tenant : TenantId) (user : UserId) : Write → Bool
  | .assign t u _ => t == tenant && u == user
  | .revoke t u _ => t == tenant && u == user
  | _ => false

/-- A write that defines an entity of a tenant unless it is there. -/
def Write.names (tenant : TenantId) (w : Write) : Bool := w.offer?.any fun e => e.tenant == tenant

/-- A write that makes a grant in a tenant. -/
def Write.grants (tenant : TenantId) : Write → Bool
  | .grant t _ _ _ => t == tenant
  | .grantByName t _ _ _ _ => t == tenant
  | _ => false

theorem Write.concerns_eq (tenant : TenantId) (user : UserId) (w : Write) :
    w.concerns tenant user = (w.moves tenant user || w.names tenant || w.grants tenant) := by
  cases w <;> simp [concerns, moves, names, grants, offer?]

/-- Two directories are the same for a user in a tenant. -/
structure Agree (tenant : TenantId) (user : UserId) (c d : Directory) : Prop where
  memberships : c.membershipsOf tenant user = d.membershipsOf tenant user
  entities : c.entitiesOf tenant = d.entitiesOf tenant
  grants : c.grantsOf tenant = d.grantsOf tenant

variable {tenant : TenantId} {user : UserId} {c d : Directory} {w : Write}

theorem Agree.trans {b : Directory} (h : Agree tenant user b c) (k : Agree tenant user c d) :
    Agree tenant user b d :=
  ⟨h.memberships.trans k.memberships, h.entities.trans k.entities, h.grants.trans k.grants⟩

theorem Agree.resolve_eq (h : Agree tenant user c d) :
    c.resolve tenant user = d.resolve tenant user := by
  simp only [resolve, resolveAcross, h.memberships, h.entities, h.grants]

theorem entity?_eq_find? (d : Directory) (tenant : TenantId) (name : String) :
    d.entity? tenant name = (d.entitiesOf tenant).find? fun e => Text.sameName e.name name := by
  rw [entity?, entitiesOf, List.find?_filter]
  congr 1
  funext e
  simp only [Bool.decide_and, Bool.decide_eq_true]

theorem entity?_eq_of_entitiesOf (h : c.entitiesOf tenant = d.entitiesOf tenant) (name : String) :
    c.entity? tenant name = d.entity? tenant name := by
  rw [entity?_eq_find?, entity?_eq_find?, h]

theorem entitiesOf_apply (d : Directory) (w : Write) (tenant : TenantId) :
    (w.apply d).entitiesOf tenant =
      d.entitiesOf tenant ++ (w.offer?.filter fun e =>
        e.tenant == tenant && (d.entity? tenant e.name).isNone).toList := by
  rw [entitiesOf, entities_apply, List.filter_append]
  congr 1
  cases w.offer? with
  | none => rfl
  | some e =>
      by_cases ht : e.tenant = tenant
      · subst ht
        by_cases hfree : (d.entity? e.tenant e.name).isNone <;> simp [Option.filter, hfree]
      · by_cases hfree : (d.entity? e.tenant e.name).isNone <;> simp [Option.filter, hfree, ht]

theorem grantsOf_apply (d : Directory) (w : Write) (tenant : TenantId) :
    (w.apply d).grantsOf tenant =
      d.grantsOf tenant ++ (w.given (w.apply d)).filter fun g => g.tenant == tenant := by
  rw [grantsOf, grants_apply, List.filter_append, grantsOf]

theorem given_congr (h : c.entitiesOf tenant = d.entitiesOf tenant)
    (hw : w.concerns tenant user = true) : w.given c = w.given d := by
  cases w with
  | grantByName t role name bits fresh =>
      obtain rfl : t = tenant := by simpa [Write.concerns] using hw
      simp only [Write.given, entity?_eq_of_entitiesOf h]
  | define t name fresh => rfl
  | assign t u role => rfl
  | revoke t u role => rfl
  | grant t role entity bits => rfl

/-- The memberships of a user after a write of that user follow from those before. -/
theorem membershipsOf_apply (d : Directory) (hw : w.concerns tenant user = true) :
    (w.apply d).membershipsOf tenant user = w.members (d.membershipsOf tenant user) := by
  rw [membershipsOf, memberships_apply]
  cases w with
  | define t name fresh => rfl
  | grantByName t role name bits fresh => rfl
  | grant t role entity bits => rfl
  | assign t u role =>
      obtain ⟨rfl, rfl⟩ : t = tenant ∧ u = user := by simpa [Write.concerns] using hw
      have hheld : (d.membershipsOf t u).contains ⟨t, u, role⟩ =
          d.memberships.contains ⟨t, u, role⟩ := by
        rw [Bool.eq_iff_iff, List.contains_iff_mem, List.contains_iff_mem]
        simp [membershipsOf]
      simp only [Write.members, hheld]
      split
      · rfl
      · simp [membershipsOf, List.filter_append]
  | revoke t u role =>
      simp only [Write.members, membershipsOf, List.filter_filter, Bool.and_comm]

theorem membershipsOf_apply_of_not_moves (d : Directory) (hw : w.moves tenant user = false) :
    (w.apply d).membershipsOf tenant user = d.membershipsOf tenant user := by
  rw [membershipsOf, memberships_apply, membershipsOf]
  cases w with
  | define t name fresh => rfl
  | grantByName t role name bits fresh => rfl
  | grant t role entity bits => rfl
  | assign t u role =>
      have hother : (t == tenant && u == user) = false := hw
      simp only [Write.members]
      split
      · rfl
      · simp [List.filter_append, hother]
  | revoke t u role =>
      have hother : (t == tenant && u == user) = false := hw
      rw [Write.members, List.filter_filter]
      refine List.filter_congr fun m _ => ?_
      by_cases hm : m = ⟨t, u, role⟩
      · simp [hm, hother]
      · simp [hm]

theorem entitiesOf_apply_of_not_names (d : Directory) (hw : w.names tenant = false) :
    (w.apply d).entitiesOf tenant = d.entitiesOf tenant := by
  have hnone : (w.offer?.filter fun e =>
      e.tenant == tenant && (d.entity? tenant e.name).isNone) = none := by
    rw [Option.filter_eq_none_iff]
    intro e he
    rw [Write.names, he] at hw
    have htenant : (e.tenant == tenant) = false := hw
    simp [htenant]
  rw [entitiesOf_apply, hnone, Option.toList_none, List.append_nil]

theorem grantsOf_apply_of_not_grants (d : Directory) (hw : w.grants tenant = false) :
    (w.apply d).grantsOf tenant = d.grantsOf tenant := by
  rw [grantsOf_apply, List.filter_eq_nil_iff.mpr, List.append_nil]
  intro g hg
  rcases mem_given_iff.mp hg with rfl | ⟨name, fresh, e, rfl, -⟩ <;> simpa [Write.grants] using hw

/-- What no single write of a kind changes, no run of such writes changes. -/
theorem unchanged_after {α : Type} (part : Directory → α) {touches : Write → Bool}
    (hstep : ∀ d w, touches w = false → part (w.apply d) = part d) (d : Directory)
    {writes : List Write} (h : ∀ w ∈ writes, touches w = false) :
    part (d.after writes) = part d := by
  induction writes using List.reverseRecOn with
  | nil => rfl
  | append_singleton writes w ih =>
      have hlast : touches w = false := h w (by simp)
      have hrest : ∀ v ∈ writes, touches v = false := fun v hv => h v (by simp [hv])
      rw [after_snoc, hstep _ w hlast, ih hrest]

theorem agree_apply_of_unconcerned (d : Directory) (hw : w.concerns tenant user = false) :
    Agree tenant user (w.apply d) d := by
  simp only [Write.concerns_eq, Bool.or_eq_false_iff] at hw
  obtain ⟨⟨hmoves, hnames⟩, hgrants⟩ := hw
  exact ⟨membershipsOf_apply_of_not_moves d hmoves, entitiesOf_apply_of_not_names d hnames,
    grantsOf_apply_of_not_grants d hgrants⟩

theorem Agree.apply (h : Agree tenant user c d) (hw : w.concerns tenant user = true) :
    Agree tenant user (w.apply c) (w.apply d) := by
  -- a grant on a name is looked up after the write, so the entities come first
  have hentities : (w.apply c).entitiesOf tenant = (w.apply d).entitiesOf tenant := by
    simp only [entitiesOf_apply, h.entities, entity?_eq_of_entitiesOf h.entities]
  have hmemberships :
      (w.apply c).membershipsOf tenant user = (w.apply d).membershipsOf tenant user := by
    rw [membershipsOf_apply c hw, membershipsOf_apply d hw, h.memberships]
  refine ⟨hmemberships, hentities, ?_⟩
  rw [grantsOf_apply, grantsOf_apply, h.grants, given_congr hentities hw]

/-- Only the writes that concern a user count for the list of that user. -/
theorem Agree.after (h : Agree tenant user c d) (writes : List Write) :
    Agree tenant user (c.after writes) (d.after (writes.filter (Write.concerns tenant user))) := by
  induction writes generalizing c d with
  | nil => exact h
  | cons w writes ih =>
      cases hw : w.concerns tenant user with
      | true =>
          rw [List.filter_cons_of_pos hw]
          exact ih (h.apply hw)
      | false =>
          rw [List.filter_cons_of_neg (by simp [hw])]
          exact ih ((agree_apply_of_unconcerned c hw).trans h)

theorem resolve_after_filter (d : Directory) (writes : List Write) :
    (d.after (writes.filter (Write.concerns tenant user))).resolve tenant user =
      (d.after writes).resolve tenant user := by
  have hself : Agree tenant user d d := ⟨rfl, rfl, rfl⟩
  exact (hself.after writes).resolve_eq.symm

end RecordGate.Directory
