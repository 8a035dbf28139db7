import Mathlib.Data.List.Infix
import RecordGate.Proofs.Acl.Confinement

/-!
# Reads amid writes

A list is put together from three reads: the memberships of the user, the entities of the tenant and
its grants. Each read sees one moment, but writes may come in between, also between the two steps of
a grant on a name, which are a definition and a grant. The list is that of a moment of which the three
reads are true together, and there need not be one. In any case nothing that was allowed at the first
read is lost, and only a revocation makes the list allow more than a list from the last moment does.
-/

namespace RecordGate.Directory

/-- The list of a user when the writes `earlier` come between the reads of memberships and entities,
and the writes `later` between those of entities and grants. -/
def resolveAmid (d : Directory) (earlier later : List Write) (tenant : TenantId) (user : UserId) :
    Acl :=
  resolveAcross d (d.after earlier) (d.after (earlier ++ later)) tenant user

/-- The three reads are true together of the moment after the writes `before`: the user has the roles
of the first read, the tenant has the entities of the second one, and what the third one finds
granted to these roles has been granted. -/
structure Steady (d : Directory) (earlier later : List Write) (tenant : TenantId) (user : UserId)
    (before : List Write) : Prop where
  moment : before <+: earlier ++ later
  roles : ∀ role, ⟨tenant, user, role⟩ ∈ (d.after before).memberships ↔
    ⟨tenant, user, role⟩ ∈ d.memberships
  entities : (d.after before).entitiesOf tenant = (d.after earlier).entitiesOf tenant
  grants : ∀ g ∈ (d.after (earlier ++ later)).grants, g.tenant = tenant →
    ⟨tenant, user, g.role⟩ ∈ d.memberships → g ∈ (d.after before).grants

variable {d : Directory} {earlier later before : List Write} {tenant : TenantId} {user : UserId}

/-- A grant on a name is a definition and then a grant on what the name is defined as, so that runs in
which a read comes between the two are runs like all others. -/
theorem after_grantByName (d : Directory) (tenant : TenantId) (role : RoleId) (name : String)
    (bits : EntitlementSet) (fresh : Uuid) :
    ∃ e, (d.after [.define tenant name fresh]).entity? tenant name = some e ∧
      d.after [.grantByName tenant role name bits fresh] =
        d.after [.define tenant name fresh, .grant tenant role e.id bits] := by
  simp only [after, List.foldl_cons, List.foldl_nil, Write.apply, grantByName]
  cases h : d.entity? tenant name with
  | some e =>
      rw [define_of_some h]
      exact ⟨e, h, rfl⟩
  | none =>
      have hnone : d.entities.find? (fun e => e.tenant == tenant && Text.sameName e.name name) = none :=
        h
      rw [define_of_none h]
      exact ⟨⟨⟨fresh⟩, tenant, name⟩, by simp [entity?, Supply.take, List.find?_append, hnone], rfl⟩

theorem Steady.resolveAmid_eq (h : Steady d earlier later tenant user before) :
    d.resolveAmid earlier later tenant user = (d.after before).resolve tenant user := by
  rw [resolve, resolveAmid, resolveAcross_eq_aggregate, resolveAcross_eq_aggregate, h.entities]
  refine Acl.aggregate_congr _ ?_ ?_
  · intro role
    rw [mem_membershipsOf, mem_membershipsOf, h.roles]
  · intro g htenant hrole
    rw [mem_membershipsOf] at hrole
    simp only [grantsOf, List.mem_filter, beq_iff_eq, htenant, and_true]
    constructor
    · intro hg
      exact h.grants g hg htenant hrole
    · intro hg
      -- a grant at the moment is still there at the third read
      obtain ⟨rest, hrun⟩ := h.moment
      rw [← hrun, after_append]
      exact (grants_prefix_after _ rest).subset hg

/-- Writes tell of a moment that the three reads are true of: no role of the user moves until then, no
entity of the tenant is named between then and the second read, and nothing is granted in the tenant
from then on. -/
theorem steady_of_writes (moment : before <+: earlier ++ later)
    (hmoves : ∀ w ∈ before, w.moves tenant user = false)
    (hnames : ∀ w ∈ before.drop earlier.length ++ earlier.drop before.length,
      w.names tenant = false)
    (hgrants : ∀ w ∈ (earlier ++ later).drop before.length, w.grants tenant = false) :
    Steady d earlier later tenant user before where
  moment := moment
  roles := by
    intro role
    rw [← mem_membershipsOf, ← mem_membershipsOf, unchanged_after (·.membershipsOf tenant user)
      (fun e _ => membershipsOf_apply_of_not_moves e) d hmoves]
  entities := by
    have hkept (e : Directory) {between : List Write}
        (h : ∀ w ∈ between, w.names tenant = false) :
        (e.after between).entitiesOf tenant = e.entitiesOf tenant :=
      unchanged_after (·.entitiesOf tenant) (fun c _ => entitiesOf_apply_of_not_names c) e h
    rcases List.prefix_or_prefix_of_prefix moment (List.prefix_append earlier later) with
      ⟨between, rfl⟩ | ⟨between, rfl⟩
    · rw [List.drop_left] at hnames
      rw [after_append, hkept _ fun w hw => hnames w (List.mem_append_right _ hw)]
    · rw [List.drop_left] at hnames
      rw [after_append, hkept _ fun w hw => hnames w (List.mem_append_left _ hw)]
  grants := by
    intro g hg htenant _
    obtain ⟨rest, hrun⟩ := moment
    rw [← hrun, List.drop_left] at hgrants
    have hgrantsOf : (d.after (before ++ rest)).grantsOf tenant = (d.after before).grantsOf tenant := by
      rw [after_append]
      exact unchanged_after (·.grantsOf tenant) (fun e _ => grantsOf_apply_of_not_grants e) _ hgrants
    have hmem : g ∈ (d.after before).grantsOf tenant := by
      rw [← hgrantsOf, hrun]
      simp [grantsOf, hg, htenant]
    exact (List.mem_filter.mp hmem).1

/-- A role that is not revoked stays. -/
theorem mem_memberships_after_of_not_revoked {m : RoleMembership} (hm : m ∈ d.memberships)
    {writes : List Write} (h : .revoke m.tenant m.user m.role ∉ writes) :
    m ∈ (d.after writes).memberships := by
  induction writes using List.reverseRecOn with
  | nil => exact hm
  | append_singleton writes w ih =>
      simp only [List.mem_append, List.mem_singleton, not_or] at h
      rw [after_snoc, memberships_apply, mem_members]
      exact .inr ⟨ih h.1, fun hw => h.2 hw.symm⟩

/-- Reads that find no less give a list that allows no less. -/
theorem allows_resolveAcross_mono {first second third first' second' third' : Directory}
    (hfirst : ∀ role, ⟨tenant, user, role⟩ ∈ first.memberships →
      ⟨tenant, user, role⟩ ∈ first'.memberships)
    (hsecond : second.entities ⊆ second'.entities) (hthird : third.grants ⊆ third'.grants)
    {name : String} {a : Entitlement}
    (h : (resolveAcross first second third tenant user).allows name a = true) :
    (resolveAcross first' second' third' tenant user).allows name a = true := by
  rw [allows_resolveAcross] at h ⊢
  obtain ⟨role, hrole, e, he, htenant, hname, g, hg, hgrant⟩ := h
  exact ⟨role, hfirst role hrole, e, hsecond he, htenant, hname, g, hthird hg, hgrant⟩

/-- What is allowed at the first read is allowed by the list. -/
theorem allows_resolveAmid_of_allows_resolve {name : String} {a : Entitlement}
    (h : (d.resolve tenant user).allows name a = true) :
    (d.resolveAmid earlier later tenant user).allows name a = true :=
  allows_resolveAcross_mono (fun _ hrole => hrole) (entities_prefix_after d earlier).subset
    (grants_prefix_after d _).subset h

/-- When no role of the user is revoked meanwhile, what the list allows is allowed at the last
read. -/
theorem allows_resolve_of_allows_resolveAmid
    (hkept : ∀ role, .revoke tenant user role ∉ earlier ++ later) {name : String} {a : Entitlement}
    (h : (d.resolveAmid earlier later tenant user).allows name a = true) :
    ((d.after (earlier ++ later)).resolve tenant user).allows name a = true := by
  have hlast : (d.after earlier).entities ⊆ (d.after (earlier ++ later)).entities := by
    rw [after_append]
    exact (entities_prefix_after _ later).subset
  refine allows_resolveAcross_mono ?_ hlast (fun _ hg => hg) h
  intro role hrole
  exact mem_memberships_after_of_not_revoked hrole (hkept role)

/-- A list from reads amid writes is that of each moment of which the three reads are true together,
where writes that touch none of the reads on the way make a moment one, and it is the empty list of
the first read for a user who had no role then. It allows what was allowed at the first read and,
unless a role of the user was revoked meanwhile, no more than is allowed at the last.
A grant on a name is a definition and a grant, so that the writes before a read may end between the
two. -/
theorem resolveAmid_between (d : Directory) (earlier later : List Write) (tenant : TenantId)
    (user : UserId) :
    (∀ before, Steady d earlier later tenant user before →
        d.resolveAmid earlier later tenant user = (d.after before).resolve tenant user) ∧
      (∀ before, before <+: earlier ++ later →
        (∀ w ∈ before, w.moves tenant user = false) →
        (∀ w ∈ before.drop earlier.length ++ earlier.drop before.length,
          w.names tenant = false) →
        (∀ w ∈ (earlier ++ later).drop before.length, w.grants tenant = false) →
          Steady d earlier later tenant user before) ∧
      (d.membershipsOf tenant user = [] →
        d.resolveAmid earlier later tenant user = d.resolve tenant user) ∧
      (∀ name a, (d.resolve tenant user).allows name a = true →
        (d.resolveAmid earlier later tenant user).allows name a = true) ∧
      ((∀ role, .revoke tenant user role ∉ earlier ++ later) →
        ∀ name a, (d.resolveAmid earlier later tenant user).allows name a = true →
          ((d.after (earlier ++ later)).resolve tenant user).allows name a = true) ∧
      ∀ (c : Directory) (role : RoleId) (name : String) (bits : EntitlementSet) (fresh : Uuid),
        ∃ e, (c.after [.define tenant name fresh]).entity? tenant name = some e ∧
          c.after [.grantByName tenant role name bits fresh] =
            c.after [.define tenant name fresh, .grant tenant role e.id bits] := by
  refine ⟨fun before h => h.resolveAmid_eq, ?_, ?_, ?_, ?_, fun c => c.after_grantByName tenant⟩
  · intro before moment hmoves hnames hgrants
    exact steady_of_writes moment hmoves hnames hgrants
  · intro hnone
    rw [resolveAmid, resolve, resolveAcross, resolveAcross, hnone]
    rfl
  · intro name a h
    exact allows_resolveAmid_of_allows_resolve h
  · intro hkept name a h
    exact allows_resolve_of_allows_resolveAmid hkept h

/-- A librarian who may read books. -/
def staffing : List Write :=
  [ .grantByName ⟨.ofNat 1⟩ ⟨.ofNat 6⟩ "Books" (.single .read) (.ofNat 7),
    .assign ⟨.ofNat 1⟩ ⟨.ofNat 5⟩ ⟨.ofNat 6⟩ ]

/-- The role of the librarian may read authors too. -/
def widening : Write := .grantByName ⟨.ofNat 1⟩ ⟨.ofNat 6⟩ "Authors" (.single .read) (.ofNat 8)

/-- The librarian loses the role. -/
def dismissal : Write := .revoke ⟨.ofNat 1⟩ ⟨.ofNat 5⟩ ⟨.ofNat 6⟩

/-- With one write between each two reads the list is that of the second read. -/
theorem resolveAmid_widening_dismissal :
    (empty.after staffing).resolveAmid [widening] [dismissal] ⟨.ofNat 1⟩ ⟨.ofNat 5⟩ =
      ⟨[⟨"Books", .single .read⟩, ⟨"Authors", .single .read⟩]⟩ := by
  obtain ⟨hresolve, hsteady, -⟩ :=
    resolveAmid_between (empty.after staffing) [widening] [dismissal] ⟨.ofNat 1⟩ ⟨.ofNat 5⟩
  have hmoment := hsteady [widening] (by decide) (by decide) (by decide) (by decide)
  rw [hresolve _ hmoment]
  decide

/-- A role that is taken from a user and then granted an action after the first read gives the user
what was allowed at no moment. -/
theorem exists_resolveAmid_unlike_every_moment :
    ¬ ∀ (start earlier later : List Write) (tenant : TenantId) (user : UserId),
      ∃ before, before <+: earlier ++ later ∧
        (empty.after start).resolveAmid earlier later tenant user =
          ((empty.after start).after before).resolve tenant user := by
  intro h
  obtain ⟨before, hmoment, hsame⟩ := h
    [.define ⟨.ofNat 1⟩ "Books" (.ofNat 7), .assign ⟨.ofNat 1⟩ ⟨.ofNat 5⟩ ⟨.ofNat 6⟩] []
    [.revoke ⟨.ofNat 1⟩ ⟨.ofNat 5⟩ ⟨.ofNat 6⟩,
      .grant ⟨.ofNat 1⟩ ⟨.ofNat 6⟩ ⟨.ofNat 7⟩ (.single .read)]
    ⟨.ofNat 1⟩ ⟨.ofNat 5⟩
  rw [← List.mem_inits] at hmoment
  revert before
  decide

end RecordGate.Directory
