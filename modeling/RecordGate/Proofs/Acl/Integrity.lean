import Mathlib.Data.Finset.Basic
import RecordGate.Proofs.Acl.History
import RecordGate.Proofs.Acl.Seeding

/-!
# Integrity of a directory

In a directory that has come about by seeding and writes no tenant has two entities of one name, an
identifier stands for one entity, and a membership is held once. Entities stay where they are, as they
are. A list of such a directory has one entry for each entity at most, so that its first entry for a
name is the only one.
-/

namespace RecordGate

namespace Acl

/-- In a list with one entry for each name at most, all that is granted on a name stands in the first
entry of the name. -/
theorem lookup?_eq_map_bits {acl : Acl}
    (h : acl.entries.Pairwise fun e f => Text.sameName e.entityName f.entityName = false)
    (name : String) : acl.lookup? name = (acl.entryFor? name).map (·.bits) := by
  have hfirst : acl.entryFor? name = (acl.matching name).head? := (List.head?_filter).symm
  have hmatching : (acl.matching name).Pairwise fun e f =>
      Text.sameName e.entityName f.entityName = false := h.filter _
  have hname : ∀ e ∈ acl.matching name, Text.sameName e.entityName name = true :=
    fun e he => (List.mem_filter.mp he).2
  rw [hfirst, lookup?]
  cases hlist : acl.matching name with
  | nil => rfl
  | cons e rest =>
      rw [hlist] at hmatching hname
      cases rest with
      | nil => rfl
      | cons f rest =>
          have hdiffer := List.rel_of_pairwise_cons hmatching List.mem_cons_self
          have hsame := Text.sameName_trans (hname e List.mem_cons_self)
            (Text.sameName_symm (hname f (List.mem_cons_of_mem e List.mem_cons_self)))
          rw [hsame] at hdiffer
          cases hdiffer

end Acl

namespace Directory

/-- No name, no identifier and no membership is there twice. -/
structure Sound (d : Directory) : Prop where
  names : d.Distinct
  ids : (d.entities.map (·.id)).Nodup
  memberships : d.memberships.Nodup

theorem sound_empty : empty.Sound := ⟨distinct_empty, List.nodup_nil, List.nodup_nil⟩

/-- The entity that a write adds, with the identifier that was drawn for it. -/
def Write.added? (d : Directory) (w : Write) : Option EntityDefinition :=
  w.offer?.filter fun e => (d.entity? e.tenant e.name).isNone

/-- An identifier that a write draws is that of no entity so far. -/
def Write.Fresh (d : Directory) (w : Write) : Prop :=
  ∀ e ∈ w.added? d, ∀ f ∈ d.entities, f.id ≠ e.id

instance (d : Directory) (w : Write) : Decidable (w.Fresh d) :=
  inferInstanceAs (Decidable (∀ e ∈ w.added? d, ∀ f ∈ d.entities, f.id ≠ e.id))

theorem nodup_members {memberships : List RoleMembership} (h : memberships.Nodup) (w : Write) :
    (w.members memberships).Nodup := by
  cases w with
  | define tenant name fresh => exact h
  | grantByName tenant role name bits fresh => exact h
  | grant tenant role entity bits => exact h
  | revoke tenant user role => exact h.filter _
  | assign tenant user role =>
      rw [Write.members, List.contains_eq_mem]
      by_cases hheld : (⟨tenant, user, role⟩ : RoleMembership) ∈ memberships
      · rw [if_pos (by simpa using hheld)]
        exact h
      · rw [if_neg (by simpa using hheld)]
        rw [← List.concat_eq_append]
        exact h.concat hheld

theorem nodup_ids_append {entities : List EntityDefinition} (h : (entities.map (·.id)).Nodup)
    {added : Option EntityDefinition} (fresh : ∀ e ∈ added, ∀ f ∈ entities, f.id ≠ e.id) :
    ((entities ++ added.toList).map (·.id)).Nodup := by
  cases added with
  | none => simpa using h
  | some e =>
      rw [Option.toList_some, List.map_append, List.map_singleton, ← List.concat_eq_append]
      refine h.concat ?_
      intro hmem
      obtain ⟨f, hf, hid⟩ := List.mem_map.mp hmem
      exact fresh e rfl f hf hid

theorem sound_apply {d : Directory} (hd : d.Sound) {w : Write} (fresh : w.Fresh d) :
    (w.apply d).Sound where
  names := distinct_apply hd.names w
  ids := by
    rw [entities_apply]
    exact nodup_ids_append hd.ids fresh
  memberships := by
    rw [memberships_apply]
    exact nodup_members hd.memberships w

section Seeding

/-- What has been drawn behind the first `start` identifiers is different in each case. -/
def Apart (start : Nat) (supply : Supply) : Prop :=
  ∀ j < supply.used, ∀ i < j, start ≤ i → supply.ids i ≠ supply.ids j

instance (start : Nat) (supply : Supply) : Decidable (Apart start supply) :=
  inferInstanceAs (Decidable (∀ j < supply.used, ∀ i < j, start ≤ i → supply.ids i ≠ supply.ids j))

/-- The entities of a directory have identifiers that were drawn behind the first `start`, and the
directory is sound if these are different. -/
structure Drawn (start : Nat) (d : Directory) (supply : Supply) : Prop where
  start_le : start ≤ supply.used
  drawn : ∀ e ∈ d.entities, ∃ i, start ≤ i ∧ i < supply.used ∧ e.id.uuid = supply.ids i
  sound : Apart start supply → d.Sound

variable {start : Nat} {d : Directory} {supply : Supply}

theorem apart_of_take (h : Apart start supply.take.2) : Apart start supply :=
  fun j hj => h j (Nat.lt_succ_of_lt hj)

theorem drawn_empty (supply : Supply) : Drawn supply.used empty supply :=
  ⟨Nat.le_refl _, by simp [empty], fun _ => sound_empty⟩

theorem Drawn.take (h : Drawn start d supply) : Drawn start d supply.take.2 where
  start_le := Nat.le_succ_of_le h.start_le
  drawn := by
    intro e he
    obtain ⟨i, hstart, hused, hid⟩ := h.drawn e he
    exact ⟨i, hstart, Nat.lt_succ_of_lt hused, hid⟩
  sound := fun hapart => h.sound (apart_of_take hapart)

/-- A write that draws nothing, or the next identifier. -/
theorem Drawn.apply (h : Drawn start d supply) (w : Write)
    (hoffer : ∀ e, w.offer? = some e → e.id.uuid = supply.ids supply.used) :
    Drawn start (w.apply d) supply.take.2 where
  start_le := Nat.le_succ_of_le h.start_le
  drawn := by
    intro e he
    rw [entities_apply, List.mem_append, Option.mem_toList, Option.filter_eq_some_iff] at he
    rcases he with hold | ⟨hnew, -⟩
    · exact h.take.drawn e hold
    · exact ⟨supply.used, h.start_le, Nat.lt_succ_self _, hoffer e hnew⟩
  sound := by
    intro hapart
    refine sound_apply (h.sound (apart_of_take hapart)) ?_
    intro e he f hf hid
    obtain ⟨i, hstart, hused, hdrawn⟩ := h.drawn f hf
    have hnext := hoffer e (Option.mem_filter_iff.mp he).1
    refine hapart supply.used (Nat.lt_succ_self _) i hused hstart ?_
    change supply.ids i = supply.ids supply.used
    rw [← hdrawn, hid, hnext]

/-- A write that offers no entity draws nothing. -/
theorem Drawn.apply_of_offer?_eq_none (h : Drawn start d supply) {w : Write}
    (hoffer : w.offer? = none) : Drawn start (w.apply d) supply where
  start_le := h.start_le
  drawn := by
    intro e he
    rw [entities_apply, hoffer, Option.filter_none, Option.toList_none, List.append_nil] at he
    exact h.drawn e he
  sound := by
    intro hapart
    refine sound_apply (h.sound hapart) ?_
    intro e he
    rw [Write.added?, hoffer] at he
    cases he

theorem Drawn.define (h : Drawn start d supply) (tenant : TenantId) (name : String) :
    Drawn start (d.define tenant name supply).2.1 (d.define tenant name supply).2.2 := by
  cases hfound : d.entity? tenant name with
  | some e =>
      rw [define_of_some hfound]
      exact h
  | none =>
      rw [define_eq_apply, define_of_none hfound]
      refine h.apply _ ?_
      intro e he
      cases he
      rfl

theorem keptBySeeding_drawn (start : Nat) : KeptBySeeding (Drawn start) where
  take _ _ h := h.take
  define _ _ tenant name h := h.define tenant name
  assign _ _ tenant user role h :=
    h.apply_of_offer?_eq_none (w := .assign tenant user role) rfl
  grant _ _ tenant role entity bits h :=
    h.apply_of_offer?_eq_none (w := .grant tenant role entity bits) rfl

/-- A directory that was filled from a seed is sound when the identifiers drawn for it are
different. -/
theorem sound_ofSeed {seed : DirectorySeed} {supply : Supply}
    (h : Apart supply.used (ofSeed seed supply).2) : (ofSeed seed supply).1.Sound :=
  ((keptBySeeding_drawn supply.used).ofSeed (drawn_empty supply) seed).sound h

end Seeding

/-- Directories that come about from the empty one or from a seed by writes, where identifiers that
are drawn have not been drawn before. -/
inductive Reachable : Directory → Prop
  | empty : Reachable empty
  | ofSeed (seed : DirectorySeed) (supply : Supply)
      (apart : Apart supply.used (ofSeed seed supply).2) : Reachable (ofSeed seed supply).1
  | write {d : Directory} (hd : Reachable d) (w : Write) (fresh : w.Fresh d) : Reachable (w.apply d)

theorem Reachable.sound {d : Directory} (hd : Reachable d) : d.Sound := by
  induction hd with
  | empty => exact sound_empty
  | ofSeed seed supply apart => exact sound_ofSeed apart
  | write _ w fresh ih => exact sound_apply ih fresh

section Memberships

variable (d : Directory) (tenant : TenantId) (user : UserId) (role : RoleId)

theorem toFinset_memberships_assign :
    (d.assign tenant user role).memberships.toFinset =
      insert ⟨tenant, user, role⟩ d.memberships.toFinset := by
  by_cases hheld : (⟨tenant, user, role⟩ : RoleMembership) ∈ d.memberships
  · rw [assign, if_pos (by simpa using hheld), Finset.insert_eq_of_mem (List.mem_toFinset.mpr hheld)]
  · rw [assign, if_neg (by simpa using hheld)]
    ext m
    simp [or_comm]

theorem toFinset_memberships_revoke :
    (d.revoke tenant user role).2.memberships.toFinset =
      d.memberships.toFinset.erase ⟨tenant, user, role⟩ := by
  ext m
  simp [revoke, and_comm]

/-- A role that is taken from a user was held. -/
theorem revoke_fst_iff :
    (d.revoke tenant user role).1 = true ↔ ⟨tenant, user, role⟩ ∈ d.memberships := by
  rw [revoke, bne_iff_ne, ne_eq, List.length_filter_eq_length_iff]
  simp

end Memberships

theorem rolesOf_membershipsOf (d : Directory) (tenant : TenantId) (user : UserId) :
    Acl.rolesOf tenant user (d.membershipsOf tenant user) =
      (d.membershipsOf tenant user).map (·.role) := by
  rw [Acl.rolesOf, membershipsOf, List.filter_filter]
  simp only [Bool.and_self]

/-- A user with a role has one entry for each entity of the tenant, in the order of definition. -/
theorem entityNames_resolve (d : Directory) (tenant : TenantId) (user : UserId) :
    (d.resolve tenant user).entries.map (·.entityName) =
      if d.membershipsOf tenant user = [] then [] else (d.entitiesOf tenant).map (·.name) := by
  have hroles := rolesOf_membershipsOf d tenant user
  rw [resolve, resolveAcross]
  cases hheld : d.membershipsOf tenant user with
  | nil => rfl
  | cons m rest =>
      rw [hheld] at hroles
      have hentities : (d.entitiesOf tenant).filter (fun e => e.tenant == tenant) =
          d.entitiesOf tenant := by
        rw [entitiesOf, List.filter_filter]
        simp only [Bool.and_self]
      simp only [List.isEmpty_cons, Bool.false_eq_true, if_false, Acl.aggregate, hroles,
        List.map_cons, hentities, List.map_map, reduceCtorEq]
      rfl

theorem Sound.pairwise_resolve {d : Directory} (hd : d.Sound) (tenant : TenantId) (user : UserId) :
    (d.resolve tenant user).entries.Pairwise fun e f =>
      Text.sameName e.entityName f.entityName = false := by
  have hentities : (d.entitiesOf tenant).Pairwise fun e f =>
      Text.sameName e.name f.name = false := by
    refine List.Pairwise.imp_of_mem ?_ (hd.names.filter _)
    intro e f he hf hnames
    have htenant : e.tenant = tenant := by simpa using (List.mem_filter.mp he).2
    have htenant' : f.tenant = tenant := by simpa using (List.mem_filter.mp hf).2
    exact hnames (htenant.trans htenant'.symm)
  have hnames : ((d.resolve tenant user).entries.map (·.entityName)).Pairwise fun a b =>
      Text.sameName a b = false := by
    rw [entityNames_resolve]
    split
    · exact List.Pairwise.nil
    · exact List.pairwise_map.mpr hentities
  exact List.pairwise_map.mp hnames

/-- In a directory that came about by seeding and writes, with fresh identifiers, nothing is there
twice. Entities stay in place whatever is written, and memberships are a set to which an assignment
adds and from which a revocation takes. A list resolved from it is empty for a user without a role,
has one entry for each entity of the tenant otherwise, and gives the same actions by its first entry
for a name as by all of them. -/
theorem Reachable.integrity {d : Directory} (hd : Reachable d) :
    (d.entities.Pairwise fun e f => e.tenant = f.tenant → Text.sameName e.name f.name = false) ∧
      (d.entities.map (·.id)).Nodup ∧ d.memberships.Nodup ∧
      (∀ writes, d.entities <+: (d.after writes).entities) ∧
      (∀ tenant user role,
        (d.assign tenant user role).memberships.toFinset =
            insert ⟨tenant, user, role⟩ d.memberships.toFinset ∧
          (d.revoke tenant user role).2.memberships.toFinset =
            d.memberships.toFinset.erase ⟨tenant, user, role⟩ ∧
          ((d.revoke tenant user role).1 = true ↔ ⟨tenant, user, role⟩ ∈ d.memberships)) ∧
      ∀ tenant user,
        (d.resolve tenant user).entries.map (·.entityName) =
            (if d.membershipsOf tenant user = [] then [] else (d.entitiesOf tenant).map (·.name)) ∧
          ∀ name, ((d.resolve tenant user).entryFor? name).map (·.bits) =
            (d.resolve tenant user).lookup? name := by
  refine ⟨hd.sound.names, hd.sound.ids, hd.sound.memberships, entities_prefix_after d, ?_, ?_⟩
  · intro tenant user role
    exact ⟨toFinset_memberships_assign d tenant user role,
      toFinset_memberships_revoke d tenant user role, revoke_fst_iff d tenant user role⟩
  · intro tenant user
    refine ⟨entityNames_resolve d tenant user, fun name => ?_⟩
    exact (Acl.lookup?_eq_map_bits (hd.sound.pairwise_resolve tenant user) name).symm

/-- A library with a role that has no identifier and a name in two cases. -/
def librarySeed : DirectorySeed :=
  ⟨[⟨⟨.ofNat 1⟩, ["Books", "BOOKS"],
    [⟨none, some "librarian", [⟨"books", .single .read⟩, ⟨"Authors", .single .update⟩],
      [⟨.ofNat 5⟩, ⟨.ofNat 5⟩]⟩]⟩]⟩

/-- The librarian gets a second role, which may read reviews. -/
def opening : List Write :=
  [ .assign ⟨.ofNat 1⟩ ⟨.ofNat 5⟩ ⟨.ofNat 6⟩,
    .grantByName ⟨.ofNat 1⟩ ⟨.ofNat 6⟩ "Reviews" (.single .read) (.ofNat 7) ]

theorem library_integrity :
    ∃ d, d = (ofSeed librarySeed ⟨Uuid.ofNat, 10⟩).1.after opening ∧ d.Reachable ∧
      d.entities.map (·.name) = ["Books", "Authors", "Reviews"] ∧ (d.entities.map (·.id)).Nodup ∧
      d.memberships.length = 2 ∧ d.memberships.Nodup ∧
      ((d.resolve ⟨.ofNat 1⟩ ⟨.ofNat 5⟩).entryFor? "authors").map (·.bits) =
        (d.resolve ⟨.ofNat 1⟩ ⟨.ofNat 5⟩).lookup? "authors" := by
  have hseed : Reachable (ofSeed librarySeed ⟨Uuid.ofNat, 10⟩).1 := .ofSeed _ _ (by decide)
  have hassigned := hseed.write (.assign ⟨.ofNat 1⟩ ⟨.ofNat 5⟩ ⟨.ofNat 6⟩) (by decide)
  have hopened := hassigned.write
    (.grantByName ⟨.ofNat 1⟩ ⟨.ofNat 6⟩ "Reviews" (.single .read) (.ofNat 7)) (by decide)
  obtain ⟨-, hids, hmemberships, -, -, hresolve⟩ := hopened.integrity
  exact ⟨_, rfl, hopened, by decide, hids, by decide, hmemberships, (hresolve _ _).2 "authors"⟩

end Directory

end RecordGate
