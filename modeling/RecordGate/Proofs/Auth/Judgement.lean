import RecordGate.Proofs.Acl.Aggregate

/-!
# What decides about a caller

A caller who is no super admin is refused for the first thing that is missing: the list, the user, an
entry of the entity, the action in such an entry. Only the names of the entries, up to case, and the
actions that they give together count. So the decision stays when a list is put in other words, and
what one list allows is allowed by every longer one.
-/

namespace RecordGate

namespace Acl

/-- Some entry is of an entity. -/
def Mentions (acl : Acl) (name : String) : Prop :=
  ∃ e ∈ acl.entries, Text.sameName e.entityName name = true

/-- Some entry of an entity has an action. -/
def Grants (acl : Acl) (name : String) (action : Entitlement) : Prop :=
  ∃ e ∈ acl.entries, Text.sameName e.entityName name = true ∧ e.bits.allows action = true

/-- Two lists of entries are the same in other words: the entries stand in another order, names are
written in another case, an entry is split into several of its name, which have its actions between
them, or several of one name are merged into one. -/
inductive Reworded : List AclEntry → List AclEntry → Prop
  | permute {entries entries' : List AclEntry} : entries.Perm entries' → Reworded entries entries'
  | respell {name name' : String} {bits : EntitlementSet} (before after : List AclEntry) :
      Text.sameName name name' = true →
        Reworded (before ++ ⟨name, bits⟩ :: after) (before ++ ⟨name', bits⟩ :: after)
  | split {name : String} {bits : EntitlementSet} {parts : List EntitlementSet}
      (before after : List AclEntry) : parts ≠ [] →
        (∀ a, bits.allows a = true ↔ ∃ part ∈ parts, part.allows a = true) →
        Reworded (before ++ ⟨name, bits⟩ :: after) (before ++ parts.map (AclEntry.mk name) ++ after)
  | merge {name : String} {bits : EntitlementSet} {parts : List EntitlementSet}
      (before after : List AclEntry) : parts ≠ [] →
        (∀ a, bits.allows a = true ↔ ∃ part ∈ parts, part.allows a = true) →
        Reworded (before ++ parts.map (AclEntry.mk name) ++ after) (before ++ ⟨name, bits⟩ :: after)
  | trans {entries entries' entries'' : List AclEntry} : Reworded entries entries' →
      Reworded entries' entries'' → Reworded entries entries''

/-- Two lists tell the same of every entity. -/
def Agree (acl acl' : Acl) : Prop :=
  ∀ name, (acl.Mentions name ↔ acl'.Mentions name) ∧
    ∀ action, acl.Grants name action ↔ acl'.Grants name action

theorem Agree.symm {acl acl' : Acl} (h : acl.Agree acl') : acl'.Agree acl :=
  fun name => ⟨(h name).1.symm, fun action => ((h name).2 action).symm⟩

theorem Agree.trans {acl acl' acl'' : Acl} (h : acl.Agree acl') (h' : acl'.Agree acl'') :
    acl.Agree acl'' :=
  fun name =>
    ⟨(h name).1.trans (h' name).1, fun action => ((h name).2 action).trans ((h' name).2 action)⟩

theorem lookup?_eq_none_iff {acl : Acl} {name : String} :
    acl.lookup? name = none ↔ ¬ acl.Mentions name := by
  have hmatching : acl.matching name = [] ↔ ¬ acl.Mentions name := by
    simp only [matching, List.filter_eq_nil_iff, Mentions, not_exists, not_and]
  rw [← hmatching, lookup?]
  cases acl.matching name <;> simp

theorem exists_lookup?_of_mentions {acl : Acl} {name : String} (h : acl.Mentions name) :
    ∃ bits, acl.lookup? name = some bits := by
  rw [← Option.ne_none_iff_exists']
  exact fun hnone => lookup?_eq_none_iff.mp hnone h

theorem grants_iff_of_lookup? {acl : Acl} {name : String} {bits : EntitlementSet}
    (h : acl.lookup? name = some bits) (action : Entitlement) :
    acl.Grants name action ↔ bits.allows action = true := by
  rw [Grants, ← allows_iff, allows, h]

theorem Grants.mentions {acl : Acl} {name : String} {action : Entitlement}
    (h : acl.Grants name action) : acl.Mentions name := by
  obtain ⟨e, he, hname, -⟩ := h
  exact ⟨e, he, hname⟩

/-- Lists that tell the same of every entity have the same actions for each. -/
theorem Agree.lookup?_eq {acl acl' : Acl} (h : acl.Agree acl') (name : String) :
    acl.lookup? name = acl'.lookup? name := by
  obtain ⟨hmentions, hgrants⟩ := h name
  by_cases hname : acl.Mentions name
  · obtain ⟨bits, hbits⟩ := exists_lookup?_of_mentions hname
    obtain ⟨bits', hbits'⟩ := exists_lookup?_of_mentions (hmentions.mp hname)
    have hsame : bits = bits' := EntitlementSet.ext_allows fun a => Bool.eq_iff_iff.mpr <| by
      rw [← grants_iff_of_lookup? hbits, ← grants_iff_of_lookup? hbits', hgrants]
    rw [hbits, hbits', hsame]
  · rw [lookup?_eq_none_iff.mpr hname, lookup?_eq_none_iff.mpr (mt hmentions.mpr hname)]

theorem mentions_append {l r : List AclEntry} {name : String} :
    Mentions ⟨l ++ r⟩ name ↔ Mentions ⟨l⟩ name ∨ Mentions ⟨r⟩ name := by
  simp only [Mentions, List.mem_append, or_and_right, exists_or]

theorem grants_append {l r : List AclEntry} {name : String} {action : Entitlement} :
    Grants ⟨l ++ r⟩ name action ↔ Grants ⟨l⟩ name action ∨ Grants ⟨r⟩ name action := by
  simp only [Grants, List.mem_append, or_and_right, exists_or]

/-- What stands in the middle of a list may be replaced by what tells the same. -/
theorem Agree.between {middle middle' : List AclEntry} (h : Agree ⟨middle⟩ ⟨middle'⟩)
    (before after : List AclEntry) :
    Agree ⟨before ++ (middle ++ after)⟩ ⟨before ++ (middle' ++ after)⟩ := by
  intro name
  simp only [mentions_append, grants_append, (h name).1, (h name).2, implies_true, and_self]

theorem agree_of_mem_iff {entries entries' : List AclEntry}
    (h : ∀ e, e ∈ entries ↔ e ∈ entries') : Agree ⟨entries⟩ ⟨entries'⟩ := by
  intro name
  simp only [Mentions, Grants, h, implies_true, and_self]

theorem agree_respell {name name' : String} (h : Text.sameName name name' = true)
    (bits : EntitlementSet) : Agree ⟨[⟨name, bits⟩]⟩ ⟨[⟨name', bits⟩]⟩ := by
  intro other
  have hfold : Text.sameName name other = Text.sameName name' other := by
    rw [Text.sameName, Text.sameName, Text.sameName_iff.mp h]
  simp only [Mentions, Grants, List.mem_singleton, exists_eq_left, hfold, implies_true, and_self]

theorem agree_split {bits : EntitlementSet} {parts : List EntitlementSet} (hne : parts ≠ [])
    (h : ∀ a, bits.allows a = true ↔ ∃ part ∈ parts, part.allows a = true) (name : String) :
    Agree ⟨[⟨name, bits⟩]⟩ ⟨parts.map (AclEntry.mk name)⟩ := by
  intro other
  obtain ⟨part, hpart⟩ := List.exists_mem_of_ne_nil parts hne
  simp only [Mentions, Grants, List.mem_singleton, exists_eq_left, List.mem_map, h,
    exists_exists_and_eq_and, exists_and_right]
  exact ⟨⟨fun hname => ⟨⟨part, hpart⟩, hname⟩, And.right⟩, fun a => by tauto⟩

theorem Reworded.agree {entries entries' : List AclEntry} (h : Reworded entries entries') :
    Agree ⟨entries⟩ ⟨entries'⟩ := by
  induction h with
  | permute hperm => exact agree_of_mem_iff fun e => hperm.mem_iff
  | respell before after hname => exact (agree_respell hname _).between before after
  | split before after hne hbits =>
      rw [List.append_assoc]
      exact (agree_split hne hbits _).between before after
  | merge before after hne hbits =>
      rw [List.append_assoc]
      exact (agree_split hne hbits _).symm.between before after
  | trans _ _ ih ih' => exact ih.trans ih'

theorem Grants.mono {entries entries' : List AclEntry} {name : String} {action : Entitlement}
    (h : Grants ⟨entries⟩ name action) (hsub : entries ⊆ entries') :
    Grants ⟨entries'⟩ name action := by
  obtain ⟨e, he, hentry⟩ := h
  exact ⟨e, hsub he, hentry⟩

end Acl

namespace Identity

/-- What a caller lacks who is no super admin, in the order in which it is looked for. -/
inductive Lacks (i : Identity) (entity : String) (action : Entitlement) : Reason → Prop
  | acl : i.acl = none → Lacks i entity action .missingEntitlementClaim
  | user (acl : Acl) : i.acl = some acl → i.user = none → Lacks i entity action .missingSubject
  | entity (acl : Acl) (user : UserId) : i.acl = some acl → i.user = some user →
      ¬ acl.Mentions entity → Lacks i entity action .unknownEntity
  | action (acl : Acl) (user : UserId) : i.acl = some acl → i.user = some user →
      acl.Mentions entity → ¬ acl.Grants entity action → Lacks i entity action .actionNotGranted

variable {i : Identity} {acl : Acl} {user : UserId} {entity : String} {action : Entitlement}
  {reason : Reason}

theorem evaluate_of_superAdmin (h : i.isSuperAdmin = true) :
    i.evaluate entity action = .allow .superAdmin := by
  rw [evaluate, if_pos h]

/-- A caller with a user and a list is judged by the actions that the list has for the entity. -/
theorem evaluate_of_lookup? {bits : EntitlementSet} (hadmin : i.isSuperAdmin = false)
    (hacl : i.acl = some acl) (huser : i.user = some user) (h : acl.lookup? entity = some bits) :
    i.evaluate entity action = if bits.allows action then .allow .granted else .deny .actionNotGranted := by
  simp [evaluate, hadmin, hacl, hasSubject, huser, h]

theorem evaluate_of_grants (hadmin : i.isSuperAdmin = false) (hacl : i.acl = some acl)
    (huser : i.user = some user) (h : acl.Grants entity action) :
    i.evaluate entity action = .allow .granted := by
  obtain ⟨bits, hlookup⟩ := Acl.exists_lookup?_of_mentions h.mentions
  rw [Acl.grants_iff_of_lookup? hlookup] at h
  rw [evaluate_of_lookup? hadmin hacl huser hlookup, if_pos h]

theorem evaluate_of_lacks (hadmin : i.isSuperAdmin = false) (h : i.Lacks entity action reason) :
    i.evaluate entity action = .deny reason := by
  cases h with
  | acl hacl => simp [evaluate, hadmin, hacl]
  | user acl hacl huser => simp [evaluate, hadmin, hacl, hasSubject, huser]
  | entity acl user hacl huser hunknown =>
      have hlookup := Acl.lookup?_eq_none_iff.mpr hunknown
      simp [evaluate, hadmin, hacl, hasSubject, huser, hlookup]
  | action acl user hacl huser hmentioned hrefused =>
      obtain ⟨bits, hlookup⟩ := Acl.exists_lookup?_of_mentions hmentioned
      rw [Acl.grants_iff_of_lookup? hlookup] at hrefused
      rw [evaluate_of_lookup? hadmin hacl huser hlookup, if_neg hrefused]

/-- A caller lacks nothing only with a user and a list that grants the action. -/
theorem exists_lacks_or_grants (i : Identity) (entity : String) (action : Entitlement) :
    (∃ reason, i.Lacks entity action reason) ∨
      ∃ acl user, i.acl = some acl ∧ i.user = some user ∧ acl.Grants entity action := by
  cases hacl : i.acl with
  | none => exact .inl ⟨_, .acl hacl⟩
  | some acl =>
      cases huser : i.user with
      | none => exact .inl ⟨_, .user acl hacl huser⟩
      | some user =>
          by_cases hmentioned : acl.Mentions entity
          · by_cases hgrants : acl.Grants entity action
            · exact .inr ⟨acl, user, rfl, rfl, hgrants⟩
            · exact .inl ⟨_, .action acl user hacl huser hmentioned hgrants⟩
          · exact .inl ⟨_, .entity acl user hacl huser hmentioned⟩

theorem evaluate_eq_deny_iff :
    i.evaluate entity action = .deny reason ↔
      i.isSuperAdmin = false ∧ i.Lacks entity action reason := by
  constructor
  · intro h
    cases hadmin : i.isSuperAdmin with
    | true =>
        rw [evaluate_of_superAdmin hadmin] at h
        cases h
    | false =>
        refine ⟨rfl, ?_⟩
        obtain ⟨found, hlacks⟩ | ⟨acl, user, hacl, huser, hgrants⟩ :=
          exists_lacks_or_grants i entity action
        · rw [evaluate_of_lacks hadmin hlacks] at h
          cases h
          exact hlacks
        · rw [evaluate_of_grants hadmin hacl huser hgrants] at h
          cases h
  · rintro ⟨hadmin, hlacks⟩
    exact evaluate_of_lacks hadmin hlacks

/-- The caller with another list. -/
def withAcl (i : Identity) (acl : Acl) : Identity := { i with acl := some acl }

/-- Lists that tell the same of every entity give the same decisions. -/
theorem evaluate_withAcl_of_agree {acl acl' : Acl} (h : acl.Agree acl') (i : Identity)
    (entity : String) (action : Entitlement) :
    (i.withAcl acl).evaluate entity action = (i.withAcl acl').evaluate entity action := by
  simp only [evaluate, withAcl, hasSubject, h.lookup?_eq entity]
  cases acl'.lookup? entity <;> rfl

theorem allowed_iff_grants :
    (i.evaluate entity action).allowed = true ↔
      i.isSuperAdmin = true ∨
        ∃ acl user, i.acl = some acl ∧ i.user = some user ∧ acl.Grants entity action := by
  rw [allowed_evaluate_iff]
  refine or_congr_right ?_
  rw [hasSubject, Option.isSome_iff_exists]
  constructor
  · rintro ⟨⟨user, huser⟩, acl, hacl, hallows⟩
    exact ⟨acl, user, hacl, huser, Acl.allows_iff.mp hallows⟩
  · rintro ⟨acl, user, hacl, huser, hgrants⟩
    exact ⟨⟨user, huser⟩, acl, hacl, Acl.allows_iff.mpr hgrants⟩

theorem allowed_withAcl_iff :
    ((i.withAcl acl).evaluate entity action).allowed = true ↔
      i.isSuperAdmin = true ∨ ∃ user, i.user = some user ∧ acl.Grants entity action := by
  simp only [allowed_iff_grants, withAcl, Option.some.injEq, exists_eq_left', exists_and_left]

/-- A super admin may do everything. Any other caller may do an action exactly with a list, a user and
an entry of the entity that has the action, and is refused for the first of these that is missing.
The decision does not change when the list is put in other words, and what is allowed stays allowed
when entries are added. -/
theorem evaluate_by_entries (i : Identity) (entity : String) (action : Entitlement) :
    ((i.evaluate entity action).allowed = true ↔
        i.isSuperAdmin = true ∨
          ∃ acl user, i.acl = some acl ∧ i.user = some user ∧
            ∃ e ∈ acl.entries, Text.sameName e.entityName entity = true ∧
              e.bits.allows action = true) ∧
      (∀ reason, i.evaluate entity action = .deny reason ↔
        i.isSuperAdmin = false ∧ i.Lacks entity action reason) ∧
      (∀ entries entries', Acl.Reworded entries entries' →
        (i.withAcl ⟨entries⟩).evaluate entity action =
          (i.withAcl ⟨entries'⟩).evaluate entity action) ∧
      ∀ entries entries', entries ⊆ entries' →
        ((i.withAcl ⟨entries⟩).evaluate entity action).allowed = true →
          ((i.withAcl ⟨entries'⟩).evaluate entity action).allowed = true := by
  refine ⟨allowed_iff_grants, fun reason => evaluate_eq_deny_iff, ?_, ?_⟩
  · intro entries entries' hreworded
    exact evaluate_withAcl_of_agree hreworded.agree i entity action
  · intro entries entries' hsub h
    rw [allowed_withAcl_iff] at h ⊢
    rcases h with hadmin | ⟨user, huser, hgrants⟩
    · exact .inl hadmin
    · exact .inr ⟨user, huser, hgrants.mono hsub⟩

/-- A caller with a user and without a list. -/
def curator : Identity := ⟨some ⟨.ofNat 5⟩, none, false, none⟩

/-- Two entries of one entity, behind an entry of another. -/
def curatorEntries : List AclEntry :=
  [⟨"Authors", .single .create⟩, ⟨"Books", .single .read⟩, ⟨"BOOKS", .single .delete⟩]

/-- The entries of books may be merged, and more entries take no right away. What no entry has is
refused for that, and everything is without a list. -/
theorem evaluate_by_entries_curator :
    Acl.Reworded curatorEntries [⟨"Authors", .single .create⟩, ⟨"Books", .ofBits 10⟩] ∧
      (curator.withAcl ⟨curatorEntries⟩).evaluate "books" .delete =
        (curator.withAcl ⟨[⟨"Authors", .single .create⟩, ⟨"Books", .ofBits 10⟩]⟩).evaluate "books"
          .delete ∧
      curatorEntries ⊆ ⟨"Shelves", .full⟩ :: curatorEntries ∧
      ((curator.withAcl ⟨curatorEntries⟩).evaluate "books" .delete).allowed = true ∧
      ((curator.withAcl ⟨⟨"Shelves", .full⟩ :: curatorEntries⟩).evaluate "books" .delete).allowed =
        true ∧
      (curator.withAcl ⟨curatorEntries⟩).evaluate "books" .update = .deny .actionNotGranted ∧
      curator.evaluate "books" .delete = .deny .missingEntitlementClaim := by
  have hspelled : Acl.Reworded curatorEntries
      [⟨"Authors", .single .create⟩, ⟨"Books", .single .read⟩, ⟨"Books", .single .delete⟩] :=
    .respell [_, _] [] (by decide)
  have hbits (a : Entitlement) : (EntitlementSet.ofBits 10).allows a = true ↔
      ∃ part ∈ [EntitlementSet.single .read, .single .delete], part.allows a = true := by
    cases a <;> decide
  have hmerged : Acl.Reworded
      [⟨"Authors", .single .create⟩, ⟨"Books", .single .read⟩, ⟨"Books", .single .delete⟩]
      [⟨"Authors", .single .create⟩, ⟨"Books", .ofBits 10⟩] :=
    .merge [_] [] (List.cons_ne_nil _ _) hbits
  have hmore : curatorEntries ⊆ ⟨"Shelves", .full⟩ :: curatorEntries := List.subset_cons_self _ _
  have hallowed : ((curator.withAcl ⟨curatorEntries⟩).evaluate "books" .delete).allowed = true := by
    decide
  obtain ⟨-, hdenied, hsame, hadded⟩ := evaluate_by_entries curator "books" .delete
  obtain ⟨-, hrefused, -, -⟩ :=
    evaluate_by_entries (curator.withAcl ⟨curatorEntries⟩) "books" .update
  refine ⟨hspelled.trans hmerged, hsame _ _ (hspelled.trans hmerged), hmore, hallowed,
    hadded _ _ hmore hallowed, (hrefused _).mpr ⟨rfl, ?_⟩, (hdenied _).mpr ⟨rfl, .acl rfl⟩⟩
  have hmentioned : Acl.Mentions ⟨curatorEntries⟩ "books" := by
    unfold Acl.Mentions
    decide
  have hungranted : ¬ Acl.Grants ⟨curatorEntries⟩ "books" .update := by
    unfold Acl.Grants
    decide
  exact .action _ _ rfl rfl hmentioned hungranted

end Identity

end RecordGate
