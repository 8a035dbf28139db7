import Mathlib.Data.List.Nodup
import RecordGate.Proofs.Text.Ascending
import RecordGate.Schema.Registry

/-!
# What a registry tells

Every description that ends is noted, those that are made while another schema is built before it.
Whichever descriptions have ended so far, a registry keeps one schema for each kind of record that
was described, and it tells the names and the summaries of just these kinds.
-/

namespace RecordGate

namespace Blueprint

def identity : Blueprint → Nat
  | .mk identity _ _ => identity

def parts : Blueprint → List Blueprint
  | .mk _ _ parts => parts

/-- The name of the kind of record. -/
def name (b : Blueprint) : String := b.summary.entityName

mutual

/-- The kinds of record that may be described along with one, and this one. -/
def mentioned : Blueprint → List Blueprint
  | .mk identity summary parts => .mk identity summary parts :: mentionedAll parts

def mentionedAll : List Blueprint → List Blueprint
  | [] => []
  | b :: rest => b.mentioned ++ mentionedAll rest

end

/-- No kind of record is described while its own schema is built. -/
def Acyclic (kinds : List Blueprint) : Prop :=
  ∀ b ∈ kinds, ∀ c ∈ mentionedAll b.parts, c.identity ≠ b.identity

/-- A kind of record has one name, and the names of two kinds differ in more than the case of
letters. -/
structure NamedApart (kinds : List Blueprint) : Prop where
  same : ∀ b ∈ kinds, ∀ c ∈ kinds, b.identity = c.identity → b.name = c.name
  apart : ∀ b ∈ kinds, ∀ c ∈ kinds, Text.lowercase b.name = Text.lowercase c.name →
    b.identity = c.identity

theorem Acyclic.of_subset {kinds part : List Blueprint} (h : Acyclic kinds) (hsub : part ⊆ kinds) :
    Acyclic part := fun b hb => h b (hsub hb)

end Blueprint

open Blueprint

/-- A description that has ended: the kind of record, and the schema that was given back. -/
structure Description where
  kind : Blueprint
  schema : SchemaSummary

namespace Registry

mutual

/-- The descriptions that end while a kind of record is described, in their order. The schema that
is kept is given back, and else the one that has just been built. -/
def described (r : Registry) : Blueprint → List Description
  | .mk identity summary parts =>
      match r.built? identity with
      | some kept => [⟨.mk identity summary parts, kept⟩]
      | none => describedAll r parts ++ [⟨.mk identity summary parts, summary⟩]

def describedAll (r : Registry) : List Blueprint → List Description
  | [] => []
  | b :: rest => described r b ++ describedAll (describe r b) rest

end

/-- What becomes of a registry when a description ends: nothing if the schema had been built, and
else the schema is recorded. -/
inductive Ends (r : Registry) : Description → Registry → Prop
  | kept {d : Description} : r.built? d.kind.identity = some d.schema → Ends r d r
  | built {b : Blueprint} : r.built? b.identity = none →
      Ends r ⟨b, b.summary⟩ (r.record b.identity b.summary)

/-- One description after the other ends. -/
inductive Runs : Registry → List Description → Registry → Prop
  | nil {r : Registry} : Runs r [] r
  | cons {r s t : Registry} {d : Description} {ds : List Description} :
      Ends r d s → Runs s ds t → Runs r (d :: ds) t

variable {r s t : Registry} {d : Description} {ds es : List Description} {b : Blueprint}
  {bs : List Blueprint} {identity : Nat}

theorem Runs.append (h : Runs r ds s) (k : Runs s es t) : Runs r (ds ++ es) t := by
  induction h with
  | nil => exact k
  | cons hends _ ih => exact .cons hends (ih k)

/-- A run can be stopped after any of its descriptions. -/
theorem Runs.split (h : Runs r (ds ++ es) t) : ∃ s, Runs r ds s ∧ Runs s es t := by
  induction ds generalizing r with
  | nil => exact ⟨r, .nil, h⟩
  | cons d ds ih =>
      cases h with
      | cons hends hrest =>
          obtain ⟨s, hfirst, hsecond⟩ := ih hrest
          exact ⟨s, .cons hends hfirst, hsecond⟩

theorem built?_record_of_ne {other : Nat} {s : SchemaSummary} (h : other ≠ identity) :
    (r.record other s).built? identity = r.built? identity := by
  simp [built?, record, h]

mutual

/-- Describing a kind of record builds no schema but of the kinds that it mentions. -/
theorem built?_describe (r : Registry) :
    (b : Blueprint) → (∀ c ∈ b.mentioned, c.identity ≠ identity) →
      (r.describe b).built? identity = r.built? identity
  | .mk self summary parts, h => by
      have hself : self ≠ identity := h (.mk self summary parts) (by simp [mentioned])
      have hparts : ∀ c ∈ mentionedAll parts, c.identity ≠ identity :=
        fun c hc => h c (by simp [mentioned, hc])
      unfold describe
      split
      · rfl
      · rw [built?_record_of_ne hself]
        exact built?_describeAll r parts hparts

theorem built?_describeAll (r : Registry) :
    (bs : List Blueprint) → (∀ c ∈ mentionedAll bs, c.identity ≠ identity) →
      (r.describeAll bs).built? identity = r.built? identity
  | [], _ => rfl
  | b :: rest, h => by
      rw [describeAll, built?_describeAll (r.describe b) rest fun c hc => h c (by
        simp [mentionedAll, hc])]
      exact built?_describe r b fun c hc => h c (by simp [mentionedAll, hc])

end

mutual

/-- What is done when a kind of record is described is done when descriptions end. -/
theorem runs_described (r : Registry) :
    (b : Blueprint) → Acyclic b.mentioned → Runs r (r.described b) (r.describe b)
  | .mk identity summary parts, h => by
      rw [mentioned] at h
      unfold described describe
      cases hbuilt : r.built? identity with
      | some kept => exact .cons (.kept hbuilt) .nil
      | none =>
          have hparts := runs_describedAll r parts (h.of_subset (List.subset_cons_self _ _))
          -- the parts have not built the schema meanwhile, since none of them is of this kind
          have hself : ∀ c ∈ mentionedAll parts, c.identity ≠ identity := h _ List.mem_cons_self
          have hfresh : (r.describeAll parts).built? identity = none := by
            rw [built?_describeAll r parts hself, hbuilt]
          exact hparts.append (.cons (.built (b := .mk identity summary parts) hfresh) .nil)

theorem runs_describedAll (r : Registry) :
    (bs : List Blueprint) → Acyclic (mentionedAll bs) →
      Runs r (r.describedAll bs) (r.describeAll bs)
  | [], _ => .nil
  | b :: rest, h =>
      (runs_described r b (h.of_subset (List.subset_append_left _ _))).append
        (runs_describedAll (r.describe b) rest (h.of_subset (List.subset_append_right _ _)))

end

mutual

theorem mem_described {r : Registry} :
    {b : Blueprint} → d ∈ r.described b → d.kind ∈ b.mentioned
  | .mk identity summary parts, h => by
      unfold described at h
      rw [mentioned, List.mem_cons]
      split at h
      · rw [List.mem_singleton.mp h]
        exact .inl rfl
      · rcases List.mem_append.mp h with h | h
        · exact .inr (mem_describedAll h)
        · rw [List.mem_singleton.mp h]
          exact .inl rfl

/-- Only what is mentioned is described. -/
theorem mem_describedAll {r : Registry} :
    {bs : List Blueprint} → d ∈ r.describedAll bs → d.kind ∈ mentionedAll bs
  | [], h => by cases h
  | b :: rest, h => by
      rw [describedAll, List.mem_append] at h
      rw [mentionedAll, List.mem_append]
      exact h.imp mem_described mem_describedAll

end

theorem exists_mem_described (r : Registry) (b : Blueprint) : ∃ d ∈ r.described b, d.kind = b := by
  obtain ⟨identity, summary, parts⟩ := b
  unfold described
  split
  · exact ⟨_, List.mem_singleton.mpr rfl, rfl⟩
  · exact ⟨_, List.mem_append_right _ (List.mem_singleton.mpr rfl), rfl⟩

theorem exists_mem_describedAll (r : Registry) (h : b ∈ bs) :
    ∃ d ∈ r.describedAll bs, d.kind = b := by
  induction bs generalizing r with
  | nil => cases h
  | cons c rest ih =>
      simp only [describedAll, List.mem_append]
      rcases List.mem_cons.mp h with rfl | h
      · obtain ⟨d, hd, hkind⟩ := exists_mem_described r b
        exact ⟨d, .inl hd, hkind⟩
      · obtain ⟨d, hd, hkind⟩ := ih (r.describe c) h
        exact ⟨d, .inr hd, hkind⟩

/-- A schema that is not built before a run, and of a kind that is not described in it, is not built
after it. -/
theorem Runs.built?_eq_none (h : Runs r ds s) (hnone : r.built? identity = none)
    (hother : ∀ d ∈ ds, d.kind.identity ≠ identity) : s.built? identity = none := by
  induction h with
  | nil => exact hnone
  | cons hends _ ih =>
      refine ih ?_ fun e he => hother e (by simp [he])
      cases hends with
      | kept _ => exact hnone
      | @built b _ =>
          have hother' : b.identity ≠ identity := hother ⟨b, b.summary⟩ (by simp)
          rwa [built?_record_of_ne hother']

theorem split_cases {α : Type} {xs ys before after : List α} {x : α}
    (h : xs ++ ys = before ++ x :: after) :
    (∃ rest, xs = before ++ x :: rest) ∨ ∃ mid, before = xs ++ mid ∧ ys = mid ++ x :: after := by
  obtain ⟨mid, hbefore, hys⟩ | ⟨rest, hxs, hafter⟩ := List.append_eq_append_iff.mp h
  · exact .inr ⟨mid, hbefore, hys⟩
  · cases rest with
    | nil => exact .inr ⟨[], by simp [hxs], by simpa using hafter.symm⟩
    | cons y rest =>
        obtain ⟨rfl, -⟩ := List.cons.inj hafter
        exact .inl ⟨rest, hxs⟩

theorem eq_of_singleton {α : Type} {before after : List α} {x y : α}
    (h : [y] = before ++ x :: after) : before = [] ∧ x = y := by
  cases before with
  | nil => exact ⟨rfl, (List.cons.inj h).1.symm⟩
  | cons z before => simp at h

/-- The schema of a kind is its own, and its parts have been described. -/
def BuiltAfter (before : List Description) (d : Description) : Prop :=
  d.schema = d.kind.summary ∧ ∀ p ∈ d.kind.parts, ∃ e ∈ before, e.kind = p

theorem BuiltAfter.append_left (h : BuiltAfter ds d) (es : List Description) :
    BuiltAfter (es ++ ds) d := by
  refine ⟨h.1, fun p hp => ?_⟩
  obtain ⟨e, he, hkind⟩ := h.2 p hp
  exact ⟨e, by simp [he], hkind⟩

mutual

theorem builtAfter_of_described (r : Registry) {before after : List Description} :
    (b : Blueprint) → Acyclic b.mentioned → r.described b = before ++ d :: after →
      r.built? d.kind.identity = none →
        (∀ e ∈ before, e.kind.identity ≠ d.kind.identity) → BuiltAfter before d
  | .mk identity summary parts, h, hsplit, hnone, hfirst => by
      rw [mentioned] at h
      unfold described at hsplit
      split at hsplit
      · rename_i kept hkept
        obtain ⟨-, rfl⟩ := eq_of_singleton hsplit
        cases hnone.symm.trans hkept
      · obtain ⟨_, hparts⟩ | ⟨mid, rfl, hlast⟩ := split_cases hsplit
        · exact builtAfter_of_describedAll r parts (h.of_subset (List.subset_cons_self _ _)) hparts
            hnone hfirst
        · obtain ⟨rfl, rfl⟩ := eq_of_singleton hlast
          refine ⟨rfl, fun p hp => ?_⟩
          rw [List.append_nil]
          exact exists_mem_describedAll r hp

/-- The first description of a kind of which no schema is built builds one, when the parts of the
kind have been described. -/
theorem builtAfter_of_describedAll (r : Registry) {before after : List Description} :
    (bs : List Blueprint) → Acyclic (mentionedAll bs) →
      r.describedAll bs = before ++ d :: after → r.built? d.kind.identity = none →
        (∀ e ∈ before, e.kind.identity ≠ d.kind.identity) → BuiltAfter before d
  | [], _, hsplit, _, _ => by simp [describedAll] at hsplit
  | b :: rest, h, hsplit, hnone, hfirst => by
      have hhead : Acyclic b.mentioned := h.of_subset (List.subset_append_left _ _)
      rw [describedAll] at hsplit
      obtain ⟨_, hb⟩ | ⟨mid, rfl, hrest⟩ := split_cases hsplit
      · exact builtAfter_of_described r b hhead hb hnone hfirst
      -- the description stands behind those of the first kind, none of which was of its own kind
      · have hstill : (r.describe b).built? d.kind.identity = none :=
          (runs_described r b hhead).built?_eq_none hnone fun e he => hfirst e (by simp [he])
        have hmid : BuiltAfter mid d :=
          builtAfter_of_describedAll (r.describe b) rest
            (h.of_subset (List.subset_append_right _ _)) hrest hstill
              fun e he => hfirst e (by simp [he])
        exact hmid.append_left _

end

theorem put_of_not_mem {key : String} {t : SchemaSummary} {l : List (String × SchemaSummary)}
    (h : ∀ e ∈ l, e.1 ≠ key) : put key t l = l ++ [(key, t)] := by
  induction l with
  | nil => rfl
  | cons e l ih =>
      have hfirst : e.1 ≠ key := h e (by simp)
      have hrest : put key t l = l ++ [(key, t)] := ih fun f hf => h f (by simp [hf])
      simp [put, hfirst, hrest]

/-- What is found in a list where each key stands once. -/
theorem find?_map_eq_some_iff {κ β : Type} [DecidableEq κ] {l : List (κ × β)} {k : κ} {v : β}
    (h : (l.map (·.1)).Nodup) :
    (l.find? fun e => e.1 == k).map (·.2) = some v ↔ (k, v) ∈ l := by
  induction l with
  | nil => simp
  | cons e l ih =>
      obtain ⟨key, value⟩ := e
      rw [List.map_cons, List.nodup_cons] at h
      by_cases heq : key = k
      · subst heq
        have hrest : (key, v) ∉ l := fun hv => h.1 (List.mem_map.mpr ⟨_, hv, rfl⟩)
        simp [hrest, eq_comm]
      · rw [List.find?_cons_of_neg (by simpa using heq), ih h.2]
        simp [Ne.symm heq]

/-- A registry keeps what was given back by the descriptions that ended, with one schema for each
kind of record, and lists the summaries of the schemas in the order in which they were built. -/
structure Keeps (r : Registry) (ds : List Description) : Prop where
  once : (r.built.map (·.1)).Nodup
  exact : ∀ identity t,
    (identity, t) ∈ r.built ↔ ∃ d ∈ ds, d.kind.identity = identity ∧ d.schema = t
  named : ∀ d ∈ ds, d.schema.entityName = d.kind.name
  listed : r.summaries = r.built.reverse.map fun e => (Text.lowercase e.2.entityName, e.2)

theorem keeps_empty : empty.Keeps [] := by
  refine ⟨.nil, fun identity t => ?_, fun d hd => ?_, rfl⟩
  · simp [empty]
  · cases hd

namespace Keeps

variable {t : SchemaSummary} {kinds : List Blueprint}

theorem built?_eq_some_iff (h : r.Keeps ds) :
    r.built? identity = some t ↔ ∃ d ∈ ds, d.kind.identity = identity ∧ d.schema = t := by
  rw [built?, find?_map_eq_some_iff h.once, h.exact]

theorem mem_summaries_iff (h : r.Keeps ds) {key : String} :
    (key, t) ∈ r.summaries ↔ ∃ d ∈ ds, Text.lowercase d.kind.name = key ∧ d.schema = t := by
  rw [h.listed, List.mem_map]
  constructor
  · rintro ⟨⟨identity, _⟩, he, heq⟩
    obtain ⟨d, hd, -, rfl⟩ := (h.exact _ _).mp (List.mem_reverse.mp he)
    obtain ⟨rfl, rfl⟩ := Prod.mk.inj heq
    exact ⟨d, hd, by rw [h.named d hd], rfl⟩
  · rintro ⟨d, hd, rfl, rfl⟩
    have hbuilt := (h.exact _ _).mpr ⟨d, hd, rfl, rfl⟩
    exact ⟨_, List.mem_reverse.mpr hbuilt, by rw [h.named d hd]⟩

/-- The summaries are listed under different keys. -/
theorem nodup_keys (h : r.Keeps ds) (named : NamedApart kinds) (hkinds : ∀ d ∈ ds, d.kind ∈ kinds) :
    (r.summaries.map (·.1)).Nodup := by
  have hkeys : r.summaries.map (·.1) =
      r.built.reverse.map fun e => Text.lowercase e.2.entityName := by
    rw [h.listed, List.map_map]
    rfl
  rw [hkeys]
  refine List.Nodup.map_on ?_ (List.nodup_reverse.mpr h.once.of_map)
  rintro ⟨i, t⟩ hi ⟨j, u⟩ hj heq
  rw [List.mem_reverse] at hi hj
  refine List.inj_on_of_nodup_map h.once hi hj ?_
  obtain ⟨c, hc, rfl, rfl⟩ := (h.exact _ _).mp hi
  obtain ⟨d, hd, rfl, rfl⟩ := (h.exact _ _).mp hj
  rw [h.named c hc, h.named d hd] at heq
  exact named.apart _ (hkinds c hc) _ (hkinds d hd) heq

/-- One more description of a kind whose schema is kept. -/
theorem snoc_kept (h : r.Keeps ds) (named : NamedApart kinds)
    (hkinds : ∀ e ∈ ds ++ [d], e.kind ∈ kinds) (hkept : r.built? d.kind.identity = some d.schema) :
    r.Keeps (ds ++ [d]) := by
  obtain ⟨e, he, hidentity, hschema⟩ := h.built?_eq_some_iff.mp hkept
  refine ⟨h.once, fun identity t => ?_, ?_, h.listed⟩
  · rw [h.exact]
    constructor
    · rintro ⟨f, hf, hft⟩
      exact ⟨f, by simp [hf], hft⟩
    · rintro ⟨f, hf, rfl, rfl⟩
      rcases List.mem_append.mp hf with hf | hf
      · exact ⟨f, hf, rfl, rfl⟩
      · obtain rfl := List.mem_singleton.mp hf
        exact ⟨e, he, hidentity, hschema⟩
  · rw [List.forall_mem_append, List.forall_mem_singleton]
    refine ⟨h.named, ?_⟩
    rw [← hschema, h.named e he]
    exact named.same _ (hkinds e (by simp [he])) _ (hkinds d (by simp)) hidentity

/-- A description that has built the schema of a kind. -/
theorem snoc_built (h : r.Keeps ds) (named : NamedApart kinds)
    (hkinds : ∀ e ∈ ds ++ [⟨b, b.summary⟩], e.kind ∈ kinds) (hnone : r.built? b.identity = none) :
    (r.record b.identity b.summary).Keeps (ds ++ [⟨b, b.summary⟩]) := by
  have hfresh : ∀ e ∈ ds, e.kind.identity ≠ b.identity := by
    intro e he hidentity
    have hsome := h.built?_eq_some_iff.mpr ⟨e, he, hidentity, rfl⟩
    cases hnone.symm.trans hsome
  -- no other kind has taken the key: its name would differ in the case of letters only
  have hkey : ∀ e ∈ r.summaries, e.1 ≠ Text.lowercase b.summary.entityName := by
    rintro ⟨_, t⟩ he rfl
    obtain ⟨e, he, hname, -⟩ := h.mem_summaries_iff.mp he
    exact hfresh e he (named.apart _ (hkinds e (by simp [he])) _ (hkinds ⟨b, b.summary⟩ (by simp))
      hname)
  refine ⟨?_, fun identity t => ?_, ?_, ?_⟩
  · refine List.nodup_cons.mpr ⟨fun hmem => ?_, h.once⟩
    obtain ⟨⟨_, t⟩, hf, rfl⟩ := List.mem_map.mp hmem
    obtain ⟨e, he, hidentity, -⟩ := (h.exact _ _).mp hf
    exact hfresh e he hidentity
  · simp [record, h.exact, or_and_right, exists_or, or_comm, eq_comm]
  · rw [List.forall_mem_append, List.forall_mem_singleton]
    exact ⟨h.named, rfl⟩
  · rw [record, put_of_not_mem hkey, h.listed]
    simp

/-- The end of one more description. -/
theorem snoc (h : r.Keeps ds) (named : NamedApart kinds) (hkinds : ∀ e ∈ ds ++ [d], e.kind ∈ kinds)
    (hends : Ends r d s) : s.Keeps (ds ++ [d]) := by
  cases hends with
  | kept hkept => exact h.snoc_kept named hkinds hkept
  | built hnone => exact h.snoc_built named hkinds hnone

/-- The ends of any number of descriptions. -/
theorem append (h : r.Keeps ds) (named : NamedApart kinds)
    (hkinds : ∀ d ∈ ds ++ es, d.kind ∈ kinds) (hruns : Runs r es s) : s.Keeps (ds ++ es) := by
  induction hruns generalizing ds with
  | nil => simpa using h
  | @cons r s t d es hends _ ih =>
      rw [List.append_cons] at hkinds ⊢
      have hfirst : ∀ e ∈ ds ++ [d], e.kind ∈ kinds :=
        fun e he => hkinds e (List.mem_append_left es he)
      exact ih (h.snoc named hfirst hends) hkinds

end Keeps

/-- What a registry tells when some descriptions have ended: it keeps one schema for each kind that
was described, the one that each of the descriptions gave back; its names are those of the kinds, in
ascending order; and a summary is found under each text that is the name of a kind but for the case
of letters. -/
structure Tells (r : Registry) (ds : List Description) : Prop where
  once : (r.built.map (·.1)).Nodup
  schema : ∀ identity t,
    r.built? identity = some t ↔ ∃ d ∈ ds, d.kind.identity = identity ∧ d.schema = t
  ascending : r.entityNames.Pairwise fun m n =>
    Text.orderBytes (Text.bytes m) (Text.bytes n) = .lt
  names : ∀ n, n ∈ r.entityNames ↔ ∃ d ∈ ds, d.kind.name = n
  summary : ∀ n t, r.summary? n = some t ↔
    ∃ d ∈ ds, Text.lowercase d.kind.name = Text.lowercase n ∧ d.schema = t

theorem Keeps.mem_names_iff (h : r.Keeps ds) {n : String} :
    n ∈ r.entityNames ↔ ∃ d ∈ ds, d.kind.name = n := by
  rw [entityNames, Text.mem_sorted, List.mem_map]
  constructor
  · rintro ⟨⟨key, t⟩, he, rfl⟩
    obtain ⟨d, hd, -, rfl⟩ := h.mem_summaries_iff.mp he
    exact ⟨d, hd, (h.named d hd).symm⟩
  · rintro ⟨d, hd, rfl⟩
    exact ⟨_, h.mem_summaries_iff.mpr ⟨d, hd, rfl, rfl⟩, h.named d hd⟩

theorem Keeps.tells {kinds : List Blueprint} (h : r.Keeps ds) (named : NamedApart kinds)
    (hkinds : ∀ d ∈ ds, d.kind ∈ kinds) : r.Tells ds := by
  have hkeys : (r.summaries.map (·.1)).Nodup := h.nodup_keys named hkinds
  have hlower : r.summaries.map (·.1) =
      (r.summaries.map fun e => e.2.entityName).map Text.lowercase := by
    rw [h.listed, List.map_map, List.map_map, List.map_map]
    rfl
  have hnames : (r.summaries.map fun e => e.2.entityName).Nodup := by
    rw [hlower] at hkeys
    exact hkeys.of_map
  refine ⟨h.once, fun identity t => h.built?_eq_some_iff, Text.pairwise_sorted hnames,
    fun n => h.mem_names_iff, fun n t => ?_⟩
  rw [summary?, find?_map_eq_some_iff hkeys, h.mem_summaries_iff]

/-- However some kinds of record are described, in any order and again and again, a registry that
was empty tells what has been described, when all descriptions have ended and at each moment before.
Each kind that is asked for is described, and only kinds that are mentioned; the first description
of a kind builds its schema when the parts of the kind have been described, and the others give back
this schema. -/
theorem tells_describeAll (calls : List Blueprint) (named : NamedApart (mentionedAll calls))
    (acyclic : Acyclic (mentionedAll calls)) :
    (empty.describeAll calls).Tells (empty.describedAll calls) ∧
      (∀ sofar rest, empty.describedAll calls = sofar ++ rest →
        ∃ r, Runs empty sofar r ∧ Runs r rest (empty.describeAll calls) ∧ r.Tells sofar) ∧
      (∀ b ∈ calls, ∃ d ∈ empty.describedAll calls, d.kind = b) ∧
      (∀ d ∈ empty.describedAll calls, d.kind ∈ mentionedAll calls ∧
        d.schema.entityName = d.kind.name) ∧
      ∀ before d after, empty.describedAll calls = before ++ d :: after →
        (∀ e ∈ before, e.kind.identity ≠ d.kind.identity) → BuiltAfter before d := by
  have hkinds : ∀ d ∈ empty.describedAll calls, d.kind ∈ mentionedAll calls :=
    fun d hd => mem_describedAll hd
  have hruns := runs_describedAll empty calls acyclic
  have hkeeps : (empty.describeAll calls).Keeps (empty.describedAll calls) :=
    keeps_empty.append named hkinds hruns
  refine ⟨hkeeps.tells named hkinds, fun sofar rest hsplit => ?_,
    fun b hb => exists_mem_describedAll empty hb, fun d hd => ⟨hkinds d hd, hkeeps.named d hd⟩,
    fun before d after hsplit => builtAfter_of_describedAll empty calls acyclic hsplit rfl⟩
  -- each moment on the way is the end of a run of the descriptions so far
  rw [hsplit] at hruns hkinds
  have hsofar : ∀ d ∈ sofar, d.kind ∈ mentionedAll calls :=
    fun d hd => hkinds d (List.mem_append_left rest hd)
  obtain ⟨r, hfirst, hsecond⟩ := hruns.split
  exact ⟨r, hfirst, hsecond, (keeps_empty.append named hsofar hfirst).tells named hsofar⟩

/-- Books, and loans, of which the schema is built with that of books. -/
def books : Blueprint := .mk 0 ⟨"Books", [⟨"Title", .text, true⟩]⟩ []

def loans : Blueprint := .mk 1 ⟨"Loans", [⟨"Book", .uuid, false⟩]⟩ [books]

/-- Whoever describes loans has described books as well. -/
theorem tells_describeAll_loans :
    (∀ n, n ∈ (empty.describeAll [loans, loans]).entityNames ↔ n = "Books" ∨ n = "Loans") ∧
      (empty.describeAll [loans, loans]).summary? "bOOKS" = some books.summary ∧
      (empty.describeAll [loans, loans]).summary? "authors" = none := by
  have named : NamedApart (mentionedAll [loans, loans]) := ⟨by decide, by decide⟩
  have acyclic : Acyclic (mentionedAll [loans, loans]) := by
    unfold Acyclic
    decide
  have hdescribed : empty.describedAll [loans, loans] =
      [⟨books, books.summary⟩, ⟨loans, loans.summary⟩, ⟨loans, loans.summary⟩] := rfl
  obtain ⟨tells, -⟩ := tells_describeAll [loans, loans] named acyclic
  rw [hdescribed] at tells
  refine ⟨fun n => ?_, ?_, ?_⟩
  · rw [tells.names]
    simp [books, loans, name, Blueprint.summary, eq_comm]
  · rw [tells.summary]
    exact ⟨_, List.mem_cons_self, by decide, rfl⟩
  · refine Option.eq_none_iff_forall_ne_some.mpr fun t h => ?_
    obtain ⟨d, hd, hname, -⟩ := (tells.summary _ t).mp h
    revert d
    decide

end Registry

end RecordGate
