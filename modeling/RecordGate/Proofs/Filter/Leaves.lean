import Mathlib.Data.List.Forall2
import RecordGate.Entity.Author
import RecordGate.Proofs.Filter.Faults

/-!
# The leaves of a compiled query

A compiled query has one leaf for each field that is searched and one for each criterion, in order.
A leaf names the field that was found for it by its declared name, and under this name the same field
is found again, also where names differ in case only. So a predicate is never evaluated on a field
that is missing. The condition that always holds is left for a query that asks nothing.
-/

namespace RecordGate

variable {ρ : Type} {schema : Schema ρ}

namespace Predicate

/-- A predicate occurs in another one, which may be itself. -/
inductive OccursIn (part : Predicate) : Predicate → Prop
  | self : OccursIn part part
  | andLeft {left right : Predicate} : OccursIn part left → OccursIn part (.and left right)
  | andRight {left right : Predicate} : OccursIn part right → OccursIn part (.and left right)
  | orLeft {left right : Predicate} : OccursIn part left → OccursIn part (.or left right)
  | orRight {left right : Predicate} : OccursIn part right → OccursIn part (.or left right)

/-- Evaluates a predicate whose leaves are all on fields that a schema has, and gives nothing for any
other. -/
def evaluate? (schema : Schema ρ) (record : ρ) : Predicate → Option Bool
  | .matchAll => some true
  | .compare field op value => (schema.read? record field).map fun v => op.accepts (v.compare value)
  | .contains field term =>
      (schema.read? record field).map fun v =>
        match v.asText? with
        | some s => Text.contains s term
        | none => false
  | .and left right =>
      match left.evaluate? schema record, right.evaluate? schema record with
      | some a, some b => some (a && b)
      | _, _ => none
  | .or left right =>
      match left.evaluate? schema record, right.evaluate? schema record with
      | some a, some b => some (a || b)
      | _, _ => none

theorem evaluate?_eq_holds {record : ρ} {p : Predicate}
    (h : ∀ leaf ∈ p.leaves, leaf.evaluate? schema record = some (leaf.holds schema record)) :
    p.evaluate? schema record = some (p.holds schema record) := by
  induction p with
  | matchAll => rfl
  | compare field op value => exact h _ (List.mem_singleton_self _)
  | contains field term => exact h _ (List.mem_singleton_self _)
  | and left right ihl ihr =>
      simp only [leaves, List.forall_mem_append] at h
      rw [evaluate?, ihl h.1, ihr h.2, holds]
  | or left right ihl ihr =>
      simp only [leaves, List.forall_mem_append] at h
      rw [evaluate?, ihl h.1, ihr h.2, holds]

theorem leaves_ne_nil {p : Predicate} (h : ¬ OccursIn .matchAll p) : p.leaves ≠ [] := by
  induction p with
  | matchAll => exact absurd .self h
  | compare field op value => simp [leaves]
  | contains field term => simp [leaves]
  | and left right ihl _ => exact List.append_ne_nil_of_left_ne_nil (ihl fun hl => h (.andLeft hl)) _
  | or left right ihl _ => exact List.append_ne_nil_of_left_ne_nil (ihl fun hl => h (.orLeft hl)) _

end Predicate

namespace Schema

open Predicate (OccursIn)

theorem resolves_name_of_resolves {name : String} {field : Field ρ}
    (h : schema.Resolves name field) : schema.Resolves field.name field :=
  resolves_iff.mpr (field?_name_of_field? (resolves_iff.mp h))

/-- A leaf asks what a criterion asks: it compares the field that the property stands for with the
value as one of the type of the field. Under the name in the leaf the same field is found. -/
def Asks (schema : Schema ρ) (c : FilterCriterion) (leaf : Predicate) : Prop :=
  ∃ field op value, schema.Resolves c.property field ∧ schema.Resolves field.name field ∧
    ComparisonOp.parse? c.operator = some op ∧ field.type.value? c.value = some value ∧
    value ≠ .null ∧ value.type? = some field.type ∧ leaf = .compare field.name op value

theorem asks_of_compileCriterion {c : FilterCriterion} {p : Predicate}
    (h : schema.compileCriterion c = .ok p) : schema.Asks c p := by
  obtain ⟨field, value, op, hf, hv, ho, rfl⟩ := compileCriterion_eq_ok_iff.mp h
  have hresolved := resolves_iff.mpr hf
  have htype := FieldType.type?_of_value? hv
  have hnull : value ≠ .null := by
    intro hvalue
    rw [hvalue] at htype
    cases htype
  exact ⟨field, op, value, hresolved, resolves_name_of_resolves hresolved, ho, hv, hnull, htype, rfl⟩

theorem Asks.leaves_eq {c : FilterCriterion} {p : Predicate} (h : schema.Asks c p) :
    p.leaves = [p] := by
  obtain ⟨field, op, value, -, -, -, -, -, -, rfl⟩ := h
  rfl

theorem Asks.not_occursIn {c : FilterCriterion} {p : Predicate} (h : schema.Asks c p) :
    ¬ OccursIn .matchAll p := by
  obtain ⟨field, op, value, -, -, -, -, -, -, rfl⟩ := h
  intro hmatch
  cases hmatch

theorem Asks.evaluate?_eq {c : FilterCriterion} {p : Predicate} (h : schema.Asks c p) (record : ρ) :
    p.evaluate? schema record = some (p.holds schema record) := by
  obtain ⟨field, op, value, -, hname, -, -, -, -, rfl⟩ := h
  simp [Predicate.evaluate?, Predicate.holds, Predicate.holdsCompare, read?, resolves_iff.mp hname]

theorem exists_asks_of_mem {criteria : List FilterCriterion} {leaves : List Predicate}
    (h : List.Forall₂ schema.Asks criteria leaves) {leaf : Predicate} (hleaf : leaf ∈ leaves) :
    ∃ c ∈ criteria, schema.Asks c leaf := by
  induction h with
  | nil => cases hleaf
  | cons hc _ ih =>
      rcases List.mem_cons.mp hleaf with rfl | hrest
      · exact ⟨_, List.mem_cons_self, hc⟩
      · obtain ⟨c, hmem, hasks⟩ := ih hrest
        exact ⟨c, List.mem_cons_of_mem _ hmem, hasks⟩

theorem Folded.asks {criteria : List FilterCriterion} {p : Predicate} (h : Folded schema criteria p) :
    List.Forall₂ schema.Asks criteria p.leaves := by
  induction h with
  | first hc =>
      have hasks := asks_of_compileCriterion hc
      rw [hasks.leaves_eq]
      exact .cons hasks .nil
  | alternative _ hc _ ih =>
      have hasks := asks_of_compileCriterion hc
      rw [Predicate.leaves, hasks.leaves_eq]
      exact List.rel_append ih (.cons hasks .nil)
  | further _ hc _ ih =>
      have hasks := asks_of_compileCriterion hc
      rw [Predicate.leaves, hasks.leaves_eq]
      exact List.rel_append ih (.cons hasks .nil)

theorem Folded.not_occursIn {criteria : List FilterCriterion} {p : Predicate}
    (h : Folded schema criteria p) : ¬ OccursIn .matchAll p := by
  induction h with
  | first hc => exact (asks_of_compileCriterion hc).not_occursIn
  | alternative _ hc _ ih =>
      rintro (_ | _ | _ | hl | hr)
      · exact ih hl
      · exact (asks_of_compileCriterion hc).not_occursIn hr
  | further _ hc _ ih =>
      rintro (_ | hl | hr | _ | _)
      · exact ih hl
      · exact (asks_of_compileCriterion hc).not_occursIn hr

/-- The leaves of a search: one for each field of text, unless there is nothing to search for. -/
def searchLeaves (schema : Schema ρ) (term : String) : List Predicate :=
  if term = "" then [] else schema.textFields.map fun f => .contains f.name term

theorem leaves_foldl_or (rest : List (Field ρ)) (start : Predicate) (term : String) :
    (rest.foldl (fun p f => .or p (.contains f.name term)) start).leaves =
      start.leaves ++ rest.map fun f => .contains f.name term := by
  induction rest generalizing start with
  | nil => simp
  | cons f rest ih => simp [ih, Predicate.leaves]

theorem not_occursIn_foldl_or (rest : List (Field ρ)) {start : Predicate} (term : String)
    (h : ¬ OccursIn .matchAll start) :
    ¬ OccursIn .matchAll (rest.foldl (fun p f => .or p (.contains f.name term)) start) := by
  induction rest generalizing start with
  | nil => exact h
  | cons f rest ih =>
      refine ih ?_
      rintro (_ | _ | _ | hl | hr)
      · exact h hl
      · cases hr

theorem leaves_searchPredicate (schema : Schema ρ) (term : String) :
    (schema.searchPredicate term).elim [] Predicate.leaves = schema.searchLeaves term := by
  obtain ⟨hnone, hterm | htext⟩ | ⟨field, rest, hterm, htext, hsome⟩ :=
    searchPredicate_cases schema term
  · rw [hnone, searchLeaves, if_pos hterm]
    rfl
  · simp [hnone, searchLeaves, htext]
  · rw [hsome, searchLeaves, if_neg hterm, htext, Option.elim_some, anyContains, leaves_foldl_or]
    rfl

theorem not_occursIn_searchPredicate {term : String} {p : Predicate}
    (h : schema.searchPredicate term = some p) : ¬ OccursIn .matchAll p := by
  obtain ⟨hnone, -⟩ | ⟨field, rest, -, -, hsome⟩ := searchPredicate_cases schema term
  · rw [hnone] at h
    cases h
  · obtain rfl := Option.some.inj (hsome.symm.trans h)
    refine not_occursIn_foldl_or rest term ?_
    intro hmatch
    cases hmatch

theorem resolves_name_of_mem (distinct : (schema.fields.map Field.name).Nodup) {field : Field ρ}
    (h : field ∈ schema.fields) : schema.Resolves field.name field :=
  resolves_iff.mpr (field?_name_of_mem distinct h)

theorem evaluate?_searchLeaves (distinct : (schema.fields.map Field.name).Nodup) {term : String}
    {leaf : Predicate} (h : leaf ∈ schema.searchLeaves term) (record : ρ) :
    leaf.evaluate? schema record = some (leaf.holds schema record) := by
  unfold searchLeaves at h
  split at h
  · cases h
  · obtain ⟨field, hfield, rfl⟩ := List.mem_map.mp h
    have hname := field?_name_of_mem distinct (List.mem_of_mem_filter hfield)
    cases htext : (field.read record).asText? <;>
      simp only [Predicate.evaluate?, Predicate.holds, Predicate.holdsContains, read?, hname, htext,
        Option.map_some, Option.bind_some]

theorem leaves_joinSearch (search folded : Option Predicate) :
    (joinSearch search folded).leaves =
      search.elim [] Predicate.leaves ++ folded.elim [] Predicate.leaves := by
  cases search <;> cases folded <;> simp [joinSearch, Predicate.leaves]

/-- The condition that always holds stands for nothing to search for and no criteria. -/
theorem occursIn_joinSearch_iff {search folded : Option Predicate}
    (hsearch : ∀ p, search = some p → ¬ OccursIn .matchAll p)
    (hfolded : ∀ p, folded = some p → ¬ OccursIn .matchAll p) :
    OccursIn .matchAll (joinSearch search folded) ↔ joinSearch search folded = .matchAll := by
  refine ⟨?_, fun h => h ▸ .self⟩
  intro h
  cases search with
  | none =>
      cases folded with
      | none => rfl
      | some q => exact absurd h (hfolded q rfl)
  | some p =>
      cases folded with
      | none => exact absurd h (hsearch p rfl)
      | some q =>
          rcases h with _ | hl | hr
          · exact absurd hl (hsearch p rfl)
          · exact absurd hr (hfolded q rfl)

/-- The leaves of a compiled query are one for each field of text, when there is a term, and behind
them one for each criterion, in order. What a leaf is on is found under its name, so that the
predicate can be evaluated on every record without a field missing. It is the condition that always
holds exactly when it has no leaves, and has this condition in no other place. -/
theorem leaves_compile {criteria : List FilterCriterion} {term : String} {p : Predicate}
    (distinct : (schema.fields.map Field.name).Nodup)
    (compiled : schema.compile criteria term = .ok p) :
    (∃ conditions, p.leaves = schema.searchLeaves term ++ conditions ∧
        List.Forall₂ schema.Asks criteria conditions) ∧
      (∀ field ∈ schema.textFields, schema.Resolves field.name field) ∧
      (∀ record, p.evaluate? schema record = some (p.holds schema record)) ∧
      (p = .matchAll ↔ p.leaves = []) ∧ (OccursIn .matchAll p ↔ p = .matchAll) := by
  obtain ⟨folded, hfolded, hp⟩ := compile_eq_ok_iff.mp compiled
  have hasks : List.Forall₂ schema.Asks criteria (folded.elim [] Predicate.leaves) := by
    rcases compileCriteria_eq_ok hfolded with ⟨rfl, rfl⟩ | ⟨q, rfl, hq⟩
    · exact .nil
    · exact hq.asks
  have hmatch : OccursIn .matchAll p ↔ p = .matchAll := by
    rw [hp]
    refine occursIn_joinSearch_iff (fun q hq => not_occursIn_searchPredicate hq) fun q hq => ?_
    rcases compileCriteria_eq_ok hfolded with ⟨-, hnone⟩ | ⟨q', hq', hf⟩
    · cases hq.symm.trans hnone
    · cases hq.symm.trans hq'
      exact hf.not_occursIn
  have hleaves : p.leaves = schema.searchLeaves term ++ folded.elim [] Predicate.leaves := by
    rw [hp, leaves_joinSearch, leaves_searchPredicate]
  refine ⟨⟨_, hleaves, hasks⟩, ?_, ?_, ?_, hmatch⟩
  · exact fun field hfield => resolves_name_of_mem distinct (List.mem_of_mem_filter hfield)
  · intro record
    refine Predicate.evaluate?_eq_holds fun leaf hleaf => ?_
    rw [hleaves, List.mem_append] at hleaf
    rcases hleaf with hsearch | hcondition
    · exact evaluate?_searchLeaves distinct hsearch record
    · obtain ⟨c, -, hc⟩ := exists_asks_of_mem hasks hcondition
      exact hc.evaluate?_eq record
  · constructor
    · intro h
      rw [h]
      rfl
    · intro h
      by_contra hne
      exact Predicate.leaves_ne_nil (fun hoccurs => hne (hmatch.mp hoccurs)) h

/-- Three fields of names that differ in case only. -/
def aliases : Schema Author :=
  ⟨"Aliases",
    [ ⟨"alias", .text, fun a => Value.ofOption .text a.name⟩,
      ⟨"Alias", .text, fun a => Value.ofOption .text a.biography⟩,
      ⟨"ALIAS", .boolean, fun a => .boolean a.isActive⟩ ]⟩

/-- A name in a spelling that no field has stands for the first field; each of the others stands for
the field of exactly that name, which is read there again. -/
theorem leaves_compile_aliases :
    (aliases.fields.map Field.name).Nodup ∧
      ∃ p, aliases.compile
          [⟨"Alias", "=", "Pen"⟩, ⟨"aLIAS", "!=", "Oak"⟩, ⟨"ALIAS", "=", " TRUE "⟩] "n" = .ok p ∧
        p.leaves =
          [.contains "alias" "n", .contains "Alias" "n", .compare "Alias" .equals (.text "Pen"),
            .compare "alias" .notEquals (.text "Oak"), .compare "ALIAS" .equals (.boolean true)] ∧
        p.evaluate? aliases { id := .nil, name := some "Fen", biography := some "Pen" } = some true ∧
        ¬ OccursIn .matchAll p := by
  have distinct : (aliases.fields.map Field.name).Nodup := by decide
  have compiled : aliases.compile
      [⟨"Alias", "=", "Pen"⟩, ⟨"aLIAS", "!=", "Oak"⟩, ⟨"ALIAS", "=", " TRUE "⟩] "n" = .ok
        (.and (.or (.contains "alias" "n") (.contains "Alias" "n"))
          (.and
            (.and (.compare "Alias" .equals (.text "Pen")) (.compare "alias" .notEquals (.text "Oak")))
            (.compare "ALIAS" .equals (.boolean true)))) := rfl
  obtain ⟨-, -, hevaluate, -, hmatch⟩ := leaves_compile distinct compiled
  refine ⟨distinct, _, compiled, rfl, (hevaluate _).trans (congrArg some ?_), ?_⟩
  · rfl
  · rw [hmatch]
    exact nofun

end Schema

end RecordGate
