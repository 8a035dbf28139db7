import Mathlib.Data.List.Nodup
import RecordGate.Filter.Compile

/-!
# The shape of a compiled query

Compiling goes through the criteria once and keeps the predicate of those behind it. Here the same
is said as a relation between a list of criteria and a predicate, one rule for each way in which a
criterion is joined to those before it. What is true of every compiled query is proved by induction
on the relation. A name that was found leads to the same field again when it is looked up under the
name of that field, also where several fields share a name.
-/

namespace RecordGate.Schema

variable {ρ : Type} {schema : Schema ρ}

/-- The first field of a list with a name in any case is also the first with exactly its own name. -/
theorem find?_name_of_find?_sameName {fields : List (Field ρ)} {name : String} {f : Field ρ}
    (h : (fields.find? fun g => Text.sameName g.name name) = some f) :
    (fields.find? fun g => g.name == f.name) = some f := by
  induction fields with
  | nil => simp at h
  | cons g rest ih =>
      rw [List.find?_cons] at h ⊢
      cases hg : Text.sameName g.name name with
      | true =>
          simp only [hg, Option.some.injEq] at h
          simp [h]
      | false =>
          simp only [hg] at h
          have hf : Text.sameName f.name name = true :=
            List.find?_some (p := fun g : Field ρ => Text.sameName g.name name) h
          have hne : (g.name == f.name) = false := by
            rw [beq_eq_false_iff_ne]
            intro heq
            rw [heq, hf] at hg
            cases hg
          simp only [hne]
          exact ih h

theorem find?_name_of_field? {name : String} {f : Field ρ} (h : schema.field? name = some f) :
    (schema.fields.find? fun g => g.name == f.name) = some f := by
  rcases Option.or_eq_some_iff.mp h with h | ⟨_, h⟩
  · have hname : f.name = name :=
      beq_iff_eq.mp (List.find?_some (p := fun g : Field ρ => g.name == name) h)
    rwa [hname]
  · exact find?_name_of_find?_sameName h

theorem field?_name_of_field? {name : String} {f : Field ρ} (h : schema.field? name = some f) :
    schema.field? f.name = some f := by
  rw [field?, find?_name_of_field? h, Option.some_or]

/-- Among different names every field is found under its own. -/
theorem field?_name_of_mem (distinct : (schema.fields.map Field.name).Nodup) {f : Field ρ}
    (h : f ∈ schema.fields) : schema.field? f.name = some f := by
  have hfind : (schema.fields.find? fun g => g.name == f.name) = some f := by
    cases hg : schema.fields.find? fun g => g.name == f.name with
    | none => simpa using List.find?_eq_none.mp hg f h
    | some g =>
        have hname : g.name = f.name :=
          beq_iff_eq.mp (List.find?_some (p := fun g : Field ρ => g.name == f.name) hg)
        rw [List.inj_on_of_nodup_map distinct (List.mem_of_find?_eq_some hg) h hname]
  rw [field?, hfind, Option.some_or]

theorem compileCriterion_eq_ok_iff {c : FilterCriterion} {p : Predicate} :
    schema.compileCriterion c = .ok p ↔
      ∃ field value op, schema.field? c.property = some field ∧
        field.type.value? c.value = some value ∧ ComparisonOp.parse? c.operator = some op ∧
        p = .compare field.name op value := by
  unfold compileCriterion FieldType.parse ComparisonOp.parse
  cases hf : schema.field? c.property with
  | none => simp
  | some field =>
      cases hv : field.type.value? c.value with
      | none => simp [hv]
      | some value =>
          cases ho : ComparisonOp.parse? c.operator with
          | none => simp [hv]
          | some op => simp [hv, eq_comm]

/-- The predicates that the criteria of a list are joined to, the last criterion last. -/
inductive Folded (schema : Schema ρ) : List FilterCriterion → Predicate → Prop
  | first {c : FilterCriterion} {condition : Predicate} :
      schema.compileCriterion c = .ok condition → Folded schema [c] condition
  | alternative {before : List FilterCriterion} {b c : FilterCriterion}
      {running condition : Predicate} : Folded schema (before ++ [b]) running →
      schema.compileCriterion c = .ok condition → b.property = c.property →
      Folded schema (before ++ [b] ++ [c]) (.or running condition)
  | further {before : List FilterCriterion} {b c : FilterCriterion}
      {running condition : Predicate} : Folded schema (before ++ [b]) running →
      schema.compileCriterion c = .ok condition → b.property ≠ c.property →
      Folded schema (before ++ [b] ++ [c]) (.and running condition)

theorem folded_of_foldCriteria (before : List FilterCriterion) {rest : List FilterCriterion}
    {b : FilterCriterion} {running p : Predicate} (hb : Folded schema (before ++ [b]) running)
    (h : schema.foldCriteria running b.property rest = .ok p) :
    Folded schema (before ++ [b] ++ rest) p := by
  induction rest generalizing before b running with
  | nil =>
      simp only [foldCriteria, Except.ok.injEq] at h
      subst h
      simpa using hb
  | cons c rest ih =>
      simp only [foldCriteria, bind, Except.bind] at h
      cases hc : schema.compileCriterion c with
      | error e => simp [hc] at h
      | ok condition =>
          simp only [hc] at h
          rw [show before ++ [b] ++ c :: rest = before ++ [b] ++ [c] ++ rest by simp]
          by_cases hname : b.property = c.property
          · rw [if_pos (by simpa using hname)] at h
            exact ih _ (.alternative hb hc hname) h
          · rw [if_neg (by simpa using hname)] at h
            exact ih _ (.further hb hc hname) h

/-- What the criteria of a query are compiled to: nothing, or a predicate that the rules give. -/
theorem compileCriteria_eq_ok {criteria : List FilterCriterion} {folded : Option Predicate}
    (h : schema.compileCriteria criteria = .ok folded) :
    criteria = [] ∧ folded = none ∨ ∃ p, folded = some p ∧ Folded schema criteria p := by
  cases criteria with
  | nil =>
      simp only [compileCriteria, Except.ok.injEq] at h
      exact .inl ⟨rfl, h.symm⟩
  | cons c rest =>
      simp only [compileCriteria, bind, Except.bind] at h
      cases hc : schema.compileCriterion c with
      | error e => simp [hc] at h
      | ok condition =>
          simp only [hc] at h
          cases hr : schema.foldCriteria condition c.property rest with
          | error e => simp [hr] at h
          | ok p =>
              simp only [hr, pure, Except.pure, Except.ok.injEq] at h
              refine .inr ⟨p, h.symm, ?_⟩
              exact folded_of_foldCriteria [] (.first hc) hr

theorem compile_eq_ok_iff {criteria : List FilterCriterion} {term : String} {p : Predicate} :
    schema.compile criteria term = .ok p ↔
      ∃ folded, schema.compileCriteria criteria = .ok folded ∧
        p = joinSearch (schema.searchPredicate term) folded := by
  simp only [compile, bind, Except.bind, pure, Except.pure]
  cases schema.compileCriteria criteria with
  | error e => simp
  | ok folded => simp [eq_comm]

/-- A single criterion without a search is compiled to its condition. -/
theorem compile_singleton {c : FilterCriterion} {condition : Predicate}
    (h : schema.compileCriterion c = .ok condition) : schema.compile [c] "" = .ok condition := by
  have hcriteria : schema.compileCriteria [c] = .ok (some condition) := by
    simp only [compileCriteria, foldCriteria, h, bind, Except.bind, pure, Except.pure]
  exact compile_eq_ok_iff.mpr ⟨_, hcriteria, rfl⟩

/-- The predicate that asks for a term in one of some fields. -/
def anyContains (term : String) (field : Field ρ) (rest : List (Field ρ)) : Predicate :=
  rest.foldl (fun p f => .or p (.contains f.name term)) (.contains field.name term)

/-- There is nothing to search for, nowhere to search, or a predicate on all fields of text. -/
theorem searchPredicate_cases (schema : Schema ρ) (term : String) :
    schema.searchPredicate term = none ∧ (term = "" ∨ schema.textFields = []) ∨
      ∃ field rest, term ≠ "" ∧ schema.textFields = field :: rest ∧
        schema.searchPredicate term = some (anyContains term field rest) := by
  unfold searchPredicate
  by_cases hterm : term = ""
  · simp [hterm]
  · rw [if_neg (by simpa using hterm)]
    cases htext : schema.textFields with
    | nil => simp
    | cons field rest => exact .inr ⟨field, rest, hterm, rfl, rfl⟩

end RecordGate.Schema
