import RecordGate.Entity.Book
import RecordGate.Proofs.Filter.Fold

/-!
# Which queries are refused

A criterion is refused for a property that names no field, for a value that is none of the type of
the field, or for an operator that does not exist, in this order. The first criterion of a query that
is refused decides its error; what stands behind it, and what is searched for, has no part in that.
-/

namespace RecordGate.Schema

variable {ρ : Type} {schema : Schema ρ}

/-- A name stands for a field: the first of exactly that name or, where there is none, the first of
that name in any case. -/
def Resolves (schema : Schema ρ) (name : String) (field : Field ρ) : Prop :=
  ∃ before after, schema.fields = before ++ field :: after ∧
    ((field.name = name ∧ ∀ f ∈ before, f.name ≠ name) ∨
      (Text.sameName field.name name = true ∧ (∀ f ∈ before, Text.sameName f.name name = false) ∧
        ∀ f ∈ schema.fields, f.name ≠ name))

theorem resolves_iff {name : String} {field : Field ρ} :
    schema.Resolves name field ↔ schema.field? name = some field := by
  simp only [field?, Option.or_eq_some_iff, List.find?_eq_some_iff_append, List.find?_eq_none,
    Resolves, beq_iff_eq, Bool.not_eq_true', beq_eq_false_iff_ne]
  constructor
  · intro h
    rcases h with ⟨before, after, hfields, ⟨hname, hfirst⟩ | ⟨hname, hfirst, hnone⟩⟩
    · exact .inl ⟨hname, before, after, hfields, hfirst⟩
    · exact .inr ⟨hnone, hname, before, after, hfields, hfirst⟩
  · intro h
    rcases h with ⟨hname, before, after, hfields, hfirst⟩ |
      ⟨hnone, hname, before, after, hfields, hfirst⟩
    · exact ⟨before, after, hfields, .inl ⟨hname, hfirst⟩⟩
    · exact ⟨before, after, hfields, .inr ⟨hname, hfirst, hnone⟩⟩

theorem field?_eq_none_iff {name : String} :
    schema.field? name = none ↔ ∀ f ∈ schema.fields, Text.sameName f.name name = false := by
  simp only [field?, Option.or_eq_none_iff, List.find?_eq_none, beq_iff_eq, Bool.not_eq_true]
  refine and_iff_right_of_imp fun h f hf heq => ?_
  -- an exact name would be a name in any case as well
  have hsame := h f hf
  rw [heq, Text.sameName_refl] at hsame
  cases hsame

/-- A single criterion that can be asked is compiled to a comparison with its value. -/
theorem compile_comparison {property operator raw : String} {field : Field ρ} {value : Value}
    {op : ComparisonOp} (hfield : schema.Resolves property field)
    (hvalue : field.type.value? raw = some value) (hop : ComparisonOp.parse? operator = some op) :
    schema.compile [⟨property, operator, raw⟩] "" = .ok (.compare field.name op value) :=
  compile_singleton <| compileCriterion_eq_ok_iff.mpr
    ⟨field, value, op, resolves_iff.mp hfield, hvalue, hop, rfl⟩

/-- A criterion can be asked: its property names a field, its value is one of the type of the field,
and its operator exists. -/
def Understands (schema : Schema ρ) (c : FilterCriterion) : Prop :=
  ∃ field value op, schema.Resolves c.property field ∧ field.type.value? c.value = some value ∧
    ComparisonOp.parse? c.operator = some op

/-- The error that a criterion is refused with. An operator is looked at last, and a value only where
there is a field. -/
inductive Fault (schema : Schema ρ) (c : FilterCriterion) : FilterError → Prop
  | property (unknown : ∀ f ∈ schema.fields, Text.sameName f.name c.property = false) :
      Fault schema c (.unknownProperty schema.name c.property)
  | value {field : Field ρ} (resolved : schema.Resolves c.property field)
      (unreadable : field.type.value? c.value = none) :
      Fault schema c (.conversion field.name field.type c.value)
  | operator {field : Field ρ} {value : Value} (resolved : schema.Resolves c.property field)
      (read : field.type.value? c.value = some value)
      (unknown : ComparisonOp.parse? c.operator = none) :
      Fault schema c (.unsupportedOperator c.operator)

theorem understands_iff {c : FilterCriterion} :
    schema.Understands c ↔ ∃ p, schema.compileCriterion c = .ok p := by
  simp only [Understands, compileCriterion_eq_ok_iff, resolves_iff]
  constructor
  · intro h
    obtain ⟨field, value, op, hf, hv, ho⟩ := h
    exact ⟨_, field, value, op, hf, hv, ho, rfl⟩
  · intro h
    obtain ⟨-, field, value, op, hf, hv, ho, -⟩ := h
    exact ⟨field, value, op, hf, hv, ho⟩

theorem compileCriterion_eq_error_iff {c : FilterCriterion} {e : FilterError} :
    schema.compileCriterion c = .error e ↔ schema.Fault c e := by
  unfold compileCriterion FieldType.parse ComparisonOp.parse
  constructor
  · intro h
    cases hf : schema.field? c.property with
    | none =>
        simp only [hf, Except.error.injEq] at h
        subst h
        exact .property (field?_eq_none_iff.mp hf)
    | some field =>
        have hresolved := resolves_iff.mpr hf
        cases hv : field.type.value? c.value with
        | none =>
            simp only [hf, hv, Except.error.injEq] at h
            subst h
            exact .value hresolved hv
        | some value =>
            cases ho : ComparisonOp.parse? c.operator with
            | none =>
                simp only [hf, hv, ho, Except.error.injEq] at h
                subst h
                exact .operator hresolved hv ho
            | some op => simp [hf, hv, ho] at h
  · intro h
    cases h with
    | property unknown => simp [field?_eq_none_iff.mpr unknown]
    | value resolved unreadable => simp [resolves_iff.mp resolved, unreadable]
    | operator resolved read unknown => simp [resolves_iff.mp resolved, read, unknown]

/-- The first criterion of a list that is refused is refused with an error. -/
def FirstFault (schema : Schema ρ) (criteria : List FilterCriterion) (e : FilterError) : Prop :=
  ∃ before c after, criteria = before ++ c :: after ∧ (∀ b ∈ before, schema.Understands b) ∧
    schema.Fault c e

theorem not_firstFault_nil {e : FilterError} : ¬ schema.FirstFault [] e := by
  rintro ⟨before, c, after, hnil, -⟩
  cases before <;> cases hnil

theorem firstFault_cons {c : FilterCriterion} {rest : List FilterCriterion} {e : FilterError} :
    schema.FirstFault (c :: rest) e ↔
      schema.Fault c e ∨ (schema.Understands c ∧ schema.FirstFault rest e) := by
  constructor
  · intro h
    obtain ⟨before, d, after, hsplit, hbefore, hd⟩ := h
    cases before with
    | nil =>
        cases hsplit
        exact .inl hd
    | cons b before =>
        cases hsplit
        exact .inr ⟨hbefore _ List.mem_cons_self, before, d, after, rfl,
          fun b hb => hbefore b (List.mem_cons_of_mem _ hb), hd⟩
  · intro h
    rcases h with hc | ⟨hc, before, d, after, rfl, hbefore, hd⟩
    · exact ⟨[], c, rest, rfl, by simp, hc⟩
    · exact ⟨c :: before, d, after, rfl, List.forall_mem_cons.mpr ⟨hc, hbefore⟩, hd⟩

/-- One step through a list of criteria: an error is that of the first criterion, or that of the rest
behind a criterion that is understood. -/
theorem bind_eq_error_iff {α : Type} {c : FilterCriterion} {rest : List FilterCriterion}
    {next : Predicate → Except FilterError α} {e : FilterError}
    (hnext : ∀ p, next p = .error e ↔ schema.FirstFault rest e) :
    (schema.compileCriterion c >>= next) = .error e ↔ schema.FirstFault (c :: rest) e := by
  rw [firstFault_cons, ← compileCriterion_eq_error_iff, understands_iff]
  cases hc : schema.compileCriterion c with
  | error f => simp [bind, Except.bind]
  | ok p => simp [bind, Except.bind, hnext]

theorem foldCriteria_eq_error_iff (running : Predicate) (previous : String)
    {criteria : List FilterCriterion} {e : FilterError} :
    schema.foldCriteria running previous criteria = .error e ↔ schema.FirstFault criteria e := by
  induction criteria generalizing running previous with
  | nil => simp [foldCriteria, not_firstFault_nil]
  | cons c rest ih => exact bind_eq_error_iff fun p => ih _ c.property

theorem compileCriteria_eq_error_iff {criteria : List FilterCriterion} {e : FilterError} :
    schema.compileCriteria criteria = .error e ↔ schema.FirstFault criteria e := by
  cases criteria with
  | nil => simp [compileCriteria, not_firstFault_nil]
  | cons c rest =>
      refine bind_eq_error_iff fun p => ?_
      rw [← foldCriteria_eq_error_iff p c.property]
      cases schema.foldCriteria p c.property rest <;> simp [bind, Except.bind, pure, Except.pure]

theorem compile_eq_error_iff {criteria : List FilterCriterion} {term : String} {e : FilterError} :
    schema.compile criteria term = .error e ↔ schema.FirstFault criteria e := by
  rw [← compileCriteria_eq_error_iff, compile]
  cases schema.compileCriteria criteria <;> simp [bind, Except.bind, pure, Except.pure]

theorem exists_fault_iff {c : FilterCriterion} :
    (∃ e, schema.Fault c e) ↔ ¬ schema.Understands c := by
  simp only [← compileCriterion_eq_error_iff, understands_iff]
  cases schema.compileCriterion c <;> simp

theorem exists_firstFault_iff {criteria : List FilterCriterion} :
    (∃ e, schema.FirstFault criteria e) ↔ ∃ c ∈ criteria, ¬ schema.Understands c := by
  induction criteria with
  | nil => simp [not_firstFault_nil]
  | cons c rest ih =>
      simp only [firstFault_cons, exists_or, exists_and_left, exists_fault_iff, ih,
        List.exists_mem_cons_iff]
      tauto

/-- What stands behind a criterion that is refused has no part in the first fault. -/
theorem firstFault_append_congr {c : FilterCriterion} (hc : ¬ schema.Understands c)
    (before after after' : List FilterCriterion) {e : FilterError} :
    schema.FirstFault (before ++ c :: after) e ↔ schema.FirstFault (before ++ c :: after') e := by
  induction before with
  | nil => simp only [List.nil_append, firstFault_cons, hc, false_and]
  | cons b before ih => simp only [List.cons_append, firstFault_cons, ih]

/-- A query is compiled when each of its criteria can be asked. Otherwise it is refused for the first
that cannot, whatever stands behind that one and whatever is searched for. -/
theorem compile_or_first_fault (schema : Schema ρ) (criteria : List FilterCriterion)
    (term : String) :
    ((∃ p, schema.compile criteria term = .ok p) ↔ ∀ c ∈ criteria, schema.Understands c) ∧
      (∀ e, schema.compile criteria term = .error e ↔ schema.FirstFault criteria e) ∧
      (∀ other e, schema.compile criteria other = .error e ↔
        schema.compile criteria term = .error e) ∧
      ∀ before c after, criteria = before ++ c :: after → ¬ schema.Understands c →
        ∀ after' other,
          schema.compile (before ++ c :: after') other = schema.compile criteria term := by
  refine ⟨?_, fun e => compile_eq_error_iff, fun other e => ?_, ?_⟩
  · have hfails : (∃ e, schema.compile criteria term = .error e) ↔
        ∃ c ∈ criteria, ¬ schema.Understands c := by
      simp only [compile_eq_error_iff, exists_firstFault_iff]
    have hcompiles : (∃ p, schema.compile criteria term = .ok p) ↔
        ¬ ∃ e, schema.compile criteria term = .error e := by
      cases schema.compile criteria term <;> simp
    rw [hcompiles, hfails]
    simp only [not_exists, not_and, not_not]
  · rw [compile_eq_error_iff, compile_eq_error_iff]
  · intro before c after hsplit hc after' other
    subst hsplit
    obtain ⟨e, he⟩ : ∃ e, schema.FirstFault (before ++ c :: after) e :=
      exists_firstFault_iff.mpr ⟨c, List.mem_append_cons_self, hc⟩
    rw [compile_eq_error_iff.mpr he]
    exact compile_eq_error_iff.mpr ((firstFault_append_congr hc before after after').mp he)

/-- Criteria of which all but the first have faults, the second one two of them. -/
def manyFaults : List FilterCriterion :=
  [⟨"title", "=", "Emma"⟩, ⟨"PRICE", "like", " ten "⟩, ⟨"Colour", "=", "red"⟩]

/-- A price that is no number is told, in the spelling of the field and with its blanks, before the
operator of the same criterion and the property of the next; and it is told without the latter too. -/
theorem compile_or_first_fault_manyFaults :
    manyFaults = [⟨"title", "=", "Emma"⟩] ++ ⟨"PRICE", "like", " ten "⟩ :: [⟨"Colour", "=", "red"⟩] ∧
      ¬ Book.schema.Understands ⟨"PRICE", "like", " ten "⟩ ∧
      Book.schema.compile manyFaults "" = .error (.conversion "Price" .integer " ten ") ∧
      Book.schema.compile [⟨"title", "=", "Emma"⟩, ⟨"PRICE", "like", " ten "⟩] "un" =
        .error (.conversion "Price" .integer " ten ") := by
  have hrefused : ¬ Book.schema.Understands ⟨"PRICE", "like", " ten "⟩ := by
    rw [understands_iff]
    rintro ⟨p, hp⟩
    cases hp
  have htold : Book.schema.compile manyFaults "" = .error (.conversion "Price" .integer " ten ") :=
    rfl
  obtain ⟨-, -, -, hbehind⟩ := compile_or_first_fault Book.schema manyFaults ""
  exact ⟨rfl, hrefused, htold, (hbehind [⟨"title", "=", "Emma"⟩] _ _ rfl hrefused [] "un").trans htold⟩

end RecordGate.Schema
