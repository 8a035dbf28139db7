import RecordGate.Entity.Author
import RecordGate.Proofs.Filter.Faults
import RecordGate.Proofs.Filter.SqlTruth
import RecordGate.Proofs.Schema.Order

/-!
# Operators on one field

The six operators ask for parts of one order. What a record has in a field is below a value, equal
to it or above it, and the operators that join two of these parts match where one of the two does. A
null and what is not a number lie outside the order, and only `notEquals` matches there. Between two
values the records below the lower one are among those below the higher one.
-/

namespace RecordGate

namespace ComparisonOp

/-- Every operator is read from its own name. -/
theorem parse?_name (op : ComparisonOp) : parse? op.name = some op := by
  cases op <;> decide

theorem accepts_notEquals (o : Option Ordering) :
    notEquals.accepts o = !equals.accepts o := by
  cases o <;> rfl

theorem accepts_greaterThanOrEqual (o : Option Ordering) :
    greaterThanOrEqual.accepts o = (greaterThan.accepts o || equals.accepts o) := by
  rcases o with _ | o
  · rfl
  · cases o <;> rfl

theorem accepts_lessThanOrEqual (o : Option Ordering) :
    lessThanOrEqual.accepts o = (lessThan.accepts o || equals.accepts o) := by
  rcases o with _ | o
  · rfl
  · cases o <;> rfl

theorem accepts_none_iff (op : ComparisonOp) : op.accepts none = true ↔ op = .notEquals := by
  cases op <;> decide

/-- The operators that ask for one of the three parts of an order. -/
def strict : List ComparisonOp := [.lessThan, .equals, .greaterThan]

theorem existsUnique_strict (o : Ordering) :
    ∃! op, op ∈ strict ∧ op.accepts (some o) = true := by
  cases o with
  | lt => exact ⟨.lessThan, by decide, fun op h => by revert h; cases op <;> decide⟩
  | eq => exact ⟨.equals, by decide, fun op h => by revert h; cases op <;> decide⟩
  | gt => exact ⟨.greaterThan, by decide, fun op h => by revert h; cases op <;> decide⟩

theorem ne_gt_of_accepts {o : Option Ordering}
    (h : lessThan.accepts o = true ∨ equals.accepts o = true) : ∃ p, o = some p ∧ p ≠ .gt := by
  rcases o with _ | p
  · simp [accepts] at h
  · exact ⟨p, rfl, by rintro rfl; revert h; decide⟩

end ComparisonOp

namespace Schema

variable {ρ : Type} {schema : Schema ρ} {record : ρ} {property : String} {field : Field ρ}
  {raw : String} {v : Value}

/-- A criterion with an operator and a raw value is compiled, and its predicate holds for a record. -/
def Matches (schema : Schema ρ) (record : ρ) (property : String) (op : ComparisonOp)
    (raw : String) : Prop :=
  ∃ p, schema.compile [⟨property, op.name, raw⟩] "" = .ok p ∧ p.holds schema record = true

theorem holds_comparison (hfield : schema.Resolves property field) (op : ComparisonOp)
    (v : Value) : (Predicate.compare field.name op v).holds schema record =
      op.accepts ((field.read record).compare v) := by
  have hname := field?_name_of_field? (resolves_iff.mp hfield)
  rw [Predicate.holds, Predicate.holdsCompare, read?, hname, Option.map_some]

theorem matches_iff (hfield : schema.Resolves property field)
    (hvalue : field.type.value? raw = some v) {op : ComparisonOp} :
    schema.Matches record property op raw ↔
      op.accepts ((field.read record).compare v) = true := by
  rw [Matches, compile_comparison hfield hvalue op.parse?_name]
  simp only [Except.ok.injEq, exists_eq_left', holds_comparison hfield]

theorem matches_notEquals_iff (hfield : schema.Resolves property field)
    (hvalue : field.type.value? raw = some v) :
    schema.Matches record property .notEquals raw ↔
      ¬ schema.Matches record property .equals raw := by
  rw [matches_iff hfield hvalue, matches_iff hfield hvalue, ComparisonOp.accepts_notEquals,
    Bool.not_eq_true', Bool.not_eq_true]

theorem matches_greaterThanOrEqual_iff (hfield : schema.Resolves property field)
    (hvalue : field.type.value? raw = some v) :
    schema.Matches record property .greaterThanOrEqual raw ↔
      schema.Matches record property .greaterThan raw ∨
        schema.Matches record property .equals raw := by
  rw [matches_iff hfield hvalue, matches_iff hfield hvalue, matches_iff hfield hvalue,
    ComparisonOp.accepts_greaterThanOrEqual, Bool.or_eq_true]

theorem matches_lessThanOrEqual_iff (hfield : schema.Resolves property field)
    (hvalue : field.type.value? raw = some v) :
    schema.Matches record property .lessThanOrEqual raw ↔
      schema.Matches record property .lessThan raw ∨
        schema.Matches record property .equals raw := by
  rw [matches_iff hfield hvalue, matches_iff hfield hvalue, matches_iff hfield hvalue,
    ComparisonOp.accepts_lessThanOrEqual, Bool.or_eq_true]

theorem matches_iff_of_null (hfield : schema.Resolves property field)
    (hvalue : field.type.value? raw = some v) (hnull : field.read record = .null)
    (op : ComparisonOp) : schema.Matches record property op raw ↔ op = .notEquals := by
  have hnone : Value.compare .null v = none := rfl
  rw [matches_iff hfield hvalue, hnull, hnone, ComparisonOp.accepts_none_iff]

theorem not_isNaN_of_value? {t : FieldType} (h : t.value? raw = some v) : ¬ v.IsNaN :=
  have hholds := FieldType.holds_of_value? h
  Value.not_isNaN_iff.mpr (hholds.1.resolve_left hholds.2).2

theorem existsUnique_matches (hfield : schema.Resolves property field)
    (hvalue : field.type.value? raw = some v) (htype : (field.read record).type? = some field.type)
    (hnan : ¬ (field.read record).IsNaN) :
    ∃! op, op ∈ ComparisonOp.strict ∧ schema.Matches record property op raw := by
  have hnull : field.read record ≠ .null := by
    intro h
    rw [h] at htype
    cases htype
  obtain ⟨o, ho, -⟩ := Value.exists_compare_place hnull
    (htype.trans (FieldType.type?_of_value? hvalue).symm) hnan (not_isNaN_of_value? hvalue)
  simpa only [matches_iff hfield hvalue, ho] using ComparisonOp.existsUnique_strict o

theorem matches_lessThan_of_lt (hfield : schema.Resolves property field)
    (hread : field.read record = .null ∨ (field.read record).type? = some field.type)
    (hvalue : field.type.value? raw = some v) {raw' : String} {w : Value}
    (hvalue' : field.type.value? raw' = some w) (hlt : v.compare w = some .lt)
    (hle : schema.Matches record property .lessThan raw ∨
      schema.Matches record property .equals raw) :
    schema.Matches record property .lessThan raw' := by
  rw [matches_iff hfield hvalue, matches_iff hfield hvalue] at hle
  obtain ⟨o, ho, hne⟩ := ComparisonOp.ne_gt_of_accepts hle
  have hnull : field.read record ≠ .null := by
    intro h
    rw [h] at ho
    cases ho
  have htype := FieldType.type?_of_value? hvalue
  have hbelow : (field.read record).compare w = some .lt :=
    Value.compare_eq_lt_of_ne_gt hnull ((hread.resolve_left hnull).trans htype.symm)
      (htype.trans (FieldType.type?_of_value? hvalue').symm) (not_isNaN_of_value? hvalue)
      (not_isNaN_of_value? hvalue') ho hne hlt
  rw [matches_iff hfield hvalue', hbelow]
  rfl

/-- For a field that holds null or values of its type, and a value of the type: a criterion is
compiled whatever the spelling of its operator; `equals` and `notEquals` exclude each other and leave
nothing out; an operator with `OrEqual` in its name matches where one of its two parts does; a null
matches `notEquals` only; anything else but what is not a number is below the value, equal to it or
above it; and what is not above a value is below all higher values. -/
theorem comparison_laws (hfield : schema.Resolves property field)
    (hread : field.read record = .null ∨ (field.read record).type? = some field.type)
    (hvalue : field.type.value? raw = some v) :
    (∀ operator op, ComparisonOp.parse? operator = some op →
      ∃ p, schema.compile [⟨property, operator, raw⟩] "" = .ok p ∧
        (p.holds schema record = true ↔ schema.Matches record property op raw)) ∧
    (schema.Matches record property .notEquals raw ↔
      ¬ schema.Matches record property .equals raw) ∧
    (schema.Matches record property .greaterThanOrEqual raw ↔
      schema.Matches record property .greaterThan raw ∨
        schema.Matches record property .equals raw) ∧
    (schema.Matches record property .lessThanOrEqual raw ↔
      schema.Matches record property .lessThan raw ∨
        schema.Matches record property .equals raw) ∧
    (field.read record = .null →
      ∀ op, schema.Matches record property op raw ↔ op = .notEquals) ∧
    (field.read record ≠ .null → ¬ (field.read record).IsNaN →
      ∃! op, op ∈ ComparisonOp.strict ∧ schema.Matches record property op raw) ∧
    ∀ raw' w, field.type.value? raw' = some w → v.compare w = some .lt →
      schema.Matches record property .lessThan raw ∨ schema.Matches record property .equals raw →
        schema.Matches record property .lessThan raw' := by
  refine ⟨?_, matches_notEquals_iff hfield hvalue, matches_greaterThanOrEqual_iff hfield hvalue,
    matches_lessThanOrEqual_iff hfield hvalue, matches_iff_of_null hfield hvalue, ?_, ?_⟩
  · intro operator op hop
    refine ⟨_, compile_comparison hfield hvalue hop, ?_⟩
    rw [holds_comparison hfield, matches_iff hfield hvalue]
  · intro hnull hnan
    exact existsUnique_matches hfield hvalue (hread.resolve_left hnull) hnan
  · intro raw' w hvalue' hlt hle
    exact matches_lessThan_of_lt hfield hread hvalue hvalue' hlt hle

/-- An author born in the forty-fourth year before the common era. -/
def bornBeforeEra : Author := { id := .nil, name := some "Poet", birthDate := some ⟨-43, 3, 20⟩ }

theorem comparison_laws_bornBeforeEra :
    Author.schema.Matches bornBeforeEra "birthdate" .equals " -0043-03-20 " ∧
      ¬ Author.schema.Matches bornBeforeEra "birthdate" .notEquals " -0043-03-20 " ∧
      Author.schema.Matches bornBeforeEra "birthdate" .lessThan "+0017-01-02" := by
  have hfield : Author.schema.Resolves "birthdate"
      ⟨"BirthDate", .date, fun a => Value.ofOption .date a.birthDate⟩ := resolves_iff.mpr rfl
  have hvalue : FieldType.date.value? " -0043-03-20 " = some (.date ⟨-43, 3, 20⟩) := by decide
  have hvalue' : FieldType.date.value? "+0017-01-02" = some (.date ⟨17, 1, 2⟩) := by decide
  obtain ⟨-, hne, -, -, -, -, hrange⟩ :=
    @comparison_laws Author Author.schema bornBeforeEra "birthdate" _ " -0043-03-20 " _ hfield
      (.inr rfl) hvalue
  have heq : Author.schema.Matches bornBeforeEra "birthdate" .equals " -0043-03-20 " :=
    ⟨_, compile_comparison hfield hvalue (ComparisonOp.parse?_name .equals), by decide⟩
  exact ⟨heq, fun h => hne.mp h heq, hrange _ _ hvalue' (by decide) (.inr heq)⟩

end Schema

end RecordGate
