import RecordGate.Entity.Book
import RecordGate.Proofs.Filter.Fold
import RecordGate.Proofs.Filter.SqlOperands
import RecordGate.Proofs.Filter.SqlText
import RecordGate.Proofs.Schema.Order
import RecordGate.Proofs.Text.Bytes

/-!
# The truth of a clause and its predicate

A compiled predicate holds for a record exactly when the clause made from it is true for the record
as a row. The two have different truth values. They agree because an operand of a compiled predicate
is never null and has the type of its field, and because a join is true only through branches that
are true themselves.
-/

namespace RecordGate

variable {ρ : Type} {schema : Schema ρ} {record : ρ}

/-- A field of a type may hold a value: null, or a value of the type that is a number where it
should be one. -/
def FieldType.Holds (t : FieldType) (v : Value) : Prop :=
  v = .null ∨ (v.type? = some t ∧ ∀ x, v = .float x → x.isNaN = false)

namespace Schema

/-- A record as a row, with a column for each name of a field. -/
def row (schema : Schema ρ) (record : ρ) (column : String) : Value :=
  ((schema.fields.find? fun f => f.name == column).map fun f => f.read record).getD .null

/-- The conditions of a predicate name fields of a schema, and compare them with values of their
types that are not null. -/
def Poses (schema : Schema ρ) : Predicate → Prop
  | .matchAll => True
  | .compare name _ value => ∃ f, (schema.fields.find? fun g => g.name == name) = some f ∧
      f.type.Holds value ∧ value ≠ .null
  | .contains name _ => ∃ f, (schema.fields.find? fun g => g.name == name) = some f
  | .and left right => schema.Poses left ∧ schema.Poses right
  | .or left right => schema.Poses left ∧ schema.Poses right

end Schema

theorem FieldType.holds_of_value? {t : FieldType} {raw : String} {v : Value}
    (h : t.value? raw = some v) : t.Holds v ∧ v ≠ .null := by
  have htype := type?_of_value? h
  have hnull : v ≠ .null := by
    intro hv
    rw [hv] at htype
    cases htype
  refine ⟨.inr ⟨htype, ?_⟩, hnull⟩
  intro x hx
  subst hx
  cases t with
  | float =>
      simp only [value?, Option.map_eq_some_iff, Option.filter_eq_some_iff, Value.float.injEq] at h
      obtain ⟨y, ⟨-, hfinite⟩, rfl⟩ := h
      exact Binary64.isNaN_of_isFinite hfinite
  | text => cases htype
  | integer => cases htype
  | boolean => cases htype
  | uuid => cases htype
  | dateTime => cases htype
  | date => cases htype

/-- Two values of one type that are numbers where they should be have an order. -/
theorem exists_compare {t : FieldType} {a b : Value} (ha : t.Holds a) (hb : t.Holds b)
    (hanull : a ≠ .null) (hbnull : b ≠ .null) : ∃ o, a.compare b = some o := by
  obtain ⟨htype, hanan⟩ := ha.resolve_left hanull
  obtain ⟨htype', hbnan⟩ := hb.resolve_left hbnull
  obtain ⟨o, ho, -⟩ := Value.exists_compare_place hanull (htype.trans htype'.symm)
    (Value.not_isNaN_iff.mpr hanan) (Value.not_isNaN_iff.mpr hbnan)
  exact ⟨o, ho⟩

namespace Schema

theorem read?_eq_of_find? {name : String} {f : Field ρ}
    (h : (schema.fields.find? fun g => g.name == name) = some f) (record : ρ) :
    schema.read? record name = some (f.read record) ∧ schema.row record name = f.read record := by
  simp [read?, field?, row, h]

theorem poses_of_compileCriterion {c : FilterCriterion} {p : Predicate}
    (h : schema.compileCriterion c = .ok p) : schema.Poses p := by
  obtain ⟨f, value, op, hf, hv, -, rfl⟩ := compileCriterion_eq_ok_iff.mp h
  exact ⟨f, find?_name_of_field? hf, FieldType.holds_of_value? hv⟩

theorem Folded.poses {criteria : List FilterCriterion} {p : Predicate}
    (h : Folded schema criteria p) : schema.Poses p := by
  induction h with
  | first hc => exact poses_of_compileCriterion hc
  | alternative _ hc _ ih => exact ⟨ih, poses_of_compileCriterion hc⟩
  | further _ hc _ ih => exact ⟨ih, poses_of_compileCriterion hc⟩

theorem poses_contains {f : Field ρ} (h : f ∈ schema.textFields) (term : String) :
    schema.Poses (.contains f.name term) := by
  have hmem : f ∈ schema.fields := List.mem_of_mem_filter h
  cases hfind : schema.fields.find? fun g => g.name == f.name with
  | some g => exact ⟨g, hfind⟩
  | none => simpa using List.find?_eq_none.mp hfind f hmem

theorem poses_foldl_or {rest : List (Field ρ)} (h : ∀ f ∈ rest, f ∈ schema.textFields)
    {start : Predicate} (hstart : schema.Poses start) (term : String) :
    schema.Poses (rest.foldl (fun p f => .or p (.contains f.name term)) start) := by
  induction rest generalizing start with
  | nil => exact hstart
  | cons f rest ih =>
      have hf := poses_contains (h f List.mem_cons_self) term
      exact ih (fun g hg => h g (List.mem_cons_of_mem f hg)) ⟨hstart, hf⟩

theorem poses_of_compile {criteria : List FilterCriterion} {term : String} {p : Predicate}
    (h : schema.compile criteria term = .ok p) : schema.Poses p := by
  obtain ⟨folded, hfolded, rfl⟩ := compile_eq_ok_iff.mp h
  have hcriteria : ∀ q, folded = some q → schema.Poses q := by
    intro q hq
    rcases compileCriteria_eq_ok hfolded with ⟨-, hnone⟩ | ⟨q', hq', hf⟩
    · rw [hq] at hnone
      cases hnone
    · rw [hq, Option.some.injEq] at hq'
      rw [hq']
      exact hf.poses
  have hsearch : ∀ q, schema.searchPredicate term = some q → schema.Poses q := by
    intro q hq
    rcases searchPredicate_cases schema term with ⟨hnone, -⟩ | ⟨f, rest, -, htext, hsome⟩
    · rw [hq] at hnone
      cases hnone
    · rw [hq, Option.some.injEq] at hsome
      rw [hsome, anyContains]
      have hmem : ∀ g ∈ f :: rest, g ∈ schema.textFields := by
        intro g hg
        rwa [htext]
      exact poses_foldl_or (fun g hg => hmem g (List.mem_cons_of_mem f hg))
        (poses_contains (hmem f List.mem_cons_self) term) term
  cases hs : schema.searchPredicate term with
  | none =>
      cases hf : folded with
      | none => trivial
      | some q => exact hcriteria q hf
  | some s =>
      cases hf : folded with
      | none => exact hsearch s hs
      | some q => exact ⟨hsearch s hs, hcriteria q hf⟩

end Schema

namespace Sql

theorem order_eq_compare (a b : Value) : order a b = a.compare b := by
  cases a with
  | text s =>
      cases b with
      | text t => rw [order, Value.compare, Text.order_eq_orderBytes]
      | _ => rfl
  | _ => rfl

theorem Truth.ofBool_eq_yes_iff {b : Bool} : Truth.ofBool b = .yes ↔ b = true := by
  cases b <;> simp [Truth.ofBool]

theorem Truth.and_eq_yes_iff {a b : Truth} : a.and b = .yes ↔ a = .yes ∧ b = .yes := by
  cases a <;> cases b <;> simp [Truth.and]

theorem Truth.or_eq_yes_iff {a b : Truth} : a.or b = .yes ↔ a = .yes ∨ b = .yes := by
  cases a <;> cases b <;> simp [Truth.or]

theorem admits_relationOf (op : ComparisonOp) (o : Ordering) :
    (relationOf op).admits o = op.accepts (some o) := by
  cases op <;> rfl

/-- With an operand that is not null, a relation is true where its operator accepts the order. A
value that is null has none. -/
theorem truth_relationOf {op : ComparisonOp} {a b : Value} (hb : b ≠ .null)
    (ha : a = .null ∨ ∃ o, a.compare b = some o) :
    (relationOf op).truth a b = .yes ↔ op.accepts (a.compare b) = true := by
  have hbnull : b.isNull = false := by simpa [Value.isNull] using hb
  rw [Relation.truth, order_eq_compare, hbnull, Bool.or_false]
  cases ha with
  | inl hnull =>
      have hnone : Value.compare .null b = none := rfl
      rw [hnull, hnone]
      cases op <;> decide
  | inr horder =>
      obtain ⟨o, ho⟩ := horder
      have hanull : a.isNull = false := by
        rw [Value.isNull, beq_eq_false_iff_ne]
        intro hnull
        rw [hnull] at ho
        cases ho
      rw [hanull, Bool.and_false, if_neg Bool.false_ne_true, ho]
      simp only [Truth.ofBool_eq_yes_iff, admits_relationOf]

theorem strpos_pos_iff {hay needle : List Char} :
    0 < strpos hay needle ↔ Text.occursIn needle hay = true := by
  induction hay with
  | nil => cases needle <;> simp [strpos, Text.occursIn, Text.startsWith, Text.dropStart?]
  | cons c hay ih =>
      rw [strpos, Text.occursIn, Bool.or_eq_true, ← ih]
      cases hstart : Text.startsWith needle (c :: hay) with
      | true => simp
      | false => cases strpos hay needle <;> simp

theorem positionTruth_eq_yes_iff {v : Value} {term : String} :
    positionTruth v (.text term) = .yes ↔ ∃ s, v.asText? = some s ∧ Text.contains s term = true := by
  cases v with
  | text s =>
      have hpos : Nat.blt 0 (strpos s.toList term.toList) = true ↔ Text.contains s term = true := by
        rw [Nat.blt_eq, strpos_pos_iff, Text.contains]
      simp only [positionTruth, Truth.ofBool_eq_yes_iff, hpos, Value.asText?, Option.some.injEq,
        exists_eq_left']
  | _ => simp [positionTruth, Value.asText?]

/-- The condition of a predicate is true where the predicate holds, when its operands stand where its
placeholders point. -/
theorem truth_exprFrom {p : Predicate} (hp : schema.Poses p)
    (typed : ∀ f ∈ schema.fields, f.type.Holds (f.read record)) {n : Nat} {params : List Value}
    (hparams : StandsAt (operands p) n params) :
    (exprFrom n p).truth (schema.row record) params = .yes ↔ p.holds schema record = true := by
  induction p generalizing n with
  | matchAll => simp [exprFrom, Expr.truth, Predicate.holds]
  | compare name op value =>
      obtain ⟨f, hf, hvalue, hnull⟩ := hp
      obtain ⟨hread, hrow⟩ := Schema.read?_eq_of_find? hf record
      have hactual := typed f (List.mem_of_find?_eq_some hf)
      have horder : f.read record = .null ∨ ∃ o, (f.read record).compare value = some o := by
        by_cases h : f.read record = .null
        · exact .inl h
        · exact .inr (exists_compare hactual hvalue h hnull)
      rw [exprFrom, Expr.truth, hparams.getElem?_eq, hrow, truth_relationOf hnull horder]
      simp only [Predicate.holds, Predicate.holdsCompare, hread]
  | contains name term =>
      obtain ⟨f, hf⟩ := hp
      obtain ⟨hread, hrow⟩ := Schema.read?_eq_of_find? hf record
      rw [exprFrom, Expr.truth, hparams.getElem?_eq, hrow, positionTruth_eq_yes_iff]
      simp only [Predicate.holds, Predicate.holdsContains, hread, Option.bind_some]
      cases (f.read record).asText? <;> simp
  | and left right ihl ihr =>
      -- the placeholders of the right branch are numbered behind those of the left one
      rw [exprFrom, Expr.truth, Truth.and_eq_yes_iff, ihl hp.1 hparams.left,
        ihr hp.2 hparams.right_operands, Predicate.holds, Bool.and_eq_true]
  | or left right ihl ihr =>
      rw [exprFrom, Expr.truth, Truth.or_eq_yes_iff, ihl hp.1 hparams.left,
        ihr hp.2 hparams.right_operands, Predicate.holds, Bool.or_eq_true]

/-- A compiled predicate holds for a record, in whose fields there is nothing but nulls and values of
their types, exactly when the clause keeps the record as a row. The text of the clause has no other
reading. -/
theorem keeps_render_iff {criteria : List FilterCriterion} {term : String} {p : Predicate}
    (compiled : schema.compile criteria term = .ok p)
    (typed : ∀ f ∈ schema.fields, f.type.Holds (f.read record)) :
    (p.holds schema record = true ↔ (render p).keeps (schema.row record) = true) ∧
      ∀ e : Expr, e.text = (render p).sql → e = (render p).condition := by
  have hparams : StandsAt (operands p) 0 (operands p) := ⟨[], [], rfl, by simp⟩
  have htruth := truth_exprFrom (Schema.poses_of_compile compiled) typed hparams
  refine ⟨?_, fun e h => Expr.text_injective h⟩
  rw [← htruth, Clause.keeps, beq_iff_eq]
  rfl

end Sql

theorem FieldType.holds_ofOption {α : Type} {t : FieldType} {f : α → Value} (hfloat : t ≠ .float)
    (hf : ∀ a, (f a).type? = some t) (o : Option α) : t.Holds (Value.ofOption f o) := by
  cases o with
  | none => exact .inl rfl
  | some a =>
      refine .inr ⟨hf a, ?_⟩
      intro x hx
      have htype := hf a
      change f a = .float x at hx
      rw [hx] at htype
      cases htype
      exact absurd rfl hfloat

/-- The fields of a book hold nothing but nulls and values of their types. -/
theorem Book.holds_read (b : Book) : ∀ f ∈ Book.schema.fields, f.type.Holds (f.read b) := by
  intro f hf
  simp only [Book.schema, List.mem_cons, List.not_mem_nil, or_false] at hf
  rcases hf with rfl | rfl | rfl | rfl | rfl | rfl | rfl | rfl | rfl | rfl | rfl | rfl | rfl
  · exact FieldType.holds_ofOption (by decide) (fun _ => rfl) (some b.id)
  all_goals exact FieldType.holds_ofOption (by decide) (fun _ => rfl) _

namespace Sql

/-- A book without a genre is kept by a clause that asks for any other genre than one. -/
theorem keeps_render_iff_withoutGenre :
    ∃ p, Book.schema.compile [⟨"genre", "!=", "Poetry"⟩, ⟨"Price", ">=", "100"⟩] "un" = .ok p ∧
      (render p).sql = "(((strpos(\"Title\", $1) > 0 OR strpos(\"Genre\", $2) > 0) OR " ++
        "strpos(\"Publication\", $3) > 0) AND (\"Genre\" IS DISTINCT FROM $4 AND \"Price\" >= $5))" ∧
      (render p).keeps (Book.schema.row { id := .nil, title := some "Dune" }) = true := by
  have compiled : Book.schema.compile [⟨"genre", "!=", "Poetry"⟩, ⟨"Price", ">=", "100"⟩] "un" = .ok
      (.and
        (.or (.or (.contains "Title" "un") (.contains "Genre" "un")) (.contains "Publication" "un"))
        (.and (.compare "Genre" .notEquals (.text "Poetry"))
          (.compare "Price" .greaterThanOrEqual (.integer ⟨100, by decide, by decide⟩)))) := rfl
  refine ⟨_, compiled, rfl, ?_⟩
  exact (keeps_render_iff compiled (Book.holds_read _)).1.mp (by decide)

end Sql

end RecordGate
