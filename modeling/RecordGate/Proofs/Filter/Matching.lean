import RecordGate.Entity.Author
import RecordGate.Proofs.Filter.Fold

/-!
# When a compiled query holds for a record

A criterion on the same property as the one before it is joined by `or` to everything behind it, so
a single criterion late in the list can make up for all that failed before. The main statement says
which criteria decide: one that holds and either comes first or repeats the property before it, with
all later ones that do not repeat a property.
-/

namespace RecordGate.Schema

variable {ρ : Type} {schema : Schema ρ} {record : ρ}

/-- A criterion holds for a record: its operator accepts the comparison of what the record has in
the field with what the criterion asks for. -/
def Satisfies (schema : Schema ρ) (record : ρ) (c : FilterCriterion) : Prop :=
  ∃ field value op, schema.field? c.property = some field ∧
    field.type.value? c.value = some value ∧ ComparisonOp.parse? c.operator = some op ∧
    op.accepts ((field.read record).compare value) = true

/-- A text occurs in a field of text of a record. -/
def Mentions (schema : Schema ρ) (record : ρ) (term : String) : Prop :=
  ∃ field ∈ schema.textFields, ∃ s, field.read record = .text s ∧ term.toList <:+: s.toList

/-- The criterion at a place repeats the property of the one before it, or is the first. -/
def Resumes (criteria : List FilterCriterion) (k : Nat) : Prop :=
  k = 0 ∨ (criteria[k]?).map (·.property) = (criteria[k - 1]?).map (·.property)

/-- The criterion at a place decides for a record: it holds, it may stand for all before it, and no
later criterion that is required as well fails. -/
def Decides (schema : Schema ρ) (record : ρ) (criteria : List FilterCriterion) (k : Nat) : Prop :=
  (∃ c, criteria[k]? = some c ∧ schema.Satisfies record c) ∧ Resumes criteria k ∧
    ∀ j c, k < j → criteria[j]? = some c → ¬ Resumes criteria j → schema.Satisfies record c

theorem holds_of_compileCriterion {c : FilterCriterion} {condition : Predicate}
    (h : schema.compileCriterion c = .ok condition) :
    condition.holds schema record = true ↔ schema.Satisfies record c := by
  obtain ⟨field, value, op, hf, hv, ho, rfl⟩ := compileCriterion_eq_ok_iff.mp h
  simp [Satisfies, hf, hv, ho, Predicate.holds, Predicate.holdsCompare, read?,
    field?_name_of_field? hf]

theorem resumes_append {criteria : List FilterCriterion} {c : FilterCriterion} {k : Nat}
    (hk : k < criteria.length) : Resumes (criteria ++ [c]) k ↔ Resumes criteria k := by
  unfold Resumes
  rw [List.getElem?_append_left hk, List.getElem?_append_left (by omega)]

theorem resumes_last {before : List FilterCriterion} {b c : FilterCriterion} :
    Resumes (before ++ [b] ++ [c]) (before ++ [b]).length ↔ b.property = c.property := by
  simp [Resumes, eq_comm]

theorem lt_length_of_decides {criteria : List FilterCriterion} {k : Nat}
    (h : schema.Decides record criteria k) : k < criteria.length := by
  obtain ⟨⟨c, hc, _⟩, _⟩ := h
  exact (List.getElem?_eq_some_iff.mp hc).choose

theorem le_length_of_getElem?_append {before : List FilterCriterion} {c d : FilterCriterion}
    {j : Nat} (h : (before ++ [c])[j]? = some d) : j ≤ before.length := by
  have hlt := (List.getElem?_eq_some_iff.mp h).choose
  simp only [List.length_append, List.length_singleton] at hlt
  omega

/-- A criterion that is added decides by itself when it repeats a property and holds. -/
theorem decides_append_last {before : List FilterCriterion} {b c : FilterCriterion} :
    schema.Decides record (before ++ [b] ++ [c]) (before ++ [b]).length ↔
      schema.Satisfies record c ∧ b.property = c.property := by
  have hlast : (before ++ [b] ++ [c])[(before ++ [b]).length]? = some c := by simp
  constructor
  · intro h
    obtain ⟨⟨d, hd, hholds⟩, hresumes, -⟩ := h
    rw [hlast, Option.some.injEq] at hd
    subst hd
    exact ⟨hholds, resumes_last.mp hresumes⟩
  · intro h
    obtain ⟨hholds, hname⟩ := h
    refine ⟨⟨c, hlast, hholds⟩, resumes_last.mpr hname, ?_⟩
    intro j e hj he
    have hle := le_length_of_getElem?_append he
    omega

/-- A place before a criterion that is added still decides, unless the criterion is required and
fails. -/
theorem decides_append_of_lt {before : List FilterCriterion} {b c : FilterCriterion} {k : Nat}
    (hk : k < (before ++ [b]).length) :
    schema.Decides record (before ++ [b] ++ [c]) k ↔
      schema.Decides record (before ++ [b]) k ∧
        (b.property ≠ c.property → schema.Satisfies record c) := by
  have hlast : (before ++ [b] ++ [c])[(before ++ [b]).length]? = some c := by simp
  unfold Decides
  rw [List.getElem?_append_left hk, resumes_append hk]
  constructor
  · intro h
    obtain ⟨hholds, hresumes, hlater⟩ := h
    refine ⟨⟨hholds, hresumes, ?_⟩, ?_⟩
    · intro j e hj he hrequired
      have hjlt := (List.getElem?_eq_some_iff.mp he).choose
      refine hlater j e hj ?_ ?_
      · rwa [List.getElem?_append_left hjlt]
      · rwa [resumes_append hjlt]
    · intro hname
      exact hlater _ c hk hlast fun hr => hname (resumes_last.mp hr)
  · intro h
    obtain ⟨⟨hholds, hresumes, hlater⟩, hrequired⟩ := h
    refine ⟨hholds, hresumes, ?_⟩
    intro j e hj he hnew
    -- a later place is one of those there were, or that of the new criterion
    rcases Nat.lt_or_eq_of_le (le_length_of_getElem?_append he) with hjlt | rfl
    · rw [List.getElem?_append_left hjlt] at he
      rw [resumes_append hjlt] at hnew
      exact hlater j e hj he hnew
    · rw [hlast, Option.some.injEq] at he
      subst he
      exact hrequired fun hname => hnew (resumes_last.mpr hname)

theorem decides_append {before : List FilterCriterion} {b c : FilterCriterion} {k : Nat} :
    schema.Decides record (before ++ [b] ++ [c]) k ↔
      (k = (before ++ [b]).length ∧ schema.Satisfies record c ∧ b.property = c.property) ∨
        (schema.Decides record (before ++ [b]) k ∧
          (b.property ≠ c.property → schema.Satisfies record c)) := by
  by_cases hk : k < (before ++ [b]).length
  · rw [decides_append_of_lt hk]
    exact ⟨.inr, fun h => h.resolve_left fun hlast => Nat.ne_of_lt hk hlast.1⟩
  · by_cases hlast : k = (before ++ [b]).length
    · subst hlast
      rw [decides_append_last]
      exact ⟨fun h => .inl ⟨rfl, h⟩,
        fun h => h.elim And.right fun hearlier => absurd (lt_length_of_decides hearlier.1) hk⟩
    · constructor
      · intro h
        obtain ⟨⟨d, hd, -⟩, -⟩ := h
        have hle := le_length_of_getElem?_append hd
        omega
      · intro h
        rcases h with ⟨heq, -⟩ | ⟨hearlier, -⟩
        · exact absurd heq hlast
        · exact absurd (lt_length_of_decides hearlier) hk

theorem exists_decides_singleton {c : FilterCriterion} :
    (∃ k, schema.Decides record [c] k) ↔ schema.Satisfies record c := by
  constructor
  · intro h
    obtain ⟨k, hk⟩ := h
    have hlt := lt_length_of_decides hk
    obtain ⟨⟨d, hd, hholds⟩, _⟩ := hk
    obtain rfl : k = 0 := by simpa using hlt
    obtain rfl : c = d := by simpa using hd
    exact hholds
  · intro h
    refine ⟨0, ⟨c, rfl, h⟩, .inl rfl, ?_⟩
    intro j d hj hd
    have hlt := (List.getElem?_eq_some_iff.mp hd).choose
    simp only [List.length_singleton] at hlt
    omega

/-- The criteria of a compiled query hold for a record when one of them decides. -/
theorem Folded.holds_iff {criteria : List FilterCriterion} {p : Predicate}
    (h : Folded schema criteria p) :
    p.holds schema record = true ↔ ∃ k, schema.Decides record criteria k := by
  induction h with
  | first hc => rw [holds_of_compileCriterion hc, exists_decides_singleton]
  | alternative _ hc hname ih =>
      simp only [Predicate.holds, Bool.or_eq_true, ih, holds_of_compileCriterion hc, decides_append]
      constructor
      · intro h
        rcases h with ⟨k, hk⟩ | hc
        · exact ⟨k, .inr ⟨hk, fun hne => absurd hname hne⟩⟩
        · exact ⟨_, .inl ⟨rfl, hc, hname⟩⟩
      · intro h
        rcases h with ⟨k, ⟨_, hc, _⟩ | ⟨hk, _⟩⟩
        · exact .inr hc
        · exact .inl ⟨k, hk⟩
  | further _ hc hname ih =>
      simp only [Predicate.holds, Bool.and_eq_true, ih, holds_of_compileCriterion hc, decides_append]
      constructor
      · intro h
        obtain ⟨⟨k, hk⟩, hc⟩ := h
        exact ⟨k, .inr ⟨hk, fun _ => hc⟩⟩
      · intro h
        rcases h with ⟨k, ⟨_, _, heq⟩ | ⟨hk, hc⟩⟩
        · exact absurd heq hname
        · exact ⟨⟨k, hk⟩, hc hname⟩

theorem occursIn_iff_isInfix {needle hay : List Char} :
    Text.occursIn needle hay = true ↔ needle <:+: hay := by
  rw [Text.occursIn_iff]
  constructor
  · intro h
    obtain ⟨a, b, rfl⟩ := h
    exact ⟨a, b, by simp⟩
  · intro h
    obtain ⟨a, b, rfl⟩ := h
    exact ⟨a, b, by simp⟩

theorem holds_contains_iff (distinct : (schema.fields.map Field.name).Nodup) {field : Field ρ}
    (hf : field ∈ schema.fields) {term : String} :
    (Predicate.contains field.name term).holds schema record = true ↔
      ∃ s, field.read record = .text s ∧ term.toList <:+: s.toList := by
  simp only [Predicate.holds, Predicate.holdsContains, read?, field?_name_of_mem distinct hf,
    Option.map_some, Option.bind_some]
  cases field.read record <;> simp [Value.asText?, Text.contains, occursIn_iff_isInfix]

theorem holds_foldl_or {rest : List (Field ρ)} {start : Predicate} {term : String} :
    (rest.foldl (fun p f => .or p (.contains f.name term)) start).holds schema record = true ↔
      start.holds schema record = true ∨
        ∃ f ∈ rest, (Predicate.contains f.name term).holds schema record = true := by
  induction rest generalizing start with
  | nil => simp
  | cons f rest ih =>
      simp only [List.foldl_cons, ih, Predicate.holds, Bool.or_eq_true, List.exists_mem_cons_iff]
      rw [or_assoc]

theorem holds_anyContains_iff (distinct : (schema.fields.map Field.name).Nodup) {field : Field ρ}
    {rest : List (Field ρ)} (htext : schema.textFields = field :: rest) {term : String} :
    (anyContains term field rest).holds schema record = true ↔ schema.Mentions record term := by
  have hmem : ∀ f ∈ schema.textFields, f ∈ schema.fields := fun f hf => List.mem_of_mem_filter hf
  have hany : (anyContains term field rest).holds schema record = true ↔
      ∃ f ∈ schema.textFields, (Predicate.contains f.name term).holds schema record = true := by
    rw [anyContains, holds_foldl_or, htext]
    simp
  rw [hany]
  unfold Mentions
  constructor
  · intro h
    obtain ⟨f, hf, h⟩ := h
    exact ⟨f, hf, (holds_contains_iff distinct (hmem f hf)).mp h⟩
  · intro h
    obtain ⟨f, hf, h⟩ := h
    exact ⟨f, hf, (holds_contains_iff distinct (hmem f hf)).mpr h⟩

/-- A compiled query holds for a record exactly when the search finds its term, or has nothing to
look for or nowhere to look, and some criterion decides, or there is none. -/
theorem holds_compile_iff {criteria : List FilterCriterion} {term : String} {p : Predicate}
    (distinct : (schema.fields.map Field.name).Nodup)
    (compiled : schema.compile criteria term = .ok p) (record : ρ) :
    p.holds schema record = true ↔
      (term = "" ∨ schema.textFields = [] ∨ schema.Mentions record term) ∧
        (criteria = [] ∨ ∃ k, schema.Decides record criteria k) := by
  obtain ⟨folded, hfolded, rfl⟩ := compile_eq_ok_iff.mp compiled
  have hcriteria : ∀ q, folded = some q →
      (q.holds schema record = true ↔ criteria = [] ∨ ∃ k, schema.Decides record criteria k) := by
    intro q h
    subst h
    obtain ⟨_, hnone⟩ | ⟨q', hq', hf⟩ := compileCriteria_eq_ok hfolded
    · cases hnone
    · cases hq'
      rw [hf.holds_iff]
      have hne : criteria ≠ [] := by cases hf <;> simp
      simp [hne]
  have hempty : folded = none → criteria = [] := by
    intro h
    subst h
    obtain ⟨hnil, _⟩ | ⟨q, hq, _⟩ := compileCriteria_eq_ok hfolded
    · exact hnil
    · cases hq
  obtain ⟨hsearch, hnothing⟩ | ⟨field, rest, hterm, htext, hsearch⟩ :=
    searchPredicate_cases schema term
  -- without a search the criteria alone are joined, and without either everything matches
  · have hfree : term = "" ∨ schema.textFields = [] ∨ schema.Mentions record term := by
      tauto
    rw [hsearch, and_iff_right hfree]
    cases folded with
    | none => simp [joinSearch, Predicate.holds, hempty rfl]
    | some q => exact hcriteria q rfl
  · have hbound : (term = "" ∨ schema.textFields = [] ∨ schema.Mentions record term) ↔
        (anyContains term field rest).holds schema record = true := by
      rw [holds_anyContains_iff distinct htext, htext]
      simp [hterm]
    rw [hsearch, hbound]
    cases folded with
    | none => simp [joinSearch, hempty rfl]
    | some q => simp [joinSearch, Predicate.holds, hcriteria q rfl]

/-- Four criteria of which the first two may fail when the third holds. -/
def lateAlternative : List FilterCriterion :=
  [⟨"Title", "=", "Emma"⟩, ⟨"price", ">", "500"⟩, ⟨"price", "<=", "100"⟩,
    ⟨"Genre", "notEquals", "Poetry"⟩]

/-- A second criterion on the price that holds makes up for a title and a first price that do not. -/
theorem holds_compile_iff_lateAlternative :
    (Book.schema.fields.map Field.name).Nodup ∧
      ∃ p, Book.schema.compile lateAlternative "un" = .ok p ∧
        p.holds Book.schema { id := .nil, title := some "Dune" } = true := by
  have distinct : (Book.schema.fields.map Field.name).Nodup := by decide
  have compiled : Book.schema.compile lateAlternative "un" = .ok
      (.and
        (.or (.or (.contains "Title" "un") (.contains "Genre" "un")) (.contains "Publication" "un"))
        (.and
          (.or
            (.and (.compare "Title" .equals (.text "Emma"))
              (.compare "Price" .greaterThan (.integer ⟨500, by decide, by decide⟩)))
            (.compare "Price" .lessThanOrEqual (.integer ⟨100, by decide, by decide⟩)))
          (.compare "Genre" .notEquals (.text "Poetry")))) := rfl
  refine ⟨distinct, _, compiled, (holds_compile_iff distinct compiled _).mpr ⟨?_, ?_⟩⟩
  · exact .inr (.inr ⟨_, .head _, "Dune", rfl, ['D'], ['e'], rfl⟩)
  · refine .inr ⟨2, ⟨_, rfl, _, _, _, rfl, rfl, rfl, rfl⟩, .inr rfl, ?_⟩
    intro j c hj hc _
    match j, hj with
    | 3, _ =>
        obtain rfl := Option.some.inj hc
        exact ⟨_, _, _, rfl, rfl, rfl, rfl⟩
    | j + 4, _ => simp [lateAlternative] at hc

end RecordGate.Schema
