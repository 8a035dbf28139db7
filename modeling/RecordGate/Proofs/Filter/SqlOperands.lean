import RecordGate.Filter.Sql

/-!
# Operands among parameters

The operands of a predicate are bound in the order of its leaves, those of the left branch of a join
before those of the right one. So the operands of each part stand together among the parameters.
-/

namespace RecordGate.Sql

/-- A list of values stands among the parameters, behind as many as are said to come before. -/
def StandsAt (values : List Value) (n : Nat) (params : List Value) : Prop :=
  ∃ before after, before.length = n ∧ params = before ++ values ++ after

namespace StandsAt

variable {these those params : List Value} {n : Nat}

theorem left (h : StandsAt (these ++ those) n params) : StandsAt these n params := by
  obtain ⟨before, after, hn, hparams⟩ := h
  refine ⟨before, those ++ after, hn, ?_⟩
  rw [hparams]
  simp only [List.append_assoc]

theorem right (h : StandsAt (these ++ those) n params) :
    StandsAt those (n + these.length) params := by
  obtain ⟨before, after, hn, hparams⟩ := h
  refine ⟨before ++ these, after, ?_, ?_⟩
  · rw [List.length_append, hn]
  · rw [hparams]
    simp only [List.append_assoc]

theorem getElem?_eq_some {v : Value} (h : StandsAt [v] n params) : params[n + 1 - 1]? = some v := by
  obtain ⟨before, after, rfl, hparams⟩ := h
  simp [hparams]

theorem getElem?_eq {v : Value} (h : StandsAt [v] n params) :
    (params[n + 1 - 1]?).getD .null = v := by
  rw [h.getElem?_eq_some, Option.getD_some]

end StandsAt

theorem length_operands (p : Predicate) : (operands p).length = p.leafCount := by
  induction p with
  | matchAll => rfl
  | compare name op value => rfl
  | contains name term => rfl
  | and left right ihl ihr => rw [operands, List.length_append, ihl, ihr, Predicate.leafCount_and]
  | or left right ihl ihr => rw [operands, List.length_append, ihl, ihr, Predicate.leafCount_or]

theorem standsAt_operands (p : Predicate) : StandsAt (operands p) 0 (operands p) :=
  ⟨[], [], rfl, by rw [List.nil_append, List.append_nil]⟩

/-- The operands of a right branch stand behind as many as the left branch has leaves. -/
theorem StandsAt.right_operands {left right : Predicate} {n : Nat} {params : List Value}
    (h : StandsAt (operands left ++ operands right) n params) :
    StandsAt (operands right) (n + left.leafCount) params := by
  rw [← length_operands]
  exact h.right

end RecordGate.Sql
