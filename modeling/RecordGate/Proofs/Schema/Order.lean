import Mathlib.Data.Int.Order.Basic
import Mathlib.Data.List.Lex
import Mathlib.Order.Compare
import RecordGate.Proofs.Text.Ascending
import RecordGate.Schema.Value

/-!
# The order of values

Every value has a place, a list of whole numbers, and two values of one type are ordered as their
places are: texts by their characters, days and instants from the year to the smaller parts, and
floats by their position on the scale of doubles. So the order of the values of a type is total. What
is not a number is left out of it.
-/

namespace RecordGate

open Ordering (Compares)

theorem Date.compares_orderInt (a b : ℤ) : (orderInt a b).Compares a b := cmp_compares a b

theorem Text.compares_orderNat (a b : ℕ) : (orderNat a b).Compares (a : ℤ) b := by
  rcases Nat.lt_trichotomy a b with h | h | h
  · rw [orderNat_of_lt h]
    exact Int.ofNat_lt.mpr h
  · rw [h, orderNat_self]
    exact rfl
  · rw [orderNat_of_gt h]
    exact Int.ofNat_lt.mpr h

/-- Lists are ordered by their first entries, and by the rest where these are equal. -/
theorem compares_cons {o p : Ordering} {a b : ℤ} {s t : List ℤ} (h : o.Compares a b)
    (k : p.Compares s t) : (o.then p).Compares (a :: s) (b :: t) := by
  cases o with
  | lt => exact List.cons_lt_cons_iff.mpr (.inl h)
  | gt => exact List.cons_lt_cons_iff.mpr (.inl h)
  | eq =>
      obtain rfl : a = b := h
      cases p with
      | lt => exact List.cons_lt_cons_iff.mpr (.inr ⟨rfl, k⟩)
      | gt => exact List.cons_lt_cons_iff.mpr (.inr ⟨rfl, k⟩)
      | eq => exact congrArg (a :: ·) k

theorem compares_singleton {o : Ordering} {a b : ℤ} (h : o.Compares a b) : o.Compares [a] [b] := by
  have hnil : Compares .eq ([] : List ℤ) [] := rfl
  simpa using compares_cons h hnil

/-- The characters of a text as numbers. -/
def Text.codes (s : List Char) : List ℤ := s.map fun c => (c.toNat : ℤ)

theorem Text.compares_order (s t : String) :
    (order s t).Compares (codes s.toList) (codes t.toList) := by
  unfold order
  generalize s.toList = s
  generalize t.toList = t
  induction s generalizing t with
  | nil =>
      cases t with
      | nil => rfl
      | cons d t => exact List.nil_lt_cons _ _
  | cons c s ih =>
      cases t with
      | nil => exact List.nil_lt_cons _ _
      | cons d t =>
          have hcons := compares_cons (compares_orderNat c.toNat d.toNat) (ih t)
          rw [orderBy]
          cases horder : orderNat c.toNat d.toNat <;> rw [horder] at hcons <;> exact hcons

theorem Binary64.compare_eq_cmp {x y : Binary64} (hx : x.isNaN = false) (hy : y.isNaN = false) :
    x.compare y = some (cmp x.key y.key) := by
  rw [compare, hx, hy, Bool.or_false, if_neg Bool.false_ne_true, cmp, cmpUsing]
  split
  · rfl
  · split
    · rfl
    · rfl

namespace Value

/-- The place of a value among those of its type. -/
def place : Value → List ℤ
  | .null => []
  | .text s => Text.codes s.toList
  | .integer n => [n.val]
  | .float x => [x.key]
  | .boolean b => [if b then 1 else 0]
  | .uuid u => [(u.value.val : ℤ)]
  | .dateTime t => [t.date.year, t.date.month, t.date.day, t.second, t.nanos]
  | .date d => [d.year, d.month, d.day]

/-- A value is a float that is not a number. -/
def IsNaN (v : Value) : Prop := ∃ x, v = .float x ∧ x.isNaN = true

theorem not_isNaN_iff {v : Value} : ¬ v.IsNaN ↔ ∀ x, v = .float x → x.isNaN = false := by
  simp [IsNaN]

variable {a b c : Value}

theorem compare_of_isNaN (h : a.IsNaN) (b : Value) : a.compare b = none := by
  obtain ⟨x, rfl, hx⟩ := h
  cases b with
  | float y => simp [compare, Binary64.compare, hx]
  | integer n => simp [compare, Binary64.compare, hx]
  | _ => rfl

/-- Two values of one type are ordered as their places are. -/
theorem exists_compare_place (hnull : a ≠ .null) (htype : a.type? = b.type?) (ha : ¬ a.IsNaN)
    (hb : ¬ b.IsNaN) : ∃ o, a.compare b = some o ∧ o.Compares a.place b.place := by
  cases a with
  | null => exact absurd rfl hnull
  | text s => cases b with
    | text t => exact ⟨_, rfl, Text.compares_order s t⟩
    | _ => cases htype
  | integer m => cases b with
    | integer n => exact ⟨_, rfl, compares_singleton (Date.compares_orderInt m.val n.val)⟩
    | _ => cases htype
  | float x => cases b with
    | float y =>
        have hcompare :=
          Binary64.compare_eq_cmp (not_isNaN_iff.mp ha x rfl) (not_isNaN_iff.mp hb y rfl)
        exact ⟨_, hcompare, compares_singleton (cmp_compares x.key y.key)⟩
    | _ => cases htype
  | boolean p => cases b with
    | boolean q =>
        refine ⟨_, rfl, compares_singleton ?_⟩
        cases p <;> cases q <;> simp [orderBool, Compares]
    | _ => cases htype
  | uuid u => cases b with
    | uuid v => exact ⟨_, rfl, compares_singleton (Text.compares_orderNat u.value.val v.value.val)⟩
    | _ => cases htype
  | dateTime s => cases b with
    | dateTime t =>
        refine ⟨_, rfl, ?_⟩
        rw [Instant.order, Date.order]
        simp only [Ordering.then_assoc]
        exact compares_cons (Date.compares_orderInt _ _) <|
          compares_cons (Text.compares_orderNat _ _) <| compares_cons (Text.compares_orderNat _ _) <|
            compares_cons (Text.compares_orderNat _ _) <|
              compares_singleton (Text.compares_orderNat _ _)
    | _ => cases htype
  | date d => cases b with
    | date e =>
        refine ⟨_, rfl, ?_⟩
        rw [Date.order, Ordering.then_assoc]
        exact compares_cons (Date.compares_orderInt _ _) <|
          compares_cons (Text.compares_orderNat _ _) <|
            compares_singleton (Text.compares_orderNat _ _)
    | _ => cases htype

/-- What is not above a value is below all values that this one is below. -/
theorem compare_eq_lt_of_ne_gt {o : Ordering} (hnull : a ≠ .null) (hab : a.type? = b.type?)
    (hbc : b.type? = c.type?) (hb : ¬ b.IsNaN) (hc : ¬ c.IsNaN) (ho : a.compare b = some o)
    (hle : o ≠ .gt) (hlt : b.compare c = some .lt) : a.compare c = some .lt := by
  have ha : ¬ a.IsNaN := fun h => by
    rw [compare_of_isNaN h] at ho
    cases ho
  have hbnull : b ≠ .null := fun h => by
    rw [h] at hlt
    cases hlt
  obtain ⟨p, hp, hplaces⟩ := exists_compare_place hnull hab ha hb
  obtain ⟨q, hq, hplaces'⟩ := exists_compare_place hbnull hbc hb hc
  obtain ⟨r, hr, hplaces''⟩ := exists_compare_place hnull (hab.trans hbc) ha hc
  have hpo : p = o := Option.some.inj (hp.symm.trans ho)
  have hqlt : q = .lt := Option.some.inj (hq.symm.trans hlt)
  have hbelow : a.place < c.place :=
    (hplaces.ne_gt.mp (hpo ▸ hle)).trans_lt (hplaces'.eq_lt.mp hqlt)
  rw [hr, hplaces''.eq_lt.mpr hbelow]

end Value

end RecordGate
