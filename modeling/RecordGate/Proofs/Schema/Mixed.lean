import RecordGate.Proofs.Number.Rounding
import RecordGate.Proofs.Schema.Order

/-!
# Integers among floats

Two integers are compared as they are, and so are two finite floats. An integer meets a float as the
double nearest to it. So an integer that is no double may be found equal to a float that it differs
from, as may several integers with one nearest double. It is never found on the wrong side of a
float, and what is below a value is below all that is above it, whatever is an integer and what a
float.
-/

namespace RecordGate

theorem Integer64.natAbs_lt (n : Integer64) : n.val.natAbs < 2 ^ 64 := by
  have hlow := n.low_le
  have hhigh := n.le_high
  omega

theorem Binary64.compare_of_isFinite {x y : Binary64} (hx : x.isFinite = true)
    (hy : y.isFinite = true) : x.compare y = some (cmp x.toRat y.toRat) := by
  rw [compare_eq_cmp (isNaN_of_isFinite hx) (isNaN_of_isFinite hy), cmp_toRat]

namespace Value

/-- A value is an integer or a finite float. -/
inductive Numeric : Value → Prop
  | integer (n : Integer64) : Numeric (integer n)
  | float {x : Binary64} (finite : x.isFinite = true) : Numeric (float x)

/-- The double as which a number meets one of the other type. -/
def toDouble : Value → Binary64
  | .integer n => .ofInt n.val
  | .float x => x
  | _ => .zero

variable {u v w : Value}

/-- A float is compared with all numbers as the doubles that they are taken for. -/
theorem compare_float {x : Binary64} (hx : x.isFinite = true) (hv : v.Numeric) :
    (float x).compare v = some (cmp x.toRat v.toDouble.toRat) := by
  cases hv with
  | integer n => exact Binary64.compare_of_isFinite hx (Binary64.isFinite_ofInt n.natAbs_lt)
  | float hy => exact Binary64.compare_of_isFinite hx hy

/-- Below means below as doubles, or below as integers. -/
theorem compare_eq_lt_iff (hu : u.Numeric) (hv : v.Numeric) :
    u.compare v = some .lt ↔ u.toDouble.toRat < v.toDouble.toRat ∨
      ∃ m n, u = integer m ∧ v = integer n ∧ m.val < n.val := by
  cases hu with
  | integer m =>
      cases hv with
      | integer n =>
          have hcompare : (integer m).compare (integer n) = some (cmp m.val n.val) := rfl
          rw [hcompare, Option.some_inj, cmp_eq_lt_iff]
          refine ⟨fun h => .inr ⟨m, n, rfl, rfl, h⟩, ?_⟩
          rintro (hlt | ⟨_, _, ⟨⟩, ⟨⟩, hlt⟩)
          · by_contra hle
            exact absurd hlt (not_lt.mpr
              (Binary64.ofInt_mono n.natAbs_lt m.natAbs_lt (not_lt.mp hle)))
          · exact hlt
      | @float y hy =>
          have hcompare : (integer m).compare (float y) =
              some (cmp (integer m).toDouble.toRat (float y).toDouble.toRat) :=
            Binary64.compare_of_isFinite (Binary64.isFinite_ofInt m.natAbs_lt) hy
          rw [hcompare, Option.some_inj, cmp_eq_lt_iff]
          exact (or_iff_left (by simp)).symm
  | @float x hx =>
      rw [compare_float hx hv, Option.some_inj, cmp_eq_lt_iff]
      exact (or_iff_left (by simp)).symm

/-- Among integers the doubles taken for them follow their order. -/
theorem toRat_le_of_compare_eq_lt (hu : u.Numeric) (hv : v.Numeric)
    (h : u.compare v = some .lt) : u.toDouble.toRat ≤ v.toDouble.toRat := by
  rcases (compare_eq_lt_iff hu hv).mp h with hlt | ⟨m, n, rfl, rfl, hlt⟩
  · exact hlt.le
  · exact Binary64.ofInt_mono m.natAbs_lt n.natAbs_lt hlt.le

theorem compare_eq_lt_trans (hu : u.Numeric) (hv : v.Numeric) (hw : w.Numeric)
    (huv : u.compare v = some .lt) (hvw : v.compare w = some .lt) : u.compare w = some .lt := by
  have hle := toRat_le_of_compare_eq_lt hu hv huv
  have hle' := toRat_le_of_compare_eq_lt hv hw hvw
  rw [compare_eq_lt_iff hu hw]
  rcases (compare_eq_lt_iff hu hv).mp huv with hlt | ⟨m, n, rfl, rfl, hlt⟩
  · exact .inl (hlt.trans_le hle')
  · rcases (compare_eq_lt_iff hv hw).mp hvw with hlt' | ⟨n', k, hn, rfl, hlt'⟩
    · exact .inl (hle.trans_lt hlt')
    · cases hn
      exact .inr ⟨m, k, rfl, rfl, hlt.trans hlt'⟩

/-- An integer meets a finite float as the double nearest to it. From the other side the order is
reversed. The integer is the number of that double where it is one of any double, as up to 53 binary
digits; otherwise the two may be found equal that are not, but what is found below or above is so.
Along numbers of both types what is below a value that is below another is below that one. -/
theorem compare_integer_float (a : Integer64) {x : Binary64} (hx : x.isFinite = true) :
    ∃ o, (integer a).compare (float x) = some o ∧ (float x).compare (integer a) = some o.swap ∧
      o = cmp (Binary64.ofInt a.val).toRat x.toRat ∧
      (∀ y : Binary64, y.isFinite = true →
        |(Binary64.ofInt a.val).toRat - a.val| ≤ |y.toRat - a.val|) ∧
      (a.val.natAbs ≤ 2 ^ 53 ∨ (∃ y : Binary64, y.isFinite = true ∧ y.toRat = a.val) →
        o = cmp (a.val : ℚ) x.toRat) ∧
      (o = .eq ∨ o = cmp (a.val : ℚ) x.toRat) ∧
      ∀ u v w : Value, u.Numeric → v.Numeric → w.Numeric → u.compare v = some .lt →
        v.compare w = some .lt → u.compare w = some .lt := by
  have hmax := a.natAbs_lt
  have hfinite := Binary64.isFinite_ofInt hmax
  refine ⟨_, Binary64.compare_of_isFinite hfinite hx, ?_, rfl, ?_, ?_, ?_, ?_⟩
  · rw [cmp_swap]
    exact compare_float hx (.integer a)
  · exact fun y _ => Binary64.abs_ofInt_sub_le hmax y
  · intro h
    rcases h with hle | ⟨y, -, hy⟩
    · rw [Binary64.toRat_ofInt_of_le hle]
    · rw [Binary64.toRat_ofInt_of_eq hmax hy]
  · rcases lt_trichotomy (Binary64.ofInt a.val).toRat x.toRat with h | h | h
    · exact .inr (by rw [h.cmp_eq_lt, (Binary64.lt_of_ofInt_lt hmax h).cmp_eq_lt])
    · exact .inl h.cmp_eq_eq
    · exact .inr (by rw [h.cmp_eq_gt, (Binary64.lt_of_lt_ofInt hmax h).cmp_eq_gt])
  · exact fun u v w hu hv hw => compare_eq_lt_trans hu hv hw

/-- An odd number half way between two doubles is above the lower one. -/
theorem compare_integer_float_halfway :
    ∃ x : Binary64, FieldType.float.value? "9007199254740994" = some (float x) ∧
      (float x).compare (integer ⟨9007199254740995, by decide, by decide⟩) = some .lt ∧
      x.toRat < 9007199254740995 := by
  let a : Integer64 := ⟨9007199254740995, by decide, by decide⟩
  let x : Binary64 := Binary64.ofInt 9007199254740994
  obtain ⟨o, ho, hswap, -, -, -, hexact, -⟩ := compare_integer_float a (x := x) (by decide)
  obtain rfl : o = .gt := Option.some.inj (ho.symm.trans (by decide))
  have habove := hexact.resolve_left (by decide)
  exact ⟨x, by decide, hswap, (cmp_eq_gt_iff _ _).mp habove.symm⟩

/-- Two different integers are found equal to one float. -/
theorem exists_compare_eq_of_ne :
    ∃ (a b : Integer64) (x : Binary64),
      FieldType.integer.value? "9007199254740993" = some (integer a) ∧
      FieldType.integer.value? "9007199254740992" = some (integer b) ∧
      FieldType.float.value? "9007199254740992" = some (float x) ∧
      x.isFinite = true ∧ x.toRat = b.val ∧ x.toRat < a.val ∧
      (integer a).compare (float x) = some .eq ∧ (float x).compare (integer b) = some .eq ∧
      (integer a).compare (integer b) = some .gt := by
  let a : Integer64 := ⟨9007199254740993, by decide, by decide⟩
  let b : Integer64 := ⟨9007199254740992, by decide, by decide⟩
  have hnumber : (Binary64.ofInt b.val).toRat = b.val := Binary64.toRat_ofInt_of_le (by decide)
  refine ⟨a, b, Binary64.ofInt b.val, by decide, by decide, by decide, by decide, hnumber, ?_,
    by decide, by decide, by decide⟩
  rw [hnumber, Int.cast_lt]
  decide

end Value

end RecordGate
