import Mathlib.Algebra.Order.Field.Power
import Mathlib.Algebra.Order.Ring.Abs
import Mathlib.Data.Rat.Cast.Order
import Mathlib.Order.Monotone.Odd
import Mathlib.Tactic.Linarith
import Mathlib.Tactic.Positivity
import Mathlib.Tactic.Ring
import RecordGate.Number.Binary64

/-!
# Whole numbers as doubles

A finite double denotes a rational number, a whole multiple of the least one above zero. The position
of doubles on their scale follows the numbers that they denote. The double that is taken for a whole
number of 64 bits is nearest to it among all finite ones: up to 53 binary digits it denotes the
number itself, and with more digits all doubles around it are multiples of one power of two, to which
the number is rounded.
-/

namespace RecordGate.Binary64

/-- The number that a finite value denotes. -/
def toRat (x : Binary64) : ℚ := (if x.negative then -1 else 1) * x.parts.1 * (2 : ℚ) ^ x.parts.2

/-- How often the least magnitude above zero goes into the number of a magnitude. -/
def units (m : ℕ) : ℕ :=
  if m / leadingBit = 0 then m % leadingBit
  else (m % leadingBit + leadingBit) * 2 ^ (m / leadingBit - 1)

/-- The number at a place of the scale of doubles, in units of the least one above zero. -/
def scaled (k : ℤ) : ℤ := k.sign * units k.natAbs

theorem units_of_lt {m : ℕ} (h : m < leadingBit) : units m = m := by
  rw [units, if_pos (Nat.div_eq_of_lt h), Nat.mod_eq_of_lt h]

/-- A significand has its leading bit or is the least one with one bit more, and the magnitudes of an
exponent end where those of the next one begin. -/
theorem units_significand (p : ℕ) {m : ℕ} (hlow : leadingBit ≤ m) (hhigh : m ≤ 2 * leadingBit) :
    units (p * leadingBit + m) = m * 2 ^ p := by
  rcases hhigh.lt_or_eq with h | rfl
  · have hdiv : (p * leadingBit + m) / leadingBit = p + 1 := by
      unfold leadingBit at *
      omega
    have hmod : (p * leadingBit + m) % leadingBit = m - leadingBit := by
      unfold leadingBit at *
      omega
    rw [units, if_neg (by omega), hdiv, hmod, Nat.sub_add_cancel hlow, Nat.add_sub_cancel]
  · rw [← Nat.add_mul, units, Nat.mul_div_cancel _ (by decide), Nat.mul_mod_left, if_neg (by omega),
      Nat.zero_add, show p + 2 - 1 = p + 1 by omega, Nat.pow_succ]
    ring

/-- A magnitude with a leading bit consists of an exponent and a significand. -/
theorem exists_significand {m : ℕ} (h : leadingBit ≤ m) :
    ∃ p r, leadingBit ≤ r ∧ r < 2 * leadingBit ∧ m = p * leadingBit + r := by
  refine ⟨m / leadingBit - 1, m % leadingBit + leadingBit, ?_⟩
  unfold leadingBit at *
  omega

theorem strictMono_units : StrictMono units := by
  refine strictMono_nat_of_lt_succ fun m => ?_
  rcases Nat.lt_or_ge m leadingBit with h | h
  · have hnext : units (m + 1) = m + 1 := by
      rcases Nat.lt_or_ge (m + 1) leadingBit with h' | h'
      · exact units_of_lt h'
      · simpa using units_significand 0 h' (by omega)
    rw [units_of_lt h, hnext]
    exact Nat.lt_succ_self m
  · obtain ⟨p, r, hlow, hhigh, rfl⟩ := exists_significand h
    rw [Nat.add_assoc, units_significand p hlow hhigh.le,
      units_significand p (Nat.le_succ_of_le hlow) hhigh]
    exact Nat.mul_lt_mul_of_pos_right (Nat.lt_succ_self r) (Nat.two_pow_pos p)

theorem scaled_natCast (m : ℕ) : scaled m = units m := by
  cases m with
  | zero => rfl
  | succ m => rw [scaled, Int.sign_natCast_of_ne_zero (by omega), one_mul, Int.natAbs_natCast]

theorem scaled_neg (k : ℤ) : scaled (-k) = -scaled k := by
  rw [scaled, scaled, Int.sign_neg, Int.natAbs_neg, neg_mul]

theorem scaled_lt_scaled {j k : ℤ} (h : j < k) : scaled j < scaled k := by
  have hmono : StrictMono scaled := by
    refine strictMono_of_odd_strictMonoOn_nonneg scaled_neg ?_
    intro j hj k hk h
    lift j to ℕ using hj
    lift k to ℕ using hk
    rw [scaled_natCast, scaled_natCast, Int.ofNat_lt]
    exact strictMono_units (Int.ofNat_lt.mp h)
  exact hmono h

/-- The least value above zero. -/
def least : ℚ := (2 : ℚ) ^ (-1074 : ℤ)

theorem least_pos : 0 < least := zpow_pos two_pos _

theorem two_zpow_eq {e : ℕ} (h : e ≠ 0) : (2 : ℚ) ^ ((e : ℤ) - 1075) = 2 ^ (e - 1) * least := by
  rw [show (e : ℤ) - 1075 = (e - 1 : ℕ) + -1074 by omega, zpow_add₀ two_ne_zero, zpow_natCast]
  rfl

theorem toRat_eq (x : Binary64) :
    x.toRat = (if x.negative then -1 else 1) * (units x.magnitude.val * least) := by
  have hparts : (x.parts.1 : ℚ) * (2 : ℚ) ^ x.parts.2 = units x.magnitude.val * least := by
    unfold parts units
    generalize x.magnitude.val / leadingBit = e
    generalize x.magnitude.val % leadingBit = f
    by_cases h : e = 0
    · rw [if_pos h, if_pos (beq_iff_eq.mpr h)]
      rfl
    · rw [if_neg h, if_neg (by simpa using h)]
      have hpower : (2 : ℚ) ^ (Int.ofNat e - 1075) = 2 ^ (e - 1) * least := two_zpow_eq h
      simp only [hpower, Nat.cast_mul, Nat.cast_pow, Nat.cast_ofNat, mul_assoc]
  rw [toRat, mul_assoc, hparts]

theorem toRat_eq_scaled (x : Binary64) : x.toRat = scaled x.key * least := by
  rw [toRat_eq, key]
  cases x.negative with
  | false => simp [scaled_natCast]
  | true => simp [scaled_neg, scaled_natCast]

/-- The scale of doubles is the order of the numbers that they denote. -/
theorem cmp_toRat (x y : Binary64) : cmp x.toRat y.toRat = cmp x.key y.key := by
  have hmono : StrictMono fun k => (scaled k : ℚ) * least := fun _ _ h =>
    mul_lt_mul_of_pos_right (Int.cast_lt.mpr (scaled_lt_scaled h)) least_pos
  rw [toRat_eq_scaled, toRat_eq_scaled]
  exact hmono.cmp_map_eq x.key y.key

/-- Rounding a quotient moves it by half a unit at most. -/
theorem two_mul_divideToEven_sub (a : ℕ) {b : ℕ} (hb : 0 < b) :
    2 * |(divideToEven a b * b : ℤ) - a| ≤ b := by
  have hsum : (b : ℤ) * (a / b : ℕ) + (a % b : ℕ) = a := by exact_mod_cast Nat.div_add_mod a b
  have hlt : a % b < b := Nat.mod_lt a hb
  unfold divideToEven
  simp only [Bool.or_eq_true, Bool.and_eq_true, Nat.blt_eq, beq_iff_eq]
  generalize a / b = q at *
  generalize a % b = r at *
  split
  · have hdiff : ((q + 1 : ℕ) * b : ℤ) - a = b - r := by
      push_cast
      linarith
    rw [hdiff, abs_of_nonneg (by omega)]
    omega
  · have hdiff : (q * b : ℤ) - a = -r := by linarith
    rw [hdiff, abs_neg, Nat.abs_cast]
    omega

/-- A multiple within half a unit of a number is nearest to it among all multiples. -/
theorem abs_sub_le_of_near {m d n : ℤ} (h : 2 * |m * d - n| ≤ d) (t : ℤ) :
    |m * d - n| ≤ |t * d - n| := by
  by_cases ht : t = m
  · rw [ht]
  · have hone : 1 ≤ |t - m| := Int.one_le_abs (sub_ne_zero.mpr ht)
    have hd : 0 ≤ d := (mul_nonneg two_pos.le (abs_nonneg _)).trans h
    have hstep : d ≤ |t * d - n| + |m * d - n| := by
      calc d ≤ |t - m| * d := le_mul_of_one_le_left hd hone
        _ = |(t * d - n) - (m * d - n)| := by
          rw [sub_sub_sub_cancel_right, ← sub_mul, abs_mul, abs_of_nonneg hd]
        _ ≤ |t * d - n| + |m * d - n| := abs_sub _ _
    linarith

theorem divideToEven_one (a : ℕ) : divideToEven a 1 = a := by
  simp [divideToEven, Nat.mod_one]

section

variable {n : ℕ}

/-- A number reaches as far as its leading digit, which the leading bit of a significand is moved
to. -/
theorem leading_bounds {s e : ℕ} (hn : n ≠ 0) (h : n.log2 + s = 52 + e) :
    leadingBit * 2 ^ e ≤ n * 2 ^ s ∧ n * 2 ^ s < 2 * leadingBit * 2 ^ e := by
  have hleading : leadingBit * 2 ^ e = 2 ^ n.log2 * 2 ^ s := by
    rw [← Nat.pow_add, h, Nat.pow_add]
    rfl
  have hhigh : n < 2 * 2 ^ n.log2 := by
    rw [← Nat.pow_succ']
    exact Nat.lt_log2_self
  rw [Nat.mul_assoc, hleading, ← Nat.mul_assoc]
  exact ⟨Nat.mul_le_mul_right _ (Nat.log2_self_le hn),
    Nat.mul_lt_mul_of_pos_right hhigh (Nat.two_pow_pos s)⟩

theorem short_bounds {s : ℕ} (hn : n ≠ 0) (hs : n.log2 + s = 52) :
    leadingBit ≤ n * 2 ^ s ∧ n * 2 ^ s < 2 * leadingBit := by
  simpa using leading_bounds (e := 0) hn hs

theorem long_bounds {e : ℕ} (hn : n ≠ 0) (he : n.log2 = 52 + e) :
    leadingBit * 2 ^ e ≤ n ∧ n < 2 * leadingBit * 2 ^ e := by
  simpa using leading_bounds (s := 0) hn he

theorem exponentFor_of_short {s : ℕ} (hn : n ≠ 0) (hs : n.log2 + (s + 1) = 52) :
    exponentFor n 1 = Int.negSucc s := by
  have hk : Int.ofNat n.log2 - Int.ofNat (Nat.log2 1) - 52 = Int.negSucc s := by
    rw [show Nat.log2 1 = 0 by decide, Int.negSucc_eq]
    simp only [Int.ofNat_eq_natCast]
    omega
  have hsmall : Nat.blt (n * Nat.pow 2 (s + 1)) (leadingBit * 1) = false := by
    rw [Bool.eq_false_iff, ne_eq, Nat.blt_eq, Nat.not_lt]
    exact (short_bounds hn hs).1
  simp only [exponentFor, hk, hsmall, Bool.false_eq_true, if_false]
  rw [if_neg (by omega)]

theorem exponentFor_of_long {e : ℕ} (hn : n ≠ 0) (he : n.log2 = 52 + e) :
    exponentFor n 1 = Int.ofNat e := by
  have hk : Int.ofNat n.log2 - Int.ofNat (Nat.log2 1) - 52 = Int.ofNat e := by
    rw [show Nat.log2 1 = 0 by decide]
    simp only [Int.ofNat_eq_natCast]
    omega
  have hsmall : Nat.blt n (leadingBit * (1 * Nat.pow 2 e)) = false := by
    rw [Bool.eq_false_iff, ne_eq, Nat.blt_eq, Nat.not_lt, Nat.one_mul]
    exact (long_bounds hn he).1
  simp only [exponentFor, hk, hsmall, Bool.false_eq_true, if_false]
  rw [if_neg (by simp only [Int.ofNat_eq_natCast]; omega)]

/-- The magnitudes of whole numbers of 64 bits end far below infinity. -/
theorem place_lt_infinite {p m : ℕ} (hp : p ≤ 1085) (hm : m ≤ 2 * leadingBit) :
    p * leadingBit + m < infinite := by
  have hinfinite : infinite = 2047 * leadingBit := by decide
  have hpos : 0 < leadingBit := by decide
  have hplaces : p * leadingBit ≤ 1085 * leadingBit := Nat.mul_le_mul_right _ hp
  omega

theorem roundedMagnitude_of_short {s : ℕ} (hn : n ≠ 0) (hs : n.log2 + (s + 1) = 52) :
    roundedMagnitude n 1 = (1073 - s) * leadingBit + n * 2 ^ (s + 1) := by
  have hexponent : (Int.negSucc s + 1074).toNat = 1073 - s := by omega
  have hlt : (1073 - s) * leadingBit + n * 2 ^ (s + 1) < infinite :=
    place_lt_infinite (by omega) (short_bounds hn hs).2.le
  unfold roundedMagnitude
  rw [if_neg (by simpa using hn), exponentFor_of_short hn hs]
  simp only [hexponent, divideToEven_one]
  exact if_neg (by rw [Nat.blt_eq]; exact Nat.not_lt.mpr hlt.le)

/-- The leading bits of a long number, rounded, are a significand or the least one with one bit
more. -/
theorem divideToEven_bounds {e : ℕ} (hn : n ≠ 0) (he : n.log2 = 52 + e) :
    leadingBit ≤ divideToEven n (2 ^ e) ∧ divideToEven n (2 ^ e) ≤ 2 * leadingBit := by
  obtain ⟨hlow, hhigh⟩ := long_bounds hn he
  have hlow' : leadingBit ≤ n / 2 ^ e := (Nat.le_div_iff_mul_le (Nat.two_pow_pos e)).mpr hlow
  have hhigh' : n / 2 ^ e < 2 * leadingBit := (Nat.div_lt_iff_lt_mul (Nat.two_pow_pos e)).mpr hhigh
  unfold divideToEven
  dsimp only
  split <;> omega

theorem roundedMagnitude_of_long {e : ℕ} (hn : n ≠ 0) (he : n.log2 = 52 + e) (hmax : e ≤ 11) :
    roundedMagnitude n 1 = (e + 1074) * leadingBit + divideToEven n (2 ^ e) := by
  have hexponent : (Int.ofNat e + 1074).toNat = e + 1074 := by
    simp only [Int.ofNat_eq_natCast]
    omega
  have hlt : (e + 1074) * leadingBit + divideToEven n (2 ^ e) < infinite :=
    place_lt_infinite (by omega) (divideToEven_bounds hn he).2
  unfold roundedMagnitude
  rw [if_neg (by simpa using hn), exponentFor_of_long hn he]
  simp only [hexponent, Nat.one_mul]
  exact if_neg (by rw [Nat.blt_eq]; exact Nat.not_lt.mpr hlt.le)

/-- A number has fewer digits than a significand, or it is rounded to the last one that is kept. -/
theorem short_or_long (hn : n ≠ 0) (hmax : n < 2 ^ 64) :
    (∃ s, n.log2 + (s + 1) = 52) ∨ ∃ e, n.log2 = 52 + e ∧ e ≤ 11 := by
  have hlog : n.log2 < 64 := (Nat.log2_lt hn).mpr hmax
  rcases Nat.lt_or_ge n.log2 52 with h | h
  · exact .inl ⟨51 - n.log2, by omega⟩
  · exact .inr ⟨n.log2 - 52, by omega, by omega⟩

theorem roundedMagnitude_zero : roundedMagnitude 0 1 = 0 := rfl

theorem roundedMagnitude_lt_infinite (hmax : n < 2 ^ 64) : roundedMagnitude n 1 < infinite := by
  by_cases hn : n = 0
  · rw [hn, roundedMagnitude_zero]
    decide
  rcases short_or_long hn hmax with ⟨s, hs⟩ | ⟨e, he, hmax⟩
  · rw [roundedMagnitude_of_short hn hs]
    exact place_lt_infinite (by omega) (short_bounds hn hs).2.le
  · rw [roundedMagnitude_of_long hn he hmax]
    exact place_lt_infinite (by omega) (divideToEven_bounds hn he).2

/-- Magnitudes from a significand and an exponent on are whole multiples of what its last bit counts
there. -/
theorem two_pow_dvd_units {p m : ℕ} (h : leadingBit * 2 ^ p ≤ units m) : 2 ^ p ∣ units m := by
  rcases Nat.lt_or_ge m leadingBit with hm | hm
  · rw [units_of_lt hm] at h
    have hle : leadingBit * 1 ≤ leadingBit * 2 ^ p := Nat.mul_le_mul_left _ (Nat.one_le_two_pow)
    omega
  · obtain ⟨q, r, hlow, hhigh, rfl⟩ := exists_significand hm
    rw [units_significand q hlow hhigh.le] at h ⊢
    have hlt : leadingBit * 2 ^ p < leadingBit * 2 ^ (q + 1) := by
      calc leadingBit * 2 ^ p ≤ r * 2 ^ q := h
        _ < 2 * leadingBit * 2 ^ q := Nat.mul_lt_mul_of_pos_right hhigh (Nat.two_pow_pos q)
        _ = leadingBit * 2 ^ (q + 1) := by ring
    have hpq : p < q + 1 :=
      (Nat.pow_lt_pow_iff_right (by decide)).mp (Nat.lt_of_mul_lt_mul_left hlt)
    exact (Nat.pow_dvd_pow 2 (by omega)).mul_left r

/-- The binary places of a double behind the point. -/
def places : ℕ := 1074

/-- How many units there are in the number one. -/
def unity : ℕ := 2 ^ places

theorem units_of_short {s : ℕ} (hn : n ≠ 0) (hs : n.log2 + (s + 1) = 52) :
    units (roundedMagnitude n 1) = n * unity := by
  obtain ⟨hlow, hhigh⟩ := short_bounds hn hs
  have hplaces : s + 1 + (1073 - s) = places := by
    unfold places
    omega
  rw [roundedMagnitude_of_short hn hs, units_significand _ hlow hhigh.le, Nat.mul_assoc,
    ← Nat.pow_add, hplaces, unity]

theorem units_of_long {e : ℕ} (hn : n ≠ 0) (he : n.log2 = 52 + e) (hmax : e ≤ 11) :
    units (roundedMagnitude n 1) = divideToEven n (2 ^ e) * 2 ^ e * unity := by
  obtain ⟨hlow, hhigh⟩ := divideToEven_bounds hn he
  have hplaces : e + 1074 = e + places := rfl
  rw [roundedMagnitude_of_long hn he hmax, units_significand _ hlow hhigh, hplaces, Nat.pow_add,
    unity, Nat.mul_assoc]

/-- The magnitude taken for a whole number of 64 bits is nearest to it, counted in units. -/
theorem units_roundedMagnitude (hmax : n < 2 ^ 64) (m : ℕ) :
    |(units (roundedMagnitude n 1) : ℤ) - n * unity| ≤ |(units m : ℤ) - n * unity| := by
  by_cases hn : n = 0
  · have hzero : units (roundedMagnitude 0 1) = 0 := units_of_lt (by decide)
    rw [hn, hzero, Nat.cast_zero, zero_mul, sub_self, abs_zero]
    exact abs_nonneg _
  rcases short_or_long hn hmax with ⟨s, hs⟩ | ⟨e, he, hmax⟩
  · rw [units_of_short hn hs, Nat.cast_mul, sub_self, abs_zero]
    exact abs_nonneg _
  · have hnear : 2 * |(divideToEven n (2 ^ e) : ℤ) * (2 ^ e : ℕ) - n| ≤ (2 ^ e : ℕ) :=
      two_mul_divideToEven_sub n (Nat.two_pow_pos e)
    have hscale (t : ℤ) : |t * (2 ^ e : ℕ) * unity - n * unity| = |t * (2 ^ e : ℕ) - n| * unity := by
      rw [← sub_mul, abs_mul, Nat.abs_cast]
    have hpower : 2 ^ (e + places) = 2 ^ e * unity := Nat.pow_add 2 e places
    rw [units_of_long hn he hmax, Nat.cast_mul, Nat.cast_mul, hscale]
    by_cases hm : leadingBit * 2 ^ (e + places) ≤ units m
    · -- from the leading digit on there are only multiples of the last one that is kept
      obtain ⟨t, ht⟩ := two_pow_dvd_units hm
      have hunits : (units m : ℤ) = t * (2 ^ e : ℕ) * unity := by
        rw [ht, hpower]
        push_cast
        ring
      rw [hunits, hscale]
      exact mul_le_mul_of_nonneg_right (abs_sub_le_of_near hnear t) (Int.natCast_nonneg _)
    · -- below it every number is farther away than the least one of that length
      have hlow : (leadingBit * 2 ^ e * unity : ℤ) ≤ n * unity := by
        exact_mod_cast Nat.mul_le_mul_right unity (long_bounds hn he).1
      have hbelow : (units m : ℤ) < leadingBit * 2 ^ e * unity := by
        rw [Nat.not_le, hpower, ← Nat.mul_assoc] at hm
        exact_mod_cast hm
      calc |(divideToEven n (2 ^ e) : ℤ) * (2 ^ e : ℕ) - n| * unity
          ≤ |(leadingBit : ℤ) * (2 ^ e : ℕ) - n| * unity :=
            mul_le_mul_of_nonneg_right (abs_sub_le_of_near hnear leadingBit) (Int.natCast_nonneg _)
        _ = n * unity - leadingBit * 2 ^ e * unity := by
          rw [← hscale, Nat.cast_pow, Nat.cast_ofNat, abs_of_nonpos (by linarith), neg_sub]
        _ ≤ n * unity - units m := by linarith
        _ = |(units m : ℤ) - n * unity| := by
          rw [abs_of_nonpos (by linarith), neg_sub]

/-- Up to 53 binary digits nothing is lost. -/
theorem units_of_le (h : n ≤ 2 ^ 53) : units (roundedMagnitude n 1) = n * unity := by
  by_cases hn : n = 0
  · rw [hn, Nat.zero_mul]
    exact units_of_lt (by decide)
  rcases h.lt_or_eq with hlt | rfl
  · rcases short_or_long hn (by omega) with ⟨s, hs⟩ | ⟨e, he, hmax⟩
    · exact units_of_short hn hs
    · have hlog : n.log2 < 53 := (Nat.log2_lt hn).mpr hlt
      obtain rfl : e = 0 := by omega
      rw [units_of_long hn he hmax, Nat.pow_zero, divideToEven_one, Nat.mul_one]
  · rw [units_of_long hn (e := 1) Nat.log2_two_pow (by decide),
      show divideToEven (2 ^ 53) (2 ^ 1) * 2 ^ 1 = 2 ^ 53 by decide]

end

section

variable {a b : ℤ}

theorem unity_mul_least : (unity : ℚ) * least = 1 := by
  have hleast : least = ((2 : ℚ) ^ places)⁻¹ := by
    rw [← zpow_natCast, ← zpow_neg]
    rfl
  rw [hleast, unity, Nat.cast_pow, Nat.cast_ofNat, mul_inv_cancel₀ (by positivity)]

theorem abs_units_mul_sub (m n : ℕ) :
    |(units m * least : ℚ) - n| = |(units m : ℤ) - n * unity| * least := by
  have hscaled : (units m * least : ℚ) - n = ((units m : ℤ) - n * unity : ℤ) * least := by
    push_cast
    rw [sub_mul, mul_assoc (n : ℚ), unity_mul_least, mul_one]
  rw [hscaled, abs_mul, abs_of_pos least_pos]
  push_cast
  rfl

theorem abs_toRat (x : Binary64) : |x.toRat| = units x.magnitude.val * least := by
  have hnonneg : 0 ≤ (units x.magnitude.val * least : ℚ) :=
    mul_nonneg (Nat.cast_nonneg _) least_pos.le
  rw [toRat_eq]
  cases x.negative <;> simp [abs_of_nonneg hnonneg]

theorem magnitude_ofInt (h : a.natAbs < 2 ^ 64) :
    (ofInt a).magnitude.val = roundedMagnitude a.natAbs 1 := by
  have hlt : roundedMagnitude a.natAbs 1 < signBit :=
    (roundedMagnitude_lt_infinite h).trans (by decide)
  exact Nat.mod_eq_of_lt hlt

theorem isFinite_ofInt (h : a.natAbs < 2 ^ 64) : (ofInt a).isFinite = true := by
  rw [isFinite, magnitude_ofInt h, Nat.blt_eq]
  exact roundedMagnitude_lt_infinite h

theorem abs_toRat_ofInt_sub (h : a.natAbs < 2 ^ 64) :
    |(ofInt a).toRat - a| = |(units (roundedMagnitude a.natAbs 1) * least : ℚ) - a.natAbs| := by
  have hsign : (ofInt a).negative = decide (a < 0) := rfl
  rw [toRat_eq, magnitude_ofInt h, hsign]
  rcases lt_or_ge a 0 with hneg | hnonneg
  · have habs : (a : ℚ) = -(a.natAbs : ℚ) := by
      rw [Nat.cast_natAbs, abs_of_neg hneg, Int.cast_neg, neg_neg]
    rw [if_pos (decide_eq_true hneg), habs, neg_one_mul, sub_neg_eq_add, neg_add_eq_sub, abs_sub_comm]
  · have habs : (a : ℚ) = (a.natAbs : ℚ) := by
      rw [Nat.cast_natAbs, abs_of_nonneg hnonneg]
    rw [if_neg (by simpa using hnonneg), ← habs, one_mul]

/-- The double taken for a whole number of 64 bits is nearest to it among all doubles. -/
theorem abs_ofInt_sub_le (h : a.natAbs < 2 ^ 64) (y : Binary64) :
    |(ofInt a).toRat - a| ≤ |y.toRat - a| := by
  have hunits := units_roundedMagnitude h y.magnitude.val
  calc |(ofInt a).toRat - a|
      = |(units (roundedMagnitude a.natAbs 1) : ℤ) - a.natAbs * unity| * least := by
        rw [abs_toRat_ofInt_sub h, abs_units_mul_sub]
    _ ≤ |(units y.magnitude.val : ℤ) - a.natAbs * unity| * least :=
        mul_le_mul_of_nonneg_right (by exact_mod_cast hunits) least_pos.le
    _ = |(|y.toRat| - |(a : ℚ)|)| := by
        rw [abs_toRat, ← abs_units_mul_sub, Nat.cast_natAbs, Int.cast_abs]
    _ ≤ |y.toRat - a| := abs_abs_sub_abs_le_abs_sub _ _

theorem toRat_ofInt_of_eq (h : a.natAbs < 2 ^ 64) {y : Binary64} (hy : y.toRat = a) :
    (ofInt a).toRat = a := by
  have hnear := abs_ofInt_sub_le h y
  rw [hy, sub_self, abs_zero] at hnear
  exact sub_eq_zero.mp (abs_nonpos_iff.mp hnear)

theorem toRat_ofInt_of_le (h : a.natAbs ≤ 2 ^ 53) : (ofInt a).toRat = a := by
  have hmax : a.natAbs < 2 ^ 64 := h.trans_lt (by decide)
  have hnear := abs_toRat_ofInt_sub hmax
  rw [abs_units_mul_sub, units_of_le h, Nat.cast_mul, sub_self, abs_zero, Int.cast_zero,
    zero_mul] at hnear
  exact sub_eq_zero.mp (abs_eq_zero.mp hnear)

/-- Rounding does not bring a number past a double. -/
theorem lt_of_ofInt_lt (h : a.natAbs < 2 ^ 64) {y : Binary64} (hlt : (ofInt a).toRat < y.toRat) :
    (a : ℚ) < y.toRat := by
  by_contra hle
  rw [not_lt] at hle
  have hnear := abs_ofInt_sub_le h y
  rw [abs_sub_comm _ (a : ℚ), abs_sub_comm _ (a : ℚ), abs_of_pos (by linarith),
    abs_of_nonneg (by linarith)] at hnear
  linarith

theorem lt_of_lt_ofInt (h : a.natAbs < 2 ^ 64) {y : Binary64} (hlt : y.toRat < (ofInt a).toRat) :
    y.toRat < a := by
  by_contra hle
  rw [not_lt] at hle
  have hnear := abs_ofInt_sub_le h y
  rw [abs_of_pos (by linarith), abs_of_nonneg (by linarith)] at hnear
  linarith

theorem ofInt_mono (ha : a.natAbs < 2 ^ 64) (hb : b.natAbs < 2 ^ 64) (hab : a ≤ b) :
    (ofInt a).toRat ≤ (ofInt b).toRat := by
  by_contra hlt
  rw [not_le] at hlt
  have hle : (a : ℚ) ≤ b := by exact_mod_cast hab
  have habove : (b : ℚ) < (ofInt a).toRat := lt_of_ofInt_lt hb hlt
  have hbelow : (ofInt b).toRat < a := lt_of_lt_ofInt ha hlt
  -- both numbers lie between the two doubles, and each is nearer to the one on the other side
  have hnear := abs_ofInt_sub_le ha (ofInt b)
  have hnear' := abs_ofInt_sub_le hb (ofInt a)
  rw [abs_of_nonneg (by linarith), abs_of_nonpos (by linarith)] at hnear
  rw [abs_of_nonpos (by linarith), abs_of_nonneg (by linarith)] at hnear'
  obtain rfl : a = b := by
    have hba : (b : ℚ) ≤ a := by linarith
    exact le_antisymm hab (by exact_mod_cast hba)
  exact lt_irrefl _ hlt

end

end RecordGate.Binary64
