import Mathlib.Data.List.TakeWhile
import Mathlib.Tactic.SplitIfs
import RecordGate.Proofs.Calendar.Written

/-!
# Instants that people type

Every instant that is read from a typed text is one of the calendar, whatever the offset of its
clock. Where its year has four digits it is read back from the form in which it is shown, which has
no blanks.
-/

namespace RecordGate

namespace Date

variable {d e : Date}

theorem valid_iff : d.Valid ↔
    -262143 ≤ d.year ∧ d.year ≤ 262142 ∧ 1 ≤ d.month ∧ d.month ≤ 12 ∧ 1 ≤ d.day ∧
      d.day ≤ daysInMonth d.year d.month := by
  unfold Valid ofParts? firstYear lastYear
  split_ifs with hparts
  · exact iff_of_true rfl hparts
  · exact iff_of_false (by simp) hparts

theorem valid_of_ofParts? {year : Int} {month day : Nat} (h : ofParts? year month day = some d) :
    d.Valid := by
  unfold ofParts? at h
  split_ifs at h with hparts
  cases h
  exact valid_iff.mpr hparts

theorem le_daysInMonth (year : Int) (month : Nat) : 28 ≤ daysInMonth year month := by
  unfold daysInMonth
  cases isLeapYear year <;> split <;> decide

theorem daysInMonth_december (year : Int) : daysInMonth year 12 = 31 := rfl

/-- The day after a day of the calendar is one of the calendar. -/
theorem Valid.next? (h : d.Valid) (hnext : d.next? = some e) : e.Valid := by
  obtain ⟨hfirst, hlast, hmonth, hmonth', hday, hday'⟩ := valid_iff.mp h
  have hlong := le_daysInMonth d.year (d.month + 1)
  have hlong' := le_daysInMonth (d.year + 1) 1
  unfold Date.next? at hnext
  split_ifs at hnext with hsame hsecond hthird
  · cases hnext
    exact valid_iff.mpr ⟨hfirst, hlast, hmonth, hmonth', by simp, hsame⟩
  · cases hnext
    exact valid_iff.mpr ⟨hfirst, hlast, by simp, hsecond, by simp, by simp only; omega⟩
  · cases hnext
    exact valid_iff.mpr ⟨by simp only; omega, hthird, by simp, by simp, by simp, by simp only; omega⟩

/-- The day before a day of the calendar is one of the calendar. -/
theorem Valid.previous? (h : d.Valid) (hprevious : d.previous? = some e) : e.Valid := by
  obtain ⟨hfirst, hlast, hmonth, hmonth', hday, hday'⟩ := valid_iff.mp h
  have hlong := le_daysInMonth d.year (d.month - 1)
  unfold Date.previous? at hprevious
  split_ifs at hprevious with hsame hsecond hthird
  · cases hprevious
    exact valid_iff.mpr ⟨hfirst, hlast, hmonth, hmonth', by simp only; omega, by simp only; omega⟩
  · cases hprevious
    exact valid_iff.mpr ⟨hfirst, hlast, by simp only; omega, by simp only; omega, by simp only; omega,
      by simp⟩
  · cases hprevious
    refine valid_iff.mpr ⟨hthird, by simp only; omega, by simp, by simp, by simp, ?_⟩
    simp only [daysInMonth_december, Nat.le_refl]

end Date

namespace Calendar

variable {s r : List Char} {t : Instant} {date : Date} {hour minute second nanos : Nat}
  {time : Nat × Nat} {ahead : Int}

/-- A time of day and a part of a second: a leap second follows the last second of a minute only. -/
structure TimeOfDay (time : Nat × Nat) : Prop where
  second_lt : time.1 < 86400
  nanos_lt : time.2 < 2000000000
  leap : 1000000000 ≤ time.2 → time.1 % 60 = 59

theorem timeOfDay_of_timeOfDay? (hnanos : nanos < 1000000000)
    (h : timeOfDay? hour minute second nanos = some time) : TimeOfDay time := by
  unfold timeOfDay? at h
  split_ifs at h with hbounds hleap
  · cases h
    exact ⟨by simp only; omega, by simp only; omega, by simp only; omega⟩
  · cases h
    exact ⟨by simp only; omega, by simp only; omega, by simp only; omega⟩

/-- What two readers in a row read. This is stated of `>>=`, since for `Option.bind` a congruence
lemma makes the simplifier visit the rest of a long chain again for each of its links. -/
theorem bind_eq_some_iff {α β : Type} {x : Option α} {f : α → Option β} {b : β} :
    (x >>= f) = some b ↔ ∃ a, x = some a ∧ f a = some b :=
  Option.bind_eq_some_iff

/-- A fraction is below one second. -/
theorem fraction_lt (h : fraction s = some (nanos, r)) : nanos < 1000000000 := by
  unfold fraction at h
  split at h
  · rename_i s
    simp only [Option.ite_none_left_eq_some, Option.some.injEq, Prod.mk.injEq] at h
    obtain ⟨-, rfl, -⟩ := h
    have hkept (c : Char) (hc : c ∈ (s.takeWhile isDigit).take 9) : isDigit c = true :=
      List.mem_takeWhile_imp (List.mem_of_mem_take hc)
    have hall (c : Char) (hc : c ∈ (s.takeWhile isDigit).take 9 ++
        List.replicate (9 - ((s.takeWhile isDigit).take 9).length) '0') : isDigit c = true := by
      rcases List.mem_append.mp hc with hc | hc
      · exact hkept c hc
      · rw [(List.mem_replicate.mp hc).2]
        decide
    have hlt := digitsFrom_lt hall 0
    have hlength : ((s.takeWhile isDigit).take 9).length ≤ 9 := List.length_take_le _ _
    rw [List.length_append, List.length_replicate, Nat.add_sub_cancel' hlength] at hlt
    simpa using hlt
  · cases h
    decide

/-- The offset of a clock is a whole number of minutes. -/
theorem offset_mod {separator : Reader Unit} (h : offset separator s = some (ahead, r)) :
    ahead % 60 = 0 := by
  unfold offset at h
  split at h
  · cases h
    rfl
  · cases h
    rfl
  · simp only [bind_eq_some_iff, Option.ite_none_right_eq_some, Option.pure_def,
      Option.some.injEq, Prod.mk.injEq] at h
    obtain ⟨-, ⟨hours, s₁⟩, -, ⟨_, s₂⟩, -, ⟨minutes, s₃⟩, -, -, rfl, -⟩ := h
    split_ifs <;> simp only [Int.ofNat_eq_natCast] <;> omega
  · cases h

theorem TimeOfDay.valid (htime : TimeOfDay time) (hdate : date.Valid) (hlt : second < 86400)
    (hmod : second % 60 = time.1 % 60) : Instant.Valid ⟨date, second, time.2⟩ :=
  ⟨hdate, hlt, htime.nanos_lt, fun hlong => hmod.trans (htime.leap hlong)⟩

/-- A clock that is whole minutes ahead of universal time shows instants of the calendar. -/
theorem valid_of_moment? (hdate : date.Valid) (htime : TimeOfDay time) (hahead : ahead % 60 = 0)
    (h : moment? date time ahead = some t) : t.Valid := by
  have hsecond := htime.second_lt
  unfold moment? Instant.ofLocal? at h
  simp only [Int.ofNat_eq_natCast] at h
  split_ifs at h with hbounds hbefore hafter
  · obtain ⟨d, hd, rfl⟩ := Option.map_eq_some_iff.mp h
    exact htime.valid (hdate.previous? hd) (by omega) (by omega)
  · obtain ⟨d, hd, rfl⟩ := Option.map_eq_some_iff.mp h
    exact htime.valid (hdate.next? hd) (by omega) (by omega)
  · cases h
    exact htime.valid hdate (by omega) (by omega)

theorem valid_of_strict? (h : strict? s = some t) : t.Valid := by
  simp only [strict?, bind_eq_some_iff, Option.ite_none_right_eq_some] at h
  obtain ⟨⟨y, s₁⟩, -, ⟨_, s₂⟩, -, ⟨m, s₃⟩, -, ⟨_, s₄⟩, -, ⟨d, s₅⟩, -, ⟨_, s₆⟩, -, ⟨hour, s₇⟩, -,
    ⟨_, s₈⟩, -, ⟨minute, s₉⟩, -, ⟨_, s₁₀⟩, -, ⟨second, s₁₁⟩, -, ⟨nanos, s₁₂⟩, hfraction,
    ⟨ahead, s₁₃⟩, hoffset, date, hdate, time, htime, -, hmoment⟩ := h
  exact valid_of_moment? (Date.valid_of_ofParts? hdate)
    (timeOfDay_of_timeOfDay? (fraction_lt hfraction) htime) (offset_mod hoffset) hmoment

theorem valid_of_dayTime? (h : dayTime? s = some t) : t.Valid := by
  simp only [dayTime?, bind_eq_some_iff, Option.ite_none_right_eq_some, Option.pure_def,
    Option.some.injEq] at h
  obtain ⟨⟨_, s₁⟩, -, ⟨_, s₂⟩, -, date, hdate, time, htime, -, rfl⟩ := h
  obtain ⟨hsecond, hnanos, hleap⟩ := timeOfDay_of_timeOfDay? (by decide) htime
  exact ⟨Date.valid_of_ofParts? hdate, hsecond, hnanos, hleap⟩

theorem valid_of_day? {d : Date} (h : day? s = some d) : d.Valid := by
  simp only [day?, bind_eq_some_iff, Option.ite_none_right_eq_some] at h
  obtain ⟨⟨_, s₁⟩, -, -, hdate⟩ := h
  exact Date.valid_of_ofParts? hdate

/-- What people type for an instant is read as one of the calendar. -/
theorem valid_of_typed? (h : typed? s = some t) : t.Valid := by
  simp only [typed?, Option.or_eq_some_iff, Option.or_eq_none_iff, Option.map_eq_some_iff] at h
  obtain (h | ⟨-, h⟩) | ⟨-, d, hd, rfl⟩ := h
  · exact valid_of_strict? h
  · exact valid_of_dayTime? h
  · exact ⟨valid_of_day? hd, by simp, by simp, by simp⟩

/-- A day is read from its written form, for all years. -/
theorem day?_text {d : Date} (h : d.Valid) : day? d.text.toList = some d := by
  obtain ⟨-, -, hmonth, hday⟩ := h.bounds
  have hparts : dayParts id (d.text.toList ++ []) = some ((d.year, d.month, d.day), []) :=
    dayParts_text (fun _ => rfl) (by omega) (by omega) endsNumber_nil
  rw [List.append_nil] at hparts
  rw [day?, hparts]
  exact h

/-- A year of four digits is read from its written form. -/
theorem number_yearText {y : Int} (hfirst : 0 ≤ y) (hlast : y ≤ 9999) (hr : EndsNumber r) :
    number 4 4 ((Date.yearText y).toList ++ r) = some (y.natAbs, r) := by
  rw [Date.yearText, if_pos ⟨hfirst, hlast⟩]
  exact number_padded (by decide) (by omega) (by decide) (by decide) hr

/-- An instant of a year of four digits is read from its written form, in the strict reading. -/
theorem strict?_text (h : t.Valid) (hfirst : 0 ≤ t.date.year) (hlast : t.date.year ≤ 9999) :
    strict? t.text.toList = some t := by
  have hhyphen (s : List Char) : EndsNumber ('-' :: s) := endsNumber_cons (by decide) s
  have hcolon (s : List Char) : EndsNumber (':' :: s) := endsNumber_cons (by decide) s
  obtain ⟨-, -, hmonth, hday⟩ := h.date.bounds
  have hbound := h.second_lt
  obtain ⟨second, nanos, hsecond, hnanos, htext, htime⟩ := timeOfDay?_written h
  have htwo {n : Nat} {r : List Char} (hn : n < 100) (hr : EndsNumber r) :
      number 2 2 ((padded 2 n).toList ++ r) = some (n, r) :=
    number_padded (by decide) hn (by decide) (by decide) hr
  have hfraction := fraction_fractionText (r := "00:00".toList) hnanos (c := '+') (by decide)
    (by decide)
  have hends := endsNumber_fractionText nanos
    (endsNumber_cons (by decide : isDigit '+' = false) "00:00".toList)
  have hdate (r : List Char) : t.date.text.toList ++ ('T' :: r) =
      (Date.yearText t.date.year).toList ++ '-' ::
        ((padded 2 t.date.month).toList ++ '-' :: ((padded 2 t.date.day).toList ++ 'T' :: r)) := by
    simp [Date.text]
  have hoffset : offset (literal ':') ('+' :: "00:00".toList) = some (0, []) := rfl
  have hplus : "+00:00".toList = '+' :: "00:00".toList := rfl
  have hvalid : Date.ofParts? (t.date.year.natAbs : Int) t.date.month t.date.day = some t.date := by
    rw [Int.natAbs_of_nonneg hfirst]
    exact h.date
  have hletter (s : List Char) : EndsNumber ('T' :: s) := endsNumber_cons (by decide) s
  rw [Instant.text, htext, hplus, hdate]
  simp only [strict?, bind_eq_some_iff]
  exact ⟨_, number_yearText hfirst hlast (hhyphen _), _, rfl, _, htwo (by omega) (hhyphen _), _, rfl,
    _, htwo (by omega) (hletter _), _, rfl, _, htwo (by omega) (hcolon _), _, rfl,
    _, htwo (by omega) (hcolon _), _, rfl, _, htwo (by omega) hends, _, hfraction, _, hoffset,
    _, hvalid, _, htime, moment?_zero hbound⟩

end Calendar

section Blanks

theorem unblank_padded (width n : Nat) : ∀ c ∈ (padded width n).toList, Text.isBlank c = false :=
  fun _ hc => isBlank_of_isDigit (isDigit_of_mem_padded hc)

theorem Date.unblank_yearText (year : Int) :
    ∀ c ∈ (yearText year).toList, Text.isBlank c = false := by
  unfold yearText
  split_ifs
  · exact unblank_padded _ _
  · simpa only [String.toList_append, List.forall_mem_append]
      using ⟨by simp [Text.isBlank], unblank_padded _ _⟩
  · simpa only [String.toList_append, List.forall_mem_append]
      using ⟨by simp [Text.isBlank], unblank_padded _ _⟩

theorem Date.unblank_text (d : Date) : ∀ c ∈ d.text.toList, Text.isBlank c = false := by
  have hhyphen : ∀ c ∈ "-".toList, Text.isBlank c = false := by simp [Text.isBlank]
  simp only [text, String.toList_append, List.forall_mem_append]
  exact ⟨⟨⟨⟨unblank_yearText d.year, hhyphen⟩, unblank_padded _ _⟩, hhyphen⟩, unblank_padded _ _⟩

theorem Instant.unblank_fractionText (nanos : Nat) :
    ∀ c ∈ (fractionText nanos).toList, Text.isBlank c = false := by
  have hpoint (width n : Nat) : ∀ c ∈ ("." ++ padded width n).toList, Text.isBlank c = false := by
    simpa only [String.toList_append, List.forall_mem_append]
      using ⟨by simp [Text.isBlank], unblank_padded width n⟩
  unfold fractionText
  split_ifs
  · simp
  · exact hpoint _ _
  · exact hpoint _ _
  · exact hpoint _ _

theorem Instant.unblank_text (t : Instant) : ∀ c ∈ t.text.toList, Text.isBlank c = false := by
  have hcolon : ∀ c ∈ ":".toList, Text.isBlank c = false := by simp [Text.isBlank]
  simp only [text, localText, String.toList_append, List.forall_mem_append]
  exact ⟨⟨⟨⟨⟨⟨⟨⟨t.date.unblank_text, by simp [Text.isBlank]⟩, unblank_padded _ _⟩, hcolon⟩,
    unblank_padded _ _⟩, hcolon⟩, unblank_padded _ _⟩, unblank_fractionText _⟩,
    by simp [Text.isBlank]⟩

end Blanks

end RecordGate
