import RecordGate.Calendar.Reader
import RecordGate.Proofs.Text.Digits

/-!
# Days and instants through their written form

A day and an instant of the calendar are read back from the form in which they are written, for all
years and also within a leap second.
-/

namespace RecordGate

/-- The calendar has this day. -/
def Date.Valid (d : Date) : Prop := Date.ofParts? d.year d.month d.day = some d

/-- The calendar has this instant. A leap second follows the last second of a minute only. -/
structure Instant.Valid (t : Instant) : Prop where
  date : t.date.Valid
  second_lt : t.second < 86400
  nanos_lt : t.nanos < 2000000000
  leap : 1000000000 ≤ t.nanos → t.second % 60 = 59

theorem daysInMonth_le (year : Int) (month : Nat) : daysInMonth year month ≤ 31 := by
  unfold daysInMonth
  cases isLeapYear year <;> split <;> decide

theorem Date.Valid.bounds {d : Date} (h : d.Valid) :
    -262143 ≤ d.year ∧ d.year ≤ 262142 ∧ d.month ≤ 12 ∧ d.day ≤ 31 := by
  unfold Date.Valid Date.ofParts? at h
  split at h
  · rename_i hparts
    obtain ⟨hfirst, hlast, -, hmonth, -, hday⟩ := hparts
    exact ⟨hfirst, hlast, hmonth, Nat.le_trans hday (daysInMonth_le d.year d.month)⟩
  · cases h

namespace Calendar

variable {r : List Char}

/-- Digits are read as a number, when their count is allowed and no digit follows. -/
theorem number_of_digits {least most : Nat} {digits : List Char}
    (hdigits : ∀ c ∈ digits, isDigit c = true) (hpos : 0 < digits.length)
    (hleast : least ≤ digits.length) (hmost : digits.length ≤ most) (hr : EndsNumber r) :
    number least most (digits ++ r) = some (digitsFrom 0 digits, r) := by
  have htaken : EndsNumber (r.take (most - digits.length)) := by
    intro c s h
    cases r with
    | nil => simp at h
    | cons d r =>
        cases hk : most - digits.length with
        | zero => simp [hk] at h
        | succ k =>
            rw [hk, List.take_succ_cons, List.cons.injEq] at h
            exact h.1 ▸ hr d r rfl
  have hspan : ((digits ++ r).take most).takeWhile isDigit = digits := by
    rw [List.take_append, List.take_of_length_le hmost]
    exact (takeWhile_isDigit_append hdigits htaken).1
  have hempty : digits.isEmpty = false := by
    cases digits with
    | nil => cases hpos
    | cons c digits => rfl
  simp [number, hspan, hleast, hempty]

theorem number_padded {least most width n : Nat} (hwidth : 0 < width) (hn : n < 10 ^ width)
    (hleast : least ≤ width) (hmost : width ≤ most) (hr : EndsNumber r) :
    number least most ((padded width n).toList ++ r) = some (n, r) := by
  have hlength := length_padded hwidth hn
  rw [number_of_digits (fun c hc => isDigit_of_mem_padded hc) (length_padded_pos _ _) (by omega)
    (by omega) hr, digitsFrom_padded]

theorem longNumber_padded {width n : Nat} (hr : EndsNumber r) :
    longNumber ((padded width n).toList ++ r) = some (n, r) := by
  have hpos := length_padded_pos width n
  rw [longNumber, number_of_digits (fun c hc => isDigit_of_mem_padded hc) hpos hpos (by simp) hr,
    digitsFrom_padded]

theorem exists_padded_eq_cons (width n : Nat) :
    ∃ c s, (padded width n).toList = c :: s ∧ isDigit c = true := by
  cases h : (padded width n).toList with
  | nil =>
      have hpos := length_padded_pos width n
      rw [h] at hpos
      cases hpos
  | cons c s =>
      have hc : c ∈ (padded width n).toList := h ▸ List.mem_cons_self
      exact ⟨c, s, rfl, isDigit_of_mem_padded hc⟩

theorem skipBlanks_padded (width n : Nat) :
    Text.skipBlanks ((padded width n).toList ++ r) = (padded width n).toList ++ r := by
  obtain ⟨c, s, h, hc⟩ := exists_padded_eq_cons width n
  rw [h, List.cons_append]
  exact Text.skipBlanks_of_not_isBlank (isBlank_of_isDigit hc)

theorem field_padded {n : Nat} (hn : n < 100) (hr : EndsNumber r) :
    field ((padded 2 n).toList ++ r) = some (n, r) := by
  rw [field, skipBlanks_padded]
  exact number_padded (by decide) hn (by decide) (by decide) hr

theorem year_of_isDigit {c : Char} (h : isDigit c = true) (s : List Char) :
    year (c :: s) = (number 1 4 (c :: s)).map fun p => (Int.ofNat p.1, p.2) := by
  unfold year
  rw [Text.skipBlanks_of_not_isBlank (isBlank_of_isDigit h)]
  split
  · rename_i hminus
    cases hminus
    cases h
  · rename_i hplus
    cases hplus
    cases h
  · rfl

/-- A year is read back, with its sign if it has one. -/
theorem year_yearText (y : Int) (hr : EndsNumber r) :
    year ((Date.yearText y).toList ++ r) = some (y, r) := by
  unfold Date.yearText
  split
  · rename_i hshort
    have hlt : y.natAbs < 10 ^ 4 := by omega
    have hread : number 1 4 ((padded 4 y.natAbs).toList ++ r) = some (y.natAbs, r) :=
      number_padded (by decide) hlt (by decide) (by decide) hr
    obtain ⟨c, s, hc, hdigit⟩ := exists_padded_eq_cons 4 y.natAbs
    rw [hc, List.cons_append] at hread ⊢
    rw [year_of_isDigit hdigit, hread, Option.map_some, Option.some.injEq, Prod.mk.injEq,
      Int.ofNat_eq_natCast]
    exact ⟨by omega, rfl⟩
  · by_cases hnegative : y < 0
    · have htext (t : String) : ("-" ++ t).toList ++ r = '-' :: (t.toList ++ r) := by simp
      rw [if_pos hnegative, if_pos hnegative, htext, year,
        Text.skipBlanks_of_not_isBlank (by decide)]
      simp only [longNumber_padded hr, Option.map_some, Option.some.injEq, Prod.mk.injEq,
        Int.ofNat_eq_natCast, and_true]
      omega
    · have htext (t : String) : ("+" ++ t).toList ++ r = '+' :: (t.toList ++ r) := by simp
      rw [if_neg hnegative, if_neg hnegative, htext, year,
        Text.skipBlanks_of_not_isBlank (by decide)]
      simp only [longNumber_padded hr, Option.map_some, Option.some.injEq, Prod.mk.injEq,
        Int.ofNat_eq_natCast, and_true]
      omega

section Parts

variable {gap : List Char → List Char}

/-- A day is read back, where a reader of gaps leaves the hyphens alone. -/
theorem dayParts_text (hgap : ∀ s, gap ('-' :: s) = '-' :: s) {d : Date} (hmonth : d.month < 100)
    (hday : d.day < 100) (hr : EndsNumber r) :
    dayParts gap (d.text.toList ++ r) = some ((d.year, d.month, d.day), r) := by
  have hhyphen (s : List Char) : EndsNumber ('-' :: s) := endsNumber_cons (by decide) s
  have htext : d.text.toList ++ r = (Date.yearText d.year).toList ++ '-' ::
      ((padded 2 d.month).toList ++ '-' :: ((padded 2 d.day).toList ++ r)) := by
    simp [Date.text]
  rw [htext, dayParts, year_yearText d.year (hhyphen _)]
  simp [hgap, literal, field_padded hmonth (hhyphen _), field_padded hday hr]

/-- The time of day is read back, where a reader of gaps leaves the colons alone. -/
theorem clockParts_text (hgap : ∀ s, gap (':' :: s) = ':' :: s) {hour minute second : Nat}
    (hhour : hour < 100) (hminute : minute < 100) (hsecond : second < 100) (hr : EndsNumber r) :
    clockParts gap ((padded 2 hour).toList ++ ':' :: ((padded 2 minute).toList ++ ':' ::
      ((padded 2 second).toList ++ r))) = some ((hour, minute, second), r) := by
  have hcolon (s : List Char) : EndsNumber (':' :: s) := endsNumber_cons (by decide) s
  rw [clockParts, field_padded hhour (hcolon _)]
  simp [hgap, literal, field_padded hminute (hcolon _), field_padded hsecond hr]

end Parts

/-- The digits after a point are read as they would be with zeros behind them. -/
theorem fraction_padded (width n : Nat) (hwidth : 0 < width) (hle : width ≤ 9)
    (hn : n < 10 ^ width) (hr : EndsNumber r) :
    fraction ('.' :: ((padded width n).toList ++ r)) = some (10 ^ (9 - width) * n, r) := by
  have hlength := length_padded hwidth hn
  have hdigits (c : Char) (hc : c ∈ (padded width n).toList) : isDigit c = true :=
    isDigit_of_mem_padded hc
  obtain ⟨htake, hdrop⟩ := takeWhile_isDigit_append hdigits hr
  have hempty : (padded width n).toList.isEmpty = false := by
    obtain ⟨c, s, hc, -⟩ := exists_padded_eq_cons width n
    rw [hc]
    rfl
  have hkept : (padded width n).toList.take 9 = (padded width n).toList :=
    List.take_of_length_le (by omega)
  have hvalue : digitsFrom 0 ((padded width n).toList ++ List.replicate (9 - width) '0') =
      10 ^ (9 - width) * n := by
    have hall (c : Char) (hc : c ∈ (padded width n).toList ++ List.replicate (9 - width) '0') :
        isDigit c = true := by
      rcases List.mem_append.mp hc with hc | hc
      · exact hdigits c hc
      · rw [(List.mem_replicate.mp hc).2]
        decide
    rw [digitsFrom_eq hall, Nat.ofDigitChars_append, ← digitsFrom_eq hdigits, digitsFrom_padded,
      Nat.ofDigitChars_replicate_zero]
  simp only [fraction, htake, hdrop, hempty, hkept, hlength, hvalue, Bool.false_eq_true, if_false]

theorem fraction_of_endsNumber {c : Char} (h : c ≠ '.') : fraction (c :: r) = some (0, c :: r) := by
  rw [fraction]
  rintro s hs
  exact h (List.cons.inj hs).1

theorem endsNumber_fractionText (nanos : Nat) (hr : EndsNumber r) :
    EndsNumber ((Instant.fractionText nanos).toList ++ r) := by
  have hpoint (t : String) : EndsNumber (("." ++ t).toList ++ r) := by
    have htext : ("." ++ t).toList ++ r = '.' :: (t.toList ++ r) := by simp
    rw [htext]
    exact endsNumber_cons (by decide) _
  unfold Instant.fractionText
  split
  · exact hr
  · split
    · exact hpoint _
    · split
      · exact hpoint _
      · exact hpoint _

/-- The part of a second is read back, which a letter or a sign follows. -/
theorem fraction_fractionText {nanos : Nat} (hnanos : nanos < 1000000000) {c : Char}
    (hpoint : c ≠ '.') (hdigit : isDigit c = false) :
    fraction ((Instant.fractionText nanos).toList ++ c :: r) = some (nanos, c :: r) := by
  have hr : EndsNumber (c :: r) := endsNumber_cons hdigit r
  have htext (t : String) : ("." ++ t).toList ++ c :: r = '.' :: (t.toList ++ c :: r) := by simp
  unfold Instant.fractionText
  by_cases hzero : nanos = 0
  · subst hzero
    exact fraction_of_endsNumber hpoint
  · by_cases hmillis : nanos % 1000000 = 0
    · have hread := fraction_padded 3 (nanos / 1000000) (by decide) (by decide) (by omega) hr
      simp only [beq_iff_eq, hzero, hmillis, if_false, if_true, htext, hread, Option.some.injEq,
        Prod.mk.injEq, and_true]
      omega
    · by_cases hmicros : nanos % 1000 = 0
      · have hread := fraction_padded 6 (nanos / 1000) (by decide) (by decide) (by omega) hr
        simp only [beq_iff_eq, hzero, hmillis, hmicros, if_false, if_true, htext, hread,
          Option.some.injEq, Prod.mk.injEq, and_true]
        omega
      · have hread := fraction_padded 9 nanos (by decide) (by decide) (by omega) hr
        simp only [beq_iff_eq, hzero, hmillis, hmicros, if_false, htext, hread,
          Option.some.injEq, Prod.mk.injEq, and_true]
        omega

/-- The hour, the minute and the second that are written for an instant, and its part of a second. -/
theorem timeOfDay?_written {t : Instant} (h : t.Valid) :
    ∃ second nanos, second ≤ 60 ∧ nanos < 1000000000 ∧
      (∀ tail, (t.localText ++ tail).toList = t.date.text.toList ++ 'T' ::
        ((padded 2 (t.second / 3600)).toList ++ ':' :: ((padded 2 (t.second / 60 % 60)).toList ++
          ':' :: ((padded 2 second).toList ++ ((Instant.fractionText nanos).toList ++
            tail.toList))))) ∧
      timeOfDay? (t.second / 3600) (t.second / 60 % 60) second nanos = some (t.second, t.nanos) := by
  obtain ⟨-, hsecond, hnanos, hleap⟩ := h
  by_cases hlong : 1000000000 ≤ t.nanos
  · have hlast := hleap hlong
    refine ⟨t.second % 60 + 1, t.nanos - 1000000000, by omega, by omega, ?_, ?_⟩
    · intro tail
      simp [Instant.localText, hlong]
    · unfold timeOfDay?
      rw [if_pos (by omega), if_pos (by omega), Option.some.injEq, Prod.mk.injEq]
      omega
  · refine ⟨t.second % 60, t.nanos, by omega, by omega, ?_, ?_⟩
    · intro tail
      simp [Instant.localText, hlong]
    · unfold timeOfDay?
      rw [if_pos (by omega), if_neg (by omega), Option.some.injEq, Prod.mk.injEq]
      omega

theorem moment?_zero {date : Date} {second nanos : Nat} (h : second < 86400) :
    moment? date (second, nanos) 0 = some ⟨date, second, nanos⟩ := by
  simp only [moment?, Instant.ofLocal?, Int.sub_zero, Int.ofNat_eq_natCast]
  rw [if_pos (by omega), if_neg (by omega), if_neg (by omega), Int.toNat_natCast]

/-- A written day is read as that day. -/
theorem looseDay?_text {d : Date} (h : d.Valid) : looseDay? d.text.toList = some d := by
  have hgap (s : List Char) : Text.skipBlanks ('-' :: s) = '-' :: s :=
    Text.skipBlanks_of_not_isBlank (by decide)
  obtain ⟨-, -, hmonth, hday⟩ := h.bounds
  have hparts := dayParts_text (r := []) hgap (by omega : d.month < 100) (by omega : d.day < 100)
    endsNumber_nil
  rw [List.append_nil] at hparts
  rw [looseDay?, hparts]
  exact h

/-- A written instant is read as that instant. -/
theorem loose?_zuluText {t : Instant} (h : t.Valid) : loose? t.zuluText.toList = some t := by
  have hhyphen (s : List Char) : Text.skipBlanks ('-' :: s) = '-' :: s :=
    Text.skipBlanks_of_not_isBlank (by decide)
  have hcolon (s : List Char) : Text.skipBlanks (':' :: s) = ':' :: s :=
    Text.skipBlanks_of_not_isBlank (by decide)
  obtain ⟨-, -, hmonth, hday⟩ := h.date.bounds
  have hbound := h.second_lt
  obtain ⟨second, nanos, hsecond, hnanos, htext, htime⟩ := timeOfDay?_written h
  have hdate (s : List Char) := dayParts_text (r := 'T' :: s) hhyphen (by omega : t.date.month < 100)
    (by omega : t.date.day < 100) (endsNumber_cons (by decide) s)
  have hfraction := fraction_fractionText (r := []) hnanos (c := 'Z') (by decide) (by decide)
  have hends := endsNumber_fractionText nanos
    (endsNumber_cons (by decide : isDigit 'Z' = false) [])
  have hclock := clockParts_text hcolon (by omega : t.second / 3600 < 100)
    (by omega : t.second / 60 % 60 < 100) (by omega : second < 100) hends
  have hZ : "Z".toList = ['Z'] := rfl
  have hoffset : looseOffset (Text.skipBlanks ['Z']) = some (0, []) := rfl
  have hT (s : List Char) : literal 'T' ('T' :: s) = some ((), s) := rfl
  have hvalid : Date.ofParts? t.date.year t.date.month t.date.day = some t.date := h.date
  rw [Instant.zuluText, htext, hZ, loose?, hdate]
  simp only [Option.bind_eq_bind, Option.bind_some, hT, Option.some_or, hclock, hfraction, hoffset,
    hvalid, htime, moment?_zero hbound]
  rfl

end Calendar

end RecordGate
