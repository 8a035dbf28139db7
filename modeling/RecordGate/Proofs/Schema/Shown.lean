import RecordGate.Proofs.Calendar.Typed
import RecordGate.Proofs.Filter.Faults
import RecordGate.Proofs.Text.Trimming
import RecordGate.Proofs.Uuid

/-!
# Values that are typed again

What is shown of a value, but for the quotes around it, is read as the same value, also with blanks
around it where the value is no text. In a criterion it asks for the value that was shown.
-/

namespace RecordGate

namespace Value

/-- What is shown of a value, without the quotes that may stand around it. -/
def unquoted (v : Value) : String :=
  match v.display.toList with
  | '\'' :: s => String.ofList s.dropLast
  | _ => v.display

theorem unquoted_of_quoted {v : Value} {s : String} (h : v.display = quoted s) : v.unquoted = s := by
  have htext : v.display.toList = '\'' :: (s.toList ++ ['\'']) := by
    rw [h]
    simp [quoted]
  simp [unquoted, htext]

theorem unquoted_of_not_mem {v : Value} (h : '\'' ∉ v.display.toList) : v.unquoted = v.display := by
  unfold unquoted
  split
  · rename_i s hs
    exact absurd (hs ▸ List.mem_cons_self) h
  · rfl

@[simp] theorem unquoted_text (s : String) : (text s).unquoted = s := unquoted_of_quoted rfl

@[simp] theorem unquoted_uuid (u : Uuid) : (uuid u).unquoted = u.text := unquoted_of_quoted rfl

@[simp] theorem unquoted_dateTime (t : Instant) : (dateTime t).unquoted = t.text :=
  unquoted_of_quoted rfl

@[simp] theorem unquoted_date (d : Date) : (date d).unquoted = d.text := unquoted_of_quoted rfl

@[simp] theorem unquoted_boolean (b : Bool) :
    (boolean b).unquoted = if b then "true" else "false" := by
  cases b <;> rfl

@[simp] theorem unquoted_integer (n : Integer64) : (integer n).unquoted = toString n.val := by
  refine unquoted_of_not_mem fun hmem => ?_
  have hsigned := signed?_toString n.val
  obtain hdigit | hplus | hminus := isDigit_or_sign_of_signed? hsigned hmem
  · cases hdigit
  · cases hplus
  · cases hminus

/-- A value that is typed as it is shown: no null and no float, a day of the calendar, or an instant
that was typed before and lies in a year of four digits. -/
def Retypable : Value → Prop
  | .null => False
  | .float _ => False
  | .date d => d.Valid
  | .dateTime t =>
      (∃ raw, FieldType.dateTime.parse raw = .ok (.dateTime t)) ∧ 0 ≤ t.date.year ∧
        t.date.year ≤ 9999
  | _ => True

end Value

namespace FieldType

variable {t : FieldType} {v : Value}

theorem parse_eq_ok_iff {raw : String} : t.parse raw = .ok v ↔ t.value? raw = some v := by
  unfold parse
  cases t.value? raw <;> simp

/-- Blanks around a text do not matter to any type but that of texts. -/
theorem value?_surrounded (ht : t ≠ .text) (raw : String) {before after : List Char}
    (hbefore : Text.Blank before) (hafter : Text.Blank after) :
    t.value? (String.ofList (before ++ raw.toList ++ after)) = t.value? raw := by
  have htrimmed : Text.trimmed (before ++ raw.toList ++ after) = Text.trimmed raw.toList := by
    rw [Text.trimmed_append_right _ hafter, Text.trimmed_append_left hbefore]
  cases t with
  | text => exact absurd rfl ht
  | _ => simp only [value?, String.toList_ofList, htrimmed]

/-- What is shown of a value is read as this value. -/
theorem value?_unquoted (h : v.Retypable) (ht : v.type? = some t) :
    t.value? v.unquoted = some v := by
  cases v with
  | null => exact h.elim
  | float x => exact h.elim
  | text s =>
      cases ht
      simp [value?]
  | integer n =>
      cases ht
      have hsigned := signed?_toString n.val
      have htrimmed : Text.trimmed (toString n.val).toList = (toString n.val).toList :=
        Text.trimmed_of_forall fun c hc => isBlank_of_signed? hsigned hc
      simp only [value?, Value.unquoted_integer, htrimmed, integer?, hsigned, Option.bind_some,
        Ranged.ofInt?_val, Option.map_some]
  | boolean b =>
      cases ht
      cases b <;> rfl
  | uuid u =>
      cases ht
      have htrimmed : Text.trimmed u.text.toList = u.text.toList :=
        Text.trimmed_of_forall fun c hc => Uuid.isBlank_of_mem_text hc
      simp only [value?, Value.unquoted_uuid, htrimmed, Uuid.read?_text, Option.map_some]
  | dateTime i =>
      cases ht
      obtain ⟨⟨raw, hraw⟩, hfirst, hlast⟩ := h
      have hvalid : i.Valid := by
        obtain ⟨j, hj, hi⟩ := Option.map_eq_some_iff.mp (parse_eq_ok_iff.mp hraw)
        cases hi
        exact Calendar.valid_of_typed? hj
      have hread : Calendar.typed? i.text.toList = some i := by
        simp only [Calendar.typed?, Calendar.strict?_text hvalid hfirst hlast, Option.some_or]
      simp only [value?, Value.unquoted_dateTime, Text.trimmed_of_forall i.unblank_text, hread,
        Option.map_some]
  | date d =>
      cases ht
      simp only [value?, Value.unquoted_date, Text.trimmed_of_forall d.unblank_text,
        Calendar.day?_text h, Option.map_some]

end FieldType

namespace Value

/-- A value is shown in quotes or without. What is shown of it between them is read as this value by
its type, also with blanks around it unless it is a text, and a criterion with it compares with this
value. -/
theorem parse_unquoted {v : Value} {t : FieldType} (h : v.Retypable) (ht : v.type? = some t) :
    (v.display = v.unquoted ∨ v.display = quoted v.unquoted) ∧
      t.parse v.unquoted = .ok v ∧
      (t ≠ .text → ∀ before after : List Char, Text.Blank before → Text.Blank after →
        t.parse (String.ofList (before ++ v.unquoted.toList ++ after)) = .ok v) ∧
      ∀ (ρ : Type) (schema : Schema ρ) (field : Field ρ) (property operator : String)
        (op : ComparisonOp), schema.Resolves property field → field.type = t →
          ComparisonOp.parse? operator = some op →
            schema.compile [⟨property, operator, v.unquoted⟩] "" =
              .ok (.compare field.name op v) := by
  have hread := FieldType.value?_unquoted h ht
  refine ⟨?_, FieldType.parse_eq_ok_iff.mpr hread, ?_, ?_⟩
  · cases v with
    | null => cases ht
    | float x => exact h.elim
    | integer n => exact .inl (unquoted_integer n).symm
    | boolean b => exact .inl (unquoted_boolean b).symm
    | text s => exact .inr (by rw [unquoted_text]; rfl)
    | uuid u => exact .inr (by rw [unquoted_uuid]; rfl)
    | dateTime i => exact .inr (by rw [unquoted_dateTime]; rfl)
    | date d => exact .inr (by rw [unquoted_date]; rfl)
  · intro htext before after hbefore hafter
    rw [FieldType.parse_eq_ok_iff, FieldType.value?_surrounded htext _ hbefore hafter, hread]
  · intro ρ schema field property operator op hfield htype hop
    exact Schema.compile_comparison hfield (htype ▸ hread) hop

/-- The last second of 2016, a leap second, and half of it, on a clock five hours behind. -/
def leapSecond : Instant := ⟨⟨2016, 12, 31⟩, 86399, 1500000000⟩

theorem parse_unquoted_leapSecond :
    FieldType.dateTime.parse "2016-12-31t18:59:60.5-05:00" = .ok (.dateTime leapSecond) ∧
      (dateTime leapSecond).display = "'2016-12-31T23:59:60.500+00:00'" ∧
      FieldType.dateTime.parse "2016-12-31T23:59:60.500+00:00" = .ok (.dateTime leapSecond) ∧
      FieldType.dateTime.parse "\t2016-12-31T23:59:60.500+00:00 " = .ok (.dateTime leapSecond) := by
  have htyped : FieldType.dateTime.parse "2016-12-31t18:59:60.5-05:00" =
      .ok (.dateTime leapSecond) := by decide
  have hretypable : (dateTime leapSecond).Retypable := ⟨⟨_, htyped⟩, by decide, by decide⟩
  obtain ⟨-, hparse, hsurrounded, -⟩ := parse_unquoted hretypable rfl
  have hshown : (dateTime leapSecond).unquoted = "2016-12-31T23:59:60.500+00:00" := by decide
  rw [hshown] at hparse hsurrounded
  exact ⟨htyped, by decide, hparse, hsurrounded (by decide) ['\t'] [' '] (by decide) (by decide)⟩

end Value

end RecordGate
