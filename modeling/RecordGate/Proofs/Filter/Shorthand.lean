import RecordGate.Cli.Run
import RecordGate.Proofs.Text.Split

/-!
# The short form of criteria

A criterion is written with colons between its parts, and only the first two colons are read as
such. Reading and writing invert each other on the texts that have two colons with something before
each, and on the criteria whose property and operator are there and hold no colon. The value may be
any text.
-/

namespace RecordGate

namespace Text

variable {separator : Char} {s a b : List Char}

/-- A separator cuts a text at its first place. -/
theorem splitFirst_of_mem (h : separator ∈ s) :
    splitFirst separator s =
      some (s.takeWhile (· != separator), (s.dropWhile (· != separator)).tail) := by
  induction s with
  | nil => cases h
  | cons c s ih =>
      by_cases hc : c = separator
      · simp [splitFirst, hc]
      · have hmem : separator ∈ s := (List.mem_cons.mp h).resolve_left (Ne.symm hc)
        simp [splitFirst, hc, ih hmem]

theorem splitFirst_of_not_mem (h : separator ∉ s) : splitFirst separator s = none := by
  rw [Option.eq_none_iff_forall_ne_some]
  rintro ⟨a, b⟩ hsplit
  obtain ⟨-, rfl⟩ := splitFirst_eq_some_iff.mp hsplit
  exact h (by simp)

/-- Cutting a text takes one separator away. -/
theorem count_of_splitFirst (h : splitFirst separator s = some (a, b)) :
    s.count separator = b.count separator + 1 := by
  obtain ⟨hmem, rfl⟩ := splitFirst_eq_some_iff.mp h
  simp [List.count_eq_zero.mpr hmem]

end Text

namespace FilterCriterion

variable {c : FilterCriterion} {s : String}

/-- The property and the operator of a criterion can be told from the rest of its short form. -/
structure Short (c : FilterCriterion) : Prop where
  property_ne : c.property ≠ ""
  colon_not_mem_property : ':' ∉ c.property.toList
  operator_ne : c.operator ≠ ""
  colon_not_mem_operator : ':' ∉ c.operator.toList

/-- A text has at least two colons, some text before the first one and some between the first
two. -/
def InShortForm (s : String) : Prop :=
  2 ≤ s.toList.count ':' ∧ s.toList.takeWhile (· != ':') ≠ [] ∧
    (s.toList.dropWhile (· != ':')).tail.takeWhile (· != ':') ≠ []

theorem Short.parseShorthand?_text (h : c.Short) : parseShorthand? c.text = some c := by
  have hfirst : Text.splitFirst ':' c.text.toList =
      some (c.property.toList, c.operator.toList ++ ':' :: c.value.toList) :=
    Text.splitFirst_eq_some_iff.mpr ⟨h.colon_not_mem_property, by simp [text]⟩
  have hsecond : Text.splitFirst ':' (c.operator.toList ++ ':' :: c.value.toList) =
      some (c.operator.toList, c.value.toList) :=
    Text.splitFirst_eq_some_iff.mpr ⟨h.colon_not_mem_operator, rfl⟩
  simp [parseShorthand?, hfirst, hsecond, h.property_ne, h.operator_ne]

/-- Whatever is read is in short form, and was written. -/
theorem short_of_parseShorthand? (h : parseShorthand? s = some c) : c.Short ∧ c.text = s := by
  simp only [parseShorthand?, Option.bind_eq_bind, Option.bind_eq_some_iff, Prod.exists] at h
  obtain ⟨property, rest, hfirst, operator, value, hsecond, h⟩ := h
  split at h
  · cases h
  · rename_i hparts
    obtain rfl : FilterCriterion.mk (String.ofList property) (String.ofList operator)
        (String.ofList value) = c := by simpa using h
    obtain ⟨hproperty, hs⟩ := Text.splitFirst_eq_some_iff.mp hfirst
    obtain ⟨hoperator, rfl⟩ := Text.splitFirst_eq_some_iff.mp hsecond
    simp only [Bool.or_eq_true, List.isEmpty_iff, not_or] at hparts
    refine ⟨⟨?_, ?_, ?_, ?_⟩, ?_⟩
    · simpa using hparts.1
    · simpa using hproperty
    · simpa using hparts.2
    · simpa using hoperator
    · rw [← String.toList_inj, hs]
      simp [text]

theorem parseShorthand?_eq_some_iff : parseShorthand? s = some c ↔ c.Short ∧ c.text = s := by
  constructor
  · exact short_of_parseShorthand?
  · rintro ⟨hshort, rfl⟩
    exact hshort.parseShorthand?_text

/-- Exactly the texts with two colons and something before each are read. -/
theorem isSome_parseShorthand?_iff : (parseShorthand? s).isSome = true ↔ InShortForm s := by
  unfold parseShorthand? InShortForm
  by_cases hfirst : ':' ∈ s.toList
  · have hcut := Text.splitFirst_of_mem hfirst
    rw [hcut, Text.count_of_splitFirst hcut]
    by_cases hsecond : ':' ∈ (s.toList.dropWhile (· != ':')).tail
    · simp [Text.splitFirst_of_mem hsecond, hsecond]
    · have hcount := List.count_eq_zero.mpr hsecond
      simp [Text.splitFirst_of_not_mem hsecond, hcount]
  · simp [Text.splitFirst_of_not_mem hfirst, List.count_eq_zero.mpr hfirst]

end FilterCriterion

namespace Cli

open FilterCriterion

theorem readFilters_cons_eq_ok_iff {arg : String} {rest : List String}
    {criteria : List FilterCriterion} :
    readFilters (arg :: rest) = .ok criteria ↔
      ∃ c cs, criteria = c :: cs ∧ parseShorthand? arg = some c ∧ readFilters rest = .ok cs := by
  rw [readFilters]
  cases parseShorthand? arg with
  | none => simp
  | some c => cases readFilters rest <;> simp [Except.map, eq_comm]

/-- A command line gives exactly the criteria whose short forms are its arguments. -/
theorem readFilters_eq_ok_iff {args : List String} {criteria : List FilterCriterion} :
    readFilters args = .ok criteria ↔ criteria.map text = args ∧ ∀ c ∈ criteria, c.Short := by
  induction args generalizing criteria with
  | nil => cases criteria <;> simp [readFilters]
  | cons arg rest ih =>
      simp only [readFilters_cons_eq_ok_iff, parseShorthand?_eq_some_iff, ih]
      constructor
      · rintro ⟨c, cs, rfl, ⟨hshort, rfl⟩, rfl, hall⟩
        exact ⟨rfl, List.forall_mem_cons.mpr ⟨hshort, hall⟩⟩
      · rintro ⟨htexts, hall⟩
        obtain ⟨c, cs, rfl, rfl, rfl⟩ := List.map_eq_cons_iff.mp htexts
        rw [List.forall_mem_cons] at hall
        exact ⟨c, cs, rfl, ⟨hall.1, rfl⟩, rfl, hall.2⟩

end Cli

namespace FilterCriterion

/-- Whatever is read from a text is written as this text. A text is read exactly when it has at
least two colons, with some text before the first one and some between the first two. A criterion
whose property and operator are there and hold no colon is read back from its short form, whatever
its value is. The arguments of a command line are read as criteria exactly when they are the short
forms of these. -/
theorem parseShorthand?_inverts_text :
    (∀ (s : String) (c : FilterCriterion), parseShorthand? s = some c → c.text = s) ∧
      (∀ s : String, (parseShorthand? s).isSome = true ↔ InShortForm s) ∧
      (∀ c : FilterCriterion, c.property ≠ "" → ':' ∉ c.property.toList → c.operator ≠ "" →
        ':' ∉ c.operator.toList → parseShorthand? c.text = some c) ∧
      ∀ (args : List String) (criteria : List FilterCriterion),
        Cli.readFilters args = .ok criteria ↔
          criteria.map text = args ∧ ∀ c ∈ criteria, c.Short := by
  refine ⟨fun s c h => (short_of_parseShorthand? h).2, fun s => isSome_parseShorthand?_iff, ?_, ?_⟩
  · intro c hproperty hcolon hoperator hcolon'
    exact Short.parseShorthand?_text ⟨hproperty, hcolon, hoperator, hcolon'⟩
  · exact fun args criteria => Cli.readFilters_eq_ok_iff

/-- A condition on a moment, whose value has colons of its own and one at its end. -/
def sinceTen : FilterCriterion := ⟨"PublishDate", ">=", "2024-01-01 10:00:00:"⟩

theorem parseShorthand?_inverts_text_sinceTen :
    parseShorthand? "PublishDate:>=:2024-01-01 10:00:00:" = some sinceTen ∧
      InShortForm "Title:=:" ∧ ¬ InShortForm "Title:equals" ∧
      Cli.readFilters ["PublishDate:>=:2024-01-01 10:00:00:"] = .ok [sinceTen] := by
  obtain ⟨-, hread, hback, hargs⟩ := parseShorthand?_inverts_text
  have hsinceTen : parseShorthand? sinceTen.text = some sinceTen :=
    hback sinceTen (by decide) (by decide) (by decide) (by decide)
  have hshort : sinceTen.Short := ⟨by decide, by decide, by decide, by decide⟩
  refine ⟨hsinceTen, (hread "Title:=:").mp (by decide), ?_, ?_⟩
  · exact fun h => absurd ((hread "Title:equals").mpr h) (by decide)
  · exact (hargs _ [sinceTen]).mpr ⟨rfl, by simpa using hshort⟩

end FilterCriterion

end RecordGate
