import Mathlib.Data.List.Basic
import RecordGate.Text.Search

/-!
# Splitting at a separator

The text before the first separator holds none, and the text after the last one neither. Splitting at
all separators goes through a separator that is known to stand somewhere.
-/

namespace RecordGate.Text

variable {separator : Char}

theorem splitFirst_eq_some_iff {s a b : List Char} :
    splitFirst separator s = some (a, b) ↔ separator ∉ a ∧ s = a ++ separator :: b := by
  induction s generalizing a with
  | nil => simp [splitFirst]
  | cons c s ih =>
      by_cases hc : c = separator
      · subst hc
        cases a with
        | nil => simp [splitFirst]
        | cons d a =>
            simp only [splitFirst, beq_self_eq_true, if_true, Option.some.injEq, Prod.mk.injEq,
              List.cons_append, List.cons.injEq, List.mem_cons, not_or]
            constructor
            · intro h
              obtain ⟨h, _⟩ := h
              cases h
            · intro h
              obtain ⟨⟨h, _⟩, h', _⟩ := h
              exact absurd h' h
      · rw [splitFirst, if_neg (by simpa using hc), Option.map_eq_some_iff]
        constructor
        · intro h
          obtain ⟨⟨a', b'⟩, h, heq⟩ := h
          obtain ⟨rfl, rfl⟩ := Prod.mk.inj heq
          obtain ⟨hmem, rfl⟩ := ih.mp h
          exact ⟨by simp [hmem, Ne.symm hc], rfl⟩
        · intro h
          obtain ⟨hmem, h⟩ := h
          cases a with
          | nil =>
              rw [List.nil_append, List.cons.injEq] at h
              exact absurd h.1 hc
          | cons d a =>
              rw [List.cons_append, List.cons.injEq] at h
              obtain ⟨rfl, rfl⟩ := h
              rw [List.mem_cons, not_or] at hmem
              exact ⟨(a, b), ih.mpr ⟨hmem.2, rfl⟩, rfl⟩

theorem splitLast_eq_some_iff {s a b : List Char} :
    splitLast separator s = some (a, b) ↔ separator ∉ b ∧ s = a ++ separator :: b := by
  rw [splitLast, Option.map_eq_some_iff]
  constructor
  · intro h
    obtain ⟨⟨x, y⟩, h, heq⟩ := h
    obtain ⟨rfl, rfl⟩ := Prod.mk.inj heq
    obtain ⟨hmem, hs⟩ := splitFirst_eq_some_iff.mp h
    refine ⟨by simpa using hmem, ?_⟩
    rw [← List.reverse_reverse s, hs]
    simp
  · intro h
    obtain ⟨hmem, rfl⟩ := h
    refine ⟨(b.reverse, a.reverse), splitFirst_eq_some_iff.mpr ⟨by simpa using hmem, ?_⟩, ?_⟩
    · simp
    · simp

theorem pieces_ne_nil (s : List Char) : pieces separator s ≠ [] := by
  cases s with
  | nil => simp [pieces]
  | cons c s =>
      unfold pieces
      split
      · simp
      · split <;> simp

theorem pieces_of_not_mem {s : List Char} (h : separator ∉ s) : pieces separator s = [s] := by
  induction s with
  | nil => rfl
  | cons c s ih =>
      rw [List.mem_cons, not_or] at h
      rw [pieces, if_neg (by simpa using Ne.symm h.1), ih h.2]

/-- A character that is no separator belongs to the first piece. -/
theorem exists_pieces_cons {c : Char} (h : c ≠ separator) (s : List Char) :
    ∃ p ps, pieces separator s = p :: ps ∧ pieces separator (c :: s) = (c :: p) :: ps := by
  cases hs : pieces separator s with
  | nil => exact absurd hs (pieces_ne_nil s)
  | cons p ps => exact ⟨p, ps, rfl, by rw [pieces, if_neg (by simpa using h), hs]⟩

theorem pieces_append (a b : List Char) :
    pieces separator (a ++ separator :: b) = pieces separator a ++ pieces separator b := by
  induction a with
  | nil => simp [pieces]
  | cons c a ih =>
      by_cases hc : c = separator
      · subst hc
        simp [pieces, ih]
      · simp only [List.cons_append, pieces, beq_iff_eq, hc, if_false, ih]
        cases h : pieces separator a with
        | nil => exact absurd h (pieces_ne_nil a)
        | cons p ps => simp

end RecordGate.Text
