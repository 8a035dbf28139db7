import Mathlib.Data.List.TakeWhile
import RecordGate.Proofs.Text.Split
import RecordGate.Text.Blank

/-!
# Trimming

What is left of a text without the blanks at its ends, and of the pieces between its separators.
-/

namespace RecordGate.Text

/-- A text holds blanks only. -/
def Blank (s : List Char) : Prop := ∀ c ∈ s, isBlank c = true

instance (s : List Char) : Decidable (Blank s) :=
  decidable_of_iff (s.all isBlank = true) List.all_eq_true

theorem skipBlanks_append_left {before : List Char} (h : Blank before) (s : List Char) :
    skipBlanks (before ++ s) = skipBlanks s := by
  rw [skipBlanks, List.dropWhile_append_of_pos h, skipBlanks]

theorem skipBlanks_append_right (s : List Char) {after : List Char} (h : Blank after) :
    Blank s ∧ skipBlanks (s ++ after) = [] ∧ skipBlanks s = [] ∨
      skipBlanks (s ++ after) = skipBlanks s ++ after := by
  induction s with
  | nil =>
      have hnone : skipBlanks after = [] := List.dropWhile_eq_nil_iff.mpr h
      exact .inl ⟨by simp [Blank], hnone, rfl⟩
  | cons c s ih =>
      cases hc : isBlank c with
      | false =>
          rw [List.cons_append, skipBlanks_of_not_isBlank hc, skipBlanks_of_not_isBlank hc]
          exact .inr rfl
      | true =>
          have hstep (t : List Char) : skipBlanks (c :: t) = skipBlanks t := by simp [skipBlanks, hc]
          rw [List.cons_append, hstep, hstep]
          rcases ih with ⟨hblank, hleft⟩ | hright
          · exact .inl ⟨by simpa [Blank, hc] using hblank, hleft⟩
          · exact .inr hright

theorem trimmed_append_left {before : List Char} (h : Blank before) (s : List Char) :
    trimmed (before ++ s) = trimmed s := by
  rw [trimmed, skipBlanks_append_left h, trimmed]

theorem trimmed_append_right (s : List Char) {after : List Char} (h : Blank after) :
    trimmed (s ++ after) = trimmed s := by
  have hreverse : Blank after.reverse := fun c hc => h c (List.mem_reverse.mp hc)
  unfold trimmed
  rcases skipBlanks_append_right s h with ⟨-, hall, hs⟩ | hright
  · rw [hall, hs]
  · rw [hright, List.reverse_append, skipBlanks_append_left hreverse]

/-- A text is what is left of it between blanks. -/
theorem exists_eq_trimmed (s : List Char) :
    ∃ before after, Blank before ∧ Blank after ∧ s = before ++ trimmed s ++ after := by
  have hsplit (t : List Char) : ∃ before, Blank before ∧ t = before ++ skipBlanks t :=
    ⟨t.takeWhile isBlank, fun c hc => List.mem_takeWhile_imp hc,
      (List.takeWhile_append_dropWhile ..).symm⟩
  obtain ⟨before, hbefore, hs⟩ := hsplit s
  obtain ⟨after, hafter, hrest⟩ := hsplit (skipBlanks s).reverse
  refine ⟨before, after.reverse, hbefore, fun c hc => hafter c (List.mem_reverse.mp hc), ?_⟩
  have hrest' : skipBlanks s = trimmed s ++ after.reverse := by
    rw [trimmed, ← List.reverse_append, ← hrest, List.reverse_reverse]
  rw [List.append_assoc, ← hrest', ← hs]

theorem mem_trimmed {s : List Char} {c : Char} (hc : c ∈ s) (h : isBlank c = false) :
    c ∈ trimmed s := by
  obtain ⟨before, after, hbefore, hafter, hs⟩ := exists_eq_trimmed s
  rw [hs, List.mem_append, List.mem_append] at hc
  rcases hc with (hc | hc) | hc
  · rw [hbefore c hc] at h
    cases h
  · exact hc
  · rw [hafter c hc] at h
    cases h

section Pieces

variable {separator : Char}

theorem map_trimmed_pieces_append_left (hseparator : isBlank separator = false) {before : List Char}
    (h : Blank before) (s : List Char) :
    (pieces separator (before ++ s)).map trimmed = (pieces separator s).map trimmed := by
  induction before with
  | nil => rfl
  | cons c before ih =>
      have hc : isBlank c = true := h c List.mem_cons_self
      have hne : c ≠ separator := by
        rintro rfl
        rw [hc] at hseparator
        cases hseparator
      have hblank : Blank [c] := by simp [Blank, hc]
      have hone (p : List Char) : trimmed (c :: p) = trimmed p := trimmed_append_left hblank p
      obtain ⟨p, ps, hpieces, hcons⟩ := exists_pieces_cons hne (before ++ s)
      rw [List.cons_append, hcons, ← ih fun d hd => h d (List.mem_cons_of_mem c hd), hpieces,
        List.map_cons, List.map_cons, hone]

/-- What follows a text and holds no separator is joined to its last piece. -/
theorem exists_pieces_append {after : List Char} (h : separator ∉ after) (s : List Char) :
    ∃ front last, pieces separator s = front ++ [last] ∧
      pieces separator (s ++ after) = front ++ [last ++ after] := by
  induction s with
  | nil => exact ⟨[], [], rfl, pieces_of_not_mem h⟩
  | cons c s ih =>
      obtain ⟨front, last, hs, hafter⟩ := ih
      by_cases hc : c = separator
      · refine ⟨[] :: front, last, ?_, ?_⟩
        · simp [pieces, hc, hs]
        · simp [pieces, hc, hafter]
      · obtain ⟨p, ps, hpieces, hcons⟩ := exists_pieces_cons hc s
        obtain ⟨q, qs, hqieces, hconsAfter⟩ := exists_pieces_cons hc (s ++ after)
        rw [List.cons_append, hcons, hconsAfter]
        rw [hpieces] at hs
        rw [hqieces] at hafter
        cases front with
        | nil =>
            rw [List.nil_append, List.cons.injEq] at hs hafter
            exact ⟨[], c :: last, by simp [hs.1, hs.2], by simp [hafter.1, hafter.2]⟩
        | cons f front =>
            rw [List.cons_append, List.cons.injEq] at hs hafter
            exact ⟨(c :: f) :: front, last, by simp [hs.1, hs.2], by simp [hafter.1, hafter.2]⟩

/-- The pieces between separators are the same but for blanks, when blanks are removed at the ends. -/
theorem map_trimmed_pieces_trimmed (hseparator : isBlank separator = false) (s : List Char) :
    (pieces separator (trimmed s)).map trimmed = (pieces separator s).map trimmed := by
  obtain ⟨before, after, hbefore, hafter, hs⟩ := exists_eq_trimmed s
  have hmem : separator ∉ after := by
    intro hmem
    rw [hafter separator hmem] at hseparator
    cases hseparator
  obtain ⟨front, last, hfront, hlast⟩ := exists_pieces_append hmem (before ++ trimmed s)
  calc (pieces separator (trimmed s)).map trimmed
      = (front ++ [last]).map trimmed := by
        rw [← map_trimmed_pieces_append_left hseparator hbefore, hfront]
    _ = (front ++ [last ++ after]).map trimmed := by simp [trimmed_append_right last hafter]
    _ = (pieces separator s).map trimmed := by rw [← hlast, ← hs]

end Pieces

end RecordGate.Text
