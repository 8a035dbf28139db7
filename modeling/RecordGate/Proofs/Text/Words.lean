import RecordGate.Proofs.Text.Trimming
import RecordGate.Text.Caseless

/-!
# Words between blanks

A text that is one word, whatever blanks stand around it and in whatever case the word is written.
-/

namespace RecordGate.Text

/-- A text is a word between blanks, but for the case of ASCII letters. -/
def Spells (word : String) (t : List Char) : Prop :=
  ∃ before inner after, Blank before ∧ Blank after ∧ t = before ++ inner ++ after ∧
    sameName word (String.ofList inner) = true

theorem fold_ofList (s : List Char) : fold (String.ofList s) = s.map foldChar := by
  rw [fold, String.toList_ofList]

theorem isBlank_foldChar (c : Char) : isBlank (foldChar c) = isBlank c := by
  have all : ∀ i : Fin 26,
      isBlank (foldChar (Char.ofNat (65 + i))) = isBlank (Char.ofNat (65 + i)) := by decide
  by_cases h : 65 ≤ c.toNat ∧ c.toNat ≤ 90
  · have hc : Char.ofNat (65 + (c.toNat - 65)) = c := by
      rw [Nat.add_sub_cancel' h.1, Char.ofNat_toNat]
    have hfold := all ⟨c.toNat - 65, by omega⟩
    rwa [hc] at hfold
  · have hfold : foldChar c = c := by
      unfold foldChar
      rw [if_neg (by simpa using h)]
    rw [hfold]

/-- The word of a text is what is left of it without the blanks around it. -/
theorem Spells.sameName_trimmed {word : String} {t : List Char} (h : Spells word t)
    (hword : (fold word).any isBlank = false) :
    sameName word (String.ofList (trimmed t)) = true := by
  obtain ⟨before, inner, after, hbefore, hafter, rfl, hsame⟩ := h
  have hinner : trimmed inner = inner := by
    refine trimmed_of_forall fun c hc => ?_
    have hmem : foldChar c ∈ fold word := by
      rw [sameName_iff.mp hsame, fold_ofList]
      exact List.mem_map_of_mem hc
    rw [← isBlank_foldChar, Bool.eq_false_iff]
    exact List.any_eq_false.mp hword _ hmem
  rwa [trimmed_append_right _ hafter, trimmed_append_left hbefore, hinner]

theorem spells_of_sameName_trimmed {word : String} {t : List Char}
    (h : sameName word (String.ofList (trimmed t)) = true) : Spells word t := by
  obtain ⟨before, after, hbefore, hafter, ht⟩ := exists_eq_trimmed t
  exact ⟨before, trimmed t, after, hbefore, hafter, ht, h⟩

theorem Spells.exists_mem {word : String} {t : List Char} (h : Spells word t) {d : Char}
    (hd : d ∈ fold word) : ∃ c ∈ t, foldChar c = d := by
  obtain ⟨before, inner, after, -, -, rfl, hsame⟩ := h
  rw [sameName_iff.mp hsame, fold_ofList] at hd
  obtain ⟨c, hc, rfl⟩ := List.mem_map.mp hd
  exact ⟨c, by simp [hc], rfl⟩

theorem Spells.not_mem {word : String} {t : List Char} (h : Spells word t) {c : Char}
    (hblank : isBlank c = false) (hword : foldChar c ∉ fold word) : c ∉ t := by
  obtain ⟨before, inner, after, hbefore, hafter, rfl, hsame⟩ := h
  intro hc
  rw [List.mem_append, List.mem_append] at hc
  rcases hc with (hc | hc) | hc
  · rw [hbefore c hc] at hblank
    cases hblank
  · apply hword
    rw [sameName_iff.mp hsame, fold_ofList]
    exact List.mem_map_of_mem hc
  · rw [hafter c hc] at hblank
    cases hblank

end RecordGate.Text
