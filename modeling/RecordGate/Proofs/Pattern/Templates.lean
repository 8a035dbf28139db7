import RecordGate.Pattern.Replace

/-!
# What a template puts in

A template without a dollar sign puts in its own text. What a template puts in for a match without
groups depends on the match only if the template asks for the whole of it.
-/

namespace RecordGate

namespace Template

/-- What a template puts in for a match that has a text and no groups. -/
def fill (parts : Template) (t : List Char) : List Char := (PatternMatch.mk t [] []).expand parts

theorem expand_eq_fill (t r : List Char) (parts : Template) :
    (PatternMatch.mk t [] r).expand parts = parts.fill t := by
  induction parts with
  | nil => rfl
  | cons part parts ih => cases part <;> exact congrArg _ ih

theorem fill_cons_char (c : Char) (parts : Template) (t : List Char) :
    fill (.char c :: parts) t = c :: fill parts t := rfl

theorem fill_cons_group (n : Nat) (parts : Template) (t : List Char) :
    fill (.group n :: parts) t = (if n = 0 then t else []) ++ fill parts t := by
  cases n <;> rfl

theorem scan_cons {c : Char} (h : c ≠ '$') (fuel : Nat) (s : List Char) :
    scan (fuel + 1) (c :: s) = .char c :: scan fuel s :=
  scan.eq_4 fuel c s h

/-- A template without a dollar sign stands for its own characters. -/
theorem scan_of_not_mem {s : List Char} {fuel : Nat} (h : '$' ∉ s) (hfuel : s.length ≤ fuel) :
    scan fuel s = s.map .char := by
  induction s generalizing fuel with
  | nil => cases fuel <;> rfl
  | cons c s ih =>
      cases fuel with
      | zero => cases hfuel
      | succ fuel =>
          rw [List.mem_cons, not_or] at h
          rw [scan_cons (Ne.symm h.1), ih h.2 (Nat.le_of_succ_le_succ hfuel), List.map_cons]

theorem fill_map_char (s t : List Char) : fill (s.map .char) t = s := by
  induction s with
  | nil => rfl
  | cons c s ih => rw [List.map_cons, fill_cons_char, ih]

theorem fill_read {s : List Char} (h : '$' ∉ s) (t : List Char) : (read s).fill t = s := by
  rw [read, scan_of_not_mem h (Nat.le_refl _), fill_map_char]

/-- A template that does not ask for the whole match puts in the same text for every match. -/
theorem fill_congr {parts : Template} (h : .group 0 ∉ parts) (t u : List Char) :
    parts.fill t = parts.fill u := by
  induction parts with
  | nil => rfl
  | cons part parts ih =>
      rw [List.mem_cons, not_or] at h
      cases part with
      | char c => rw [fill_cons_char, fill_cons_char, ih h.2]
      | group n =>
          have hn : n ≠ 0 := fun hzero => h.1 (congrArg _ hzero.symm)
          rw [fill_cons_group, fill_cons_group, if_neg hn, if_neg hn, ih h.2]

/-- A template that asks for the whole match puts the match in. -/
theorem infix_fill {parts : Template} (h : .group 0 ∈ parts) (t : List Char) : t <:+: parts.fill t := by
  induction parts with
  | nil => cases h
  | cons part parts ih =>
      cases part with
      | char c =>
          have hrest : .group 0 ∈ parts := by simpa using h
          exact List.infix_cons (ih hrest)
      | group n =>
          rw [fill_cons_group]
          by_cases hn : n = 0
          · rw [if_pos hn]
            exact (List.prefix_append t _).isInfix
          · have hrest : .group 0 ∈ parts := by simpa [Ne.symm hn] using h
            rw [if_neg hn, List.nil_append]
            exact ih hrest

end Template

end RecordGate
