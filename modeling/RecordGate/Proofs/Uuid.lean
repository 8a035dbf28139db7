import RecordGate.Acl.Model
import RecordGate.Proofs.Text.Digits
import RecordGate.Proofs.Text.Split

/-!
# Identifiers through their written form

An identifier is read back from the form in which it is written, which has no blanks around it.
-/

namespace RecordGate.Uuid

theorem ofNat_val (u : Uuid) : ofNat u.value.val = u := by
  have hlt : u.value.val < size := u.value.isLt
  simp [ofNat, Nat.mod_eq_of_lt hlt]

theorem ofDigits?_hexDigits (u : Uuid) : ofDigits? (hexDigits 32 u.value.val) = some u := by
  have hlt : u.value.val < 16 ^ 32 := u.value.isLt
  rw [ofDigits?, length_hexDigits, hexFrom?_hexDigits hlt, Option.map_some, ofNat_val]
  rfl

/-- The hexadecimal digits of an identifier. -/
def digits (u : Uuid) : List Char := hexDigits 32 u.value.val

theorem ne_of_mem_digits {u : Uuid} {c : Char} (h : c ∈ u.digits) :
    c ≠ '-' ∧ Text.isBlank c = false := by
  have all : ∀ i : Fin 16, Nat.digitChar i ≠ '-' ∧ Text.isBlank (Nat.digitChar i) = false := by decide
  obtain ⟨d, hd, rfl⟩ := exists_of_mem_hexDigits h
  exact all ⟨d, hd⟩

/-- The digits between the hyphens. -/
def groups (u : Uuid) : List (List Char) :=
  [u.digits.take 8, (u.digits.drop 8).take 4, (u.digits.drop 12).take 4, (u.digits.drop 16).take 4,
    u.digits.drop 20]

theorem flatten_groups (u : Uuid) : u.groups.flatten = u.digits := by
  have hstep (m n : Nat) : (u.digits.drop m).take n ++ u.digits.drop (m + n) = u.digits.drop m := by
    rw [← List.drop_drop, List.take_append_drop]
  simp only [groups, List.flatten_cons, List.flatten_nil, List.append_nil]
  rw [hstep 16 4, hstep 12 4, hstep 8 4, List.take_append_drop]

theorem length_groups (u : Uuid) : u.groups.map List.length = [8, 4, 4, 4, 12] := by
  have hlength : u.digits.length = 32 := length_hexDigits 32 u.value.val
  simp [groups, hlength]

theorem toList_text (u : Uuid) : u.text.toList =
    u.digits.take 8 ++ '-' :: ((u.digits.drop 8).take 4 ++ '-' :: ((u.digits.drop 12).take 4 ++
      '-' :: ((u.digits.drop 16).take 4 ++ '-' :: u.digits.drop 20))) := by
  rw [text, String.toList_ofList, digits]

theorem pieces_text (u : Uuid) : Text.pieces '-' u.text.toList = u.groups := by
  have hgroup (a : List Char) (h : ∀ c ∈ a, c ∈ u.digits) : Text.pieces '-' a = [a] :=
    Text.pieces_of_not_mem fun hm => (ne_of_mem_digits (h '-' hm)).1 rfl
  have htake (m n : Nat) (c : Char) (h : c ∈ (u.digits.drop m).take n) : c ∈ u.digits :=
    List.mem_of_mem_drop (List.mem_of_mem_take h)
  rw [toList_text, Text.pieces_append, Text.pieces_append, Text.pieces_append, Text.pieces_append,
    hgroup _ (fun _ => List.mem_of_mem_take), hgroup _ (htake 8 4), hgroup _ (htake 12 4),
    hgroup _ (htake 16 4), hgroup _ (fun _ => List.mem_of_mem_drop)]
  rfl

theorem length_text (u : Uuid) : u.text.toList.length = 36 := by
  have hlength : u.digits.length = 32 := length_hexDigits 32 u.value.val
  simp [toList_text, hlength]

/-- A written identifier is read as that identifier. -/
theorem read?_text (u : Uuid) : read? u.text.toList = some u := by
  unfold read?
  rw [length_text, if_neg (by decide), if_pos (by decide), ofGroups?, pieces_text, length_groups,
    flatten_groups, if_pos (by decide)]
  exact ofDigits?_hexDigits u

theorem mem_digits_of_mem_text {u : Uuid} {c : Char} (h : c ∈ u.text.toList) :
    c ∈ u.digits ∨ c = '-' := by
  rw [toList_text] at h
  simp only [List.mem_append, List.mem_cons] at h
  have htake (m n : Nat) (h : c ∈ (u.digits.drop m).take n) : c ∈ u.digits :=
    List.mem_of_mem_drop (List.mem_of_mem_take h)
  rcases h with h | h | h | h | h | h | h | h | h
  · exact .inl (List.mem_of_mem_take h)
  · exact .inr h
  · exact .inl (htake 8 4 h)
  · exact .inr h
  · exact .inl (htake 12 4 h)
  · exact .inr h
  · exact .inl (htake 16 4 h)
  · exact .inr h
  · exact .inl (List.mem_of_mem_drop h)

theorem isBlank_of_mem_text {u : Uuid} {c : Char} (h : c ∈ u.text.toList) :
    Text.isBlank c = false := by
  rcases mem_digits_of_mem_text h with hc | rfl
  · exact (ne_of_mem_digits hc).2
  · decide

/-- A written identifier stands in a path as it is. -/
theorem ne_of_mem_text {u : Uuid} {c : Char} (h : c ∈ u.text.toList) : c ≠ '%' ∧ c ≠ '/' := by
  have all : ∀ i : Fin 16, Nat.digitChar i ≠ '%' ∧ Nat.digitChar i ≠ '/' := by decide
  rcases mem_digits_of_mem_text h with hc | rfl
  · obtain ⟨d, hd, rfl⟩ := exists_of_mem_hexDigits hc
    exact all ⟨d, hd⟩
  · decide

theorem parseTrimmed?_text (u : Uuid) : parseTrimmed? u.text = some u := by
  rw [parseTrimmed?, Text.trimmed_of_forall fun c hc => isBlank_of_mem_text hc]
  exact read?_text u

end RecordGate.Uuid
