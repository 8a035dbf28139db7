import Mathlib.Data.List.Lex
import Mathlib.Data.Nat.Basic
import RecordGate.Proofs.Text.Bytes

/-!
# Ascending lists of texts

Texts that are put in ascending order come out strictly ascending by their bytes, each one once.
Texts that differ do so after sorting as well.
-/

namespace RecordGate.Text

section OrderBy

variable {α : Type} {key : α → Nat} {s t : List α}

theorem orderBy_eq_eq_iff :
    orderBy (fun a b => orderNat (key a) (key b)) s t = .eq ↔ s.map key = t.map key := by
  induction s generalizing t with
  | nil => cases t <;> simp [orderBy]
  | cons a s ih =>
      cases t with
      | nil => simp [orderBy]
      | cons b t =>
          rw [orderBy, List.map_cons, List.map_cons, List.cons.injEq]
          rcases Nat.lt_trichotomy (key a) (key b) with h | h | h
          · simp [orderNat_of_lt h, h.ne]
          · simp [h, orderNat_self, ih]
          · simp [orderNat_of_gt h, h.ne']

theorem orderBy_eq_lt_iff :
    orderBy (fun a b => orderNat (key a) (key b)) s t = .lt ↔ s.map key < t.map key := by
  induction s generalizing t with
  | nil => cases t <;> simp [orderBy]
  | cons a s ih =>
      cases t with
      | nil => simp [orderBy]
      | cons b t =>
          rw [orderBy, List.map_cons, List.map_cons, List.cons_lt_cons_iff]
          rcases Nat.lt_trichotomy (key a) (key b) with h | h | h
          · simp [orderNat_of_lt h, h]
          · simp [h, orderNat_self, ih]
          · simp [orderNat_of_gt h, h.ne', h.le]

end OrderBy

theorem order_eq_lt_iff {s t : String} :
    order s t = .lt ↔ s.toList.map Char.toNat < t.toList.map Char.toNat := orderBy_eq_lt_iff

theorem order_eq_eq_iff {s t : String} : order s t = .eq ↔ s = t := by
  have hinjective : Function.Injective Char.toNat := fun c d h => Char.ext (UInt32.toNat_inj.mp h)
  rw [order, orderBy_eq_eq_iff, (List.map_injective_iff.mpr hinjective).eq_iff, String.toList_inj]

theorem order_trans {s t u : String} (h : order s t = .lt) (k : order t u = .lt) :
    order s u = .lt := by
  rw [order_eq_lt_iff] at *
  exact h.trans k

theorem order_eq_lt_of_gt {s t : String} (h : order s t = .gt) : order t s = .lt := by
  have hne : s ≠ t := by
    intro heq
    rw [order_eq_eq_iff.mpr heq] at h
    cases h
  rcases lt_trichotomy (s.toList.map Char.toNat) (t.toList.map Char.toNat) with hlt | heq | hgt
  · rw [order_eq_lt_iff.mpr hlt] at h
    cases h
  · exact absurd (order_eq_eq_iff.mp (orderBy_eq_eq_iff.mpr heq)) hne
  · exact order_eq_lt_iff.mpr hgt

theorem mem_insertAscending {s u : String} {l : List String} :
    u ∈ insertAscending s l ↔ u = s ∨ u ∈ l := by
  induction l with
  | nil => simp [insertAscending]
  | cons t l ih =>
      rw [insertAscending]
      cases h : order s t with
      | lt => simp
      | eq => simp [order_eq_eq_iff.mp h]
      | gt => simp [ih, or_left_comm]

/-- A text that is not smaller than what is before it is put behind it. -/
theorem pairwise_insertAscending {s : String} {l : List String}
    (h : l.Pairwise fun a b => order a b = .lt) :
    (insertAscending s l).Pairwise fun a b => order a b = .lt := by
  induction l with
  | nil => simp [insertAscending]
  | cons t l ih =>
      obtain ⟨hfirst, hrest⟩ := List.pairwise_cons.mp h
      rw [insertAscending]
      cases hst : order s t with
      | lt =>
          refine List.pairwise_cons.mpr ⟨?_, h⟩
          intro u hu
          rcases List.mem_cons.mp hu with rfl | hu
          · exact hst
          · exact order_trans hst (hfirst u hu)
      | eq => exact h
      | gt =>
          refine List.pairwise_cons.mpr ⟨?_, ih hrest⟩
          intro u hu
          rcases mem_insertAscending.mp hu with rfl | hu
          · exact order_eq_lt_of_gt hst
          · exact hfirst u hu

theorem mem_ascending {u : String} {texts : List String} : u ∈ ascending texts ↔ u ∈ texts := by
  unfold ascending
  induction texts with
  | nil => simp
  | cons s texts ih => rw [List.foldr_cons, mem_insertAscending, ih, List.mem_cons]

/-- Texts in ascending order are strictly ascending by their bytes. -/
theorem pairwise_ascending (texts : List String) :
    (ascending texts).Pairwise fun a b => orderBytes (bytes a) (bytes b) = .lt := by
  have hpairwise : (ascending texts).Pairwise fun a b => order a b = .lt := by
    unfold ascending
    induction texts with
    | nil => exact .nil
    | cons s texts ih => exact pairwise_insertAscending ih
  refine hpairwise.imp fun {a b} h => ?_
  rwa [← order_eq_orderBytes]

theorem order_ne_gt_iff {s t : String} :
    (order s t != .gt) = true ↔ s.toList.map Char.toNat ≤ t.toList.map Char.toNat := by
  rw [bne_iff_ne, ← not_lt, ← order_eq_lt_iff, not_iff_not]
  refine ⟨order_eq_lt_of_gt, fun h => ?_⟩
  cases hst : order s t with
  | gt => rfl
  | lt =>
      rw [order_eq_lt_iff] at h hst
      exact absurd h hst.not_gt
  | eq =>
      rw [order_eq_eq_iff.mp hst, order_eq_eq_iff.mpr rfl] at h
      cases h

theorem mem_sorted {u : String} {texts : List String} : u ∈ sorted texts ↔ u ∈ texts :=
  List.mem_mergeSort

/-- Different texts are strictly ascending by their bytes after sorting. -/
theorem pairwise_sorted {texts : List String} (h : texts.Nodup) :
    (sorted texts).Pairwise fun a b => orderBytes (bytes a) (bytes b) = .lt := by
  have hdiffer : (sorted texts).Nodup := (List.mergeSort_perm texts _).nodup_iff.mpr h
  have hascend : (sorted texts).Pairwise fun a b => (order a b != .gt) = true := by
    refine List.pairwise_mergeSort (fun a b c hab hbc => ?_) (fun a b => ?_) texts
    · rw [order_ne_gt_iff] at *
      exact hab.trans hbc
    · rw [Bool.or_eq_true, order_ne_gt_iff, order_ne_gt_iff]
      exact le_total _ _
  refine (hascend.and hdiffer).imp fun {a b} h => ?_
  obtain ⟨hle, hne⟩ := h
  rw [← order_eq_orderBytes]
  cases hab : order a b with
  | lt => rfl
  | eq => exact absurd (order_eq_eq_iff.mp hab) hne
  | gt => simp [hab] at hle

end RecordGate.Text
