import Mathlib.Data.List.Nodup
import RecordGate.Store

/-!
# The record of a key

Where no two records have one key, a key that is present splits the records into those before its
record, this record, and those after it. Every operation on the key meets this record: it is the one
that is found, that gives its place to another one, and that is taken out from between the rest.
-/

namespace RecordGate.Store

variable {ρ : Type} [Entity ρ] {s : Store ρ} {key : Uuid} {r : ρ}

/-- The keys of the records, in the order of the records. -/
def keys (s : Store ρ) : List Uuid := s.records.map Entity.key

/-- No two records have one key. -/
def KeysDistinct (s : Store ρ) : Prop := s.keys.Nodup

/-- A list of records with its only record of a key, `old`, and the records before and after it. -/
structure Splits (key : Uuid) (records front : List ρ) (old : ρ) (back : List ρ) : Prop where
  eq_append : records = front ++ old :: back
  key_old : Entity.key old = key
  front_ne : ∀ x ∈ front, Entity.key x ≠ key
  back_ne : ∀ x ∈ back, Entity.key x ≠ key

theorem hasKey_iff : hasKey key r = true ↔ Entity.key r = key := by simp [hasKey]

theorem mem_keys_iff : key ∈ s.keys ↔ ∃ x ∈ s.records, Entity.key x = key := by simp [keys]

theorem key_ne_of_not_mem (h : key ∉ s.keys) : ∀ x ∈ s.records, Entity.key x ≠ key := by
  intro x hx hkey
  exact h (mem_keys_iff.mpr ⟨x, hx, hkey⟩)

theorem exists_splits (distinct : s.KeysDistinct) (h : key ∈ s.keys) :
    ∃ front old back, Splits key s.records front old back := by
  obtain ⟨old, hold, hkey⟩ := mem_keys_iff.mp h
  obtain ⟨front, back, heq⟩ := List.append_of_mem hold
  have hnodup : (front.map Entity.key ++ Entity.key old :: back.map Entity.key).Nodup := by
    have : s.keys.Nodup := distinct
    rw [keys, heq] at this
    simpa using this
  obtain ⟨-, hback, hdisjoint⟩ := List.nodup_append.mp hnodup
  refine ⟨front, old, back, heq, hkey, ?_, ?_⟩
  · intro x hx hxkey
    exact hdisjoint _ (List.mem_map_of_mem hx) _ List.mem_cons_self (hxkey.trans hkey.symm)
  · intro x hx hxkey
    have hmem : Entity.key old ∈ back.map Entity.key :=
      List.mem_map.mpr ⟨x, hx, hxkey.trans hkey.symm⟩
    exact (List.nodup_cons.mp hback).1 hmem

/-! ### Putting a record in -/

theorem insert_of_mem (h : Entity.key r ∈ s.keys) :
    s.insert r = .error (.duplicate (entityName ρ) (Entity.key r)) := by
  obtain ⟨x, hx, hkey⟩ := mem_keys_iff.mp h
  have hany : s.records.any (hasKey (Entity.key r)) = true :=
    List.any_eq_true.mpr ⟨x, hx, hasKey_iff.mpr hkey⟩
  rw [insert, if_pos hany]

theorem insert_of_not_mem (h : Entity.key r ∉ s.keys) : s.insert r = .ok ⟨s.records ++ [r]⟩ := by
  have hany : ¬ s.records.any (hasKey (Entity.key r)) = true := by
    intro hany
    obtain ⟨x, hx, hkey⟩ := List.any_eq_true.mp hany
    exact key_ne_of_not_mem h x hx (hasKey_iff.mp hkey)
  rw [insert, if_neg hany]

/-! ### A key that is absent -/

theorem get_of_not_mem (h : key ∉ s.keys) :
    s.get key = .error (.notFound (entityName ρ) key) := by
  have hnone : s.records.find? (hasKey key) = none := by
    rw [List.find?_eq_none]
    intro x hx hkey
    exact key_ne_of_not_mem h x hx (hasKey_iff.mp hkey)
  rw [get, hnone]

theorem replaceFirst_eq_none {records : List ρ}
    (h : ∀ x ∈ records, Entity.key x ≠ Entity.key r) : replaceFirst r records = none := by
  induction records with
  | nil => rfl
  | cons x rest ih =>
      have hx : ¬ hasKey (Entity.key r) x = true := by
        rw [hasKey_iff]
        exact h x List.mem_cons_self
      rw [replaceFirst, if_neg hx, ih fun y hy => h y (List.mem_cons_of_mem x hy), Option.map_none]

theorem update_of_not_mem (h : Entity.key r ∉ s.keys) :
    s.update r = .error (.notFound (entityName ρ) (Entity.key r)) := by
  rw [update, replaceFirst_eq_none (key_ne_of_not_mem h)]

theorem filter_not_hasKey {records : List ρ} (h : ∀ x ∈ records, Entity.key x ≠ key) :
    (records.filter fun x => !hasKey key x) = records := by
  rw [List.filter_eq_self]
  intro x hx
  simpa [hasKey] using h x hx

theorem delete_of_not_mem (h : key ∉ s.keys) :
    s.delete key = .error (.notFound (entityName ρ) key) := by
  simp only [delete, filter_not_hasKey (key_ne_of_not_mem h), beq_self_eq_true, if_true]

/-- A deletion that fails has found nothing to take out. -/
theorem filter_of_delete_eq_error {e : StoreError} (h : s.delete key = .error e) :
    (s.records.filter fun x => !hasKey key x) = s.records := by
  by_cases hlength : (s.records.filter fun x => !hasKey key x).length = s.records.length
  · exact List.filter_sublist.eq_of_length hlength
  · simp [delete, hlength] at h

/-! ### A key that is present -/

namespace Splits

variable {records front back : List ρ} {old : ρ}

theorem get_eq (h : Splits key s.records front old back) : s.get key = .ok old := by
  have hfront : front.find? (hasKey key) = none := by
    rw [List.find?_eq_none]
    intro x hx hkey
    exact h.front_ne x hx (hasKey_iff.mp hkey)
  rw [get, h.eq_append, List.find?_append, hfront, Option.none_or,
    List.find?_cons_of_pos (hasKey_iff.mpr h.key_old)]

theorem replaceFirst_eq (h : Splits key records front old back) (hkey : Entity.key r = key) :
    replaceFirst r records = some (front ++ r :: back) := by
  obtain ⟨rfl, hold, hfront, -⟩ := h
  induction front with
  | nil =>
      have hpos : hasKey (Entity.key r) old = true := hasKey_iff.mpr (hold.trans hkey.symm)
      rw [List.nil_append, replaceFirst, if_pos hpos, List.nil_append]
  | cons x front ih =>
      have hneg : ¬ hasKey (Entity.key r) x = true := by
        rw [hasKey_iff, hkey]
        exact hfront x List.mem_cons_self
      rw [List.cons_append, replaceFirst, if_neg hneg,
        ih fun y hy => hfront y (List.mem_cons_of_mem x hy), Option.map_some, List.cons_append]

theorem update_eq (h : Splits key s.records front old back) (hkey : Entity.key r = key) :
    s.update r = .ok ⟨front ++ r :: back⟩ := by
  rw [update, h.replaceFirst_eq hkey]

theorem filter_eq (h : Splits key records front old back) :
    (records.filter fun x => !hasKey key x) = front ++ back := by
  rw [h.eq_append, List.filter_append, List.filter_cons_of_neg (by simp [hasKey, h.key_old]),
    filter_not_hasKey h.front_ne, filter_not_hasKey h.back_ne]

theorem delete_eq (h : Splits key s.records front old back) :
    s.delete key = .ok ⟨front ++ back⟩ := by
  have hlength : ¬ (front ++ back).length = s.records.length := by
    rw [h.eq_append]
    simp only [List.length_append, List.length_cons]
    omega
  simp only [delete, h.filter_eq, beq_iff_eq, hlength, if_false]

/-- A record in the place of one of its key leaves the keys as they are. -/
theorem keys_replace (h : Splits key records front old back) (hkey : Entity.key r = key) :
    (front ++ r :: back).map Entity.key = records.map Entity.key := by
  rw [h.eq_append]
  simp [hkey, h.key_old]

/-- Without its record, a key is missing from the keys. -/
theorem keys_remove (h : Splits key records front old back) :
    (front ++ back).map Entity.key = (records.map Entity.key).erase key := by
  have hfront : key ∉ front.map Entity.key := by
    intro hmem
    obtain ⟨x, hx, hkey⟩ := List.mem_map.mp hmem
    exact h.front_ne x hx hkey
  rw [h.eq_append, List.map_append, List.map_append, List.map_cons, h.key_old,
    List.erase_append_right _ hfront, List.erase_cons_head]

end Splits

/-! ### A record that is present -/

theorem exists_splits_of_mem (distinct : s.KeysDistinct) (h : r ∈ s.records) :
    ∃ front back, Splits (Entity.key r) s.records front r back := by
  obtain ⟨front, old, back, hsplits⟩ := exists_splits distinct (mem_keys_iff.mpr ⟨r, h, rfl⟩)
  have hold : old ∈ s.records := by simp [hsplits.eq_append]
  obtain rfl : old = r := List.inj_on_of_nodup_map distinct hold h hsplits.key_old
  exact ⟨front, back, hsplits⟩

theorem get_of_mem (distinct : s.KeysDistinct) (h : r ∈ s.records) :
    s.get (Entity.key r) = .ok r := by
  obtain ⟨front, back, hsplits⟩ := exists_splits_of_mem distinct h
  exact hsplits.get_eq

/-- A record that is put in its own place changes nothing. -/
theorem update_of_mem (distinct : s.KeysDistinct) (h : r ∈ s.records) : s.update r = .ok s := by
  obtain ⟨front, back, hsplits⟩ := exists_splits_of_mem distinct h
  rw [hsplits.update_eq rfl, ← hsplits.eq_append]

end RecordGate.Store
