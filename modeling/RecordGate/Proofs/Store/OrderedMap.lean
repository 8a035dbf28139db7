import Mathlib.Logic.Function.Basic
import RecordGate.Entity.Author
import RecordGate.Proofs.Store.Keys

/-!
# Stores as ordered maps

An ordered map leads from keys to records and remembers the order in which its keys were put in. A
store in which no two records have one key is such a map written as a list: whatever is done with it,
the answers are those of the map, and the records are the values of the map in its order.
-/

namespace RecordGate

/-- Something that is done with a store. -/
inductive Store.Act (ρ : Type)
  | insert (r : ρ)
  | update (r : ρ)
  | delete (key : Uuid)
  | get (key : Uuid)
  | find (p : Predicate)

/-- What comes of an act: a record, several, none where one was deleted, or a failure. -/
inductive Store.Answer (ρ : Type)
  | record (r : ρ)
  | records (rs : List ρ)
  | deleted
  | failed (e : StoreError)

namespace Store.Act

variable {ρ σ τ : Type}

/-- The state after a sequence of acts, with the answers to them. -/
def run (step : σ → Act ρ → σ × Answer ρ) : σ → List (Act ρ) → σ × List (Answer ρ)
  | s, [] => (s, [])
  | s, act :: acts =>
      let next := step s act
      let last := run step next.1 acts
      (last.1, next.2 :: last.2)

/-- When a view of states commutes with every act, it commutes with every sequence of acts. -/
theorem run_view {step : σ → Act ρ → σ × Answer ρ} {stepView : τ → Act ρ → τ × Answer ρ}
    {view : σ → τ}
    (h : ∀ s act, stepView (view s) act = (view (step s act).1, (step s act).2)) (s : σ)
    (acts : List (Act ρ)) :
    run stepView (view s) acts = (view (run step s acts).1, (run step s acts).2) := by
  induction acts generalizing s with
  | nil => rfl
  | cons act acts ih => simp only [run, h, ih]

end Store.Act

open Store (Act Answer Splits)

variable {ρ : Type} [Entity ρ]

namespace Store

/-- An act on a store. One that fails leaves the store as it was. -/
def step (s : Store ρ) : Act ρ → Store ρ × Answer ρ
  | .insert r =>
      match s.insert r with
      | .ok after => (after, .record r)
      | .error e => (s, .failed e)
  | .update r =>
      match s.update r with
      | .ok after => (after, .record r)
      | .error e => (s, .failed e)
  | .delete key =>
      match s.delete key with
      | .ok after => (after, .deleted)
      | .error e => (s, .failed e)
  | .get key =>
      match s.get key with
      | .ok r => (s, .record r)
      | .error e => (s, .failed e)
  | .find p => (s, .records (s.find p))

def run (s : Store ρ) (acts : List (Act ρ)) : Store ρ × List (Answer ρ) := Act.run step s acts

end Store

/-- A finite map from keys to records with its keys in the order in which they were put in. -/
structure OrderedMap (ρ : Type) [Entity ρ] where
  order : List Uuid
  lookup : Uuid → Option ρ
  nodup : order.Nodup
  mem_order_iff : ∀ key, key ∈ order ↔ (lookup key).isSome = true
  key_of_lookup : ∀ key r, lookup key = some r → Entity.key r = key

namespace OrderedMap

variable {m : OrderedMap ρ} {key : Uuid} {r : ρ}

/-- A key that is new comes last. -/
def append (m : OrderedMap ρ) (r : ρ) (h : Entity.key r ∉ m.order) : OrderedMap ρ where
  order := m.order ++ [Entity.key r]
  lookup := Function.update m.lookup (Entity.key r) (some r)
  nodup := List.nodup_append.mpr ⟨m.nodup, List.nodup_singleton _, by
    intro key hkey other hother heq
    rw [heq, List.mem_singleton.mp hother] at hkey
    exact h hkey⟩
  mem_order_iff key := by
    by_cases hkey : key = Entity.key r
    · simp [hkey]
    · simp [hkey, m.mem_order_iff]
  key_of_lookup key x := by
    by_cases hkey : key = Entity.key r
    · subst hkey
      simp +contextual
    · simpa [hkey] using m.key_of_lookup key x

/-- A key that is present keeps its position and leads to another record. -/
def replace (m : OrderedMap ρ) (r : ρ) (h : Entity.key r ∈ m.order) : OrderedMap ρ where
  order := m.order
  lookup := Function.update m.lookup (Entity.key r) (some r)
  nodup := m.nodup
  mem_order_iff key := by
    by_cases hkey : key = Entity.key r
    · simp [hkey, h]
    · simp [hkey, m.mem_order_iff]
  key_of_lookup key x := by
    by_cases hkey : key = Entity.key r
    · subst hkey
      simp +contextual
    · simpa [hkey] using m.key_of_lookup key x

/-- The map without a key. -/
def remove (m : OrderedMap ρ) (key : Uuid) : OrderedMap ρ where
  order := m.order.erase key
  lookup := Function.update m.lookup key none
  nodup := m.nodup.erase key
  mem_order_iff other := by
    by_cases hother : other = key
    · simp [hother, m.nodup.mem_erase_iff]
    · simp [hother, m.nodup.mem_erase_iff, m.mem_order_iff]
  key_of_lookup other x := by
    by_cases hother : other = key
    · simp [hother]
    · simpa [hother] using m.key_of_lookup other x

/-- An act on a map: a key is put in only when it is absent, anything else is done to a key only when
it is present, and of all records those are found that are looked for, each once and in order. -/
def step (m : OrderedMap ρ) : Act ρ → OrderedMap ρ × Answer ρ
  | .insert r =>
      if h : Entity.key r ∈ m.order then
        (m, .failed (.duplicate (Store.entityName ρ) (Entity.key r)))
      else (m.append r h, .record r)
  | .update r =>
      if h : Entity.key r ∈ m.order then (m.replace r h, .record r)
      else (m, .failed (.notFound (Store.entityName ρ) (Entity.key r)))
  | .delete key =>
      if key ∈ m.order then (m.remove key, .deleted)
      else (m, .failed (.notFound (Store.entityName ρ) key))
  | .get key =>
      match m.lookup key with
      | some r => (m, .record r)
      | none => (m, .failed (.notFound (Store.entityName ρ) key))
  | .find p =>
      (m, .records (m.order.filterMap fun key => (m.lookup key).filter (p.holds Entity.schema)))

def run (m : OrderedMap ρ) (acts : List (Act ρ)) : OrderedMap ρ × List (Answer ρ) :=
  Act.run step m acts

/-- The records of a map in its order. -/
def values (m : OrderedMap ρ) : List ρ := m.order.filterMap m.lookup

/-- The store in which a map is written as a list. -/
def store (m : OrderedMap ρ) : Store ρ := ⟨m.values⟩

/-! ### The values of a map -/

theorem filterMap_map_key {f : Uuid → Option ρ} {records : List ρ}
    (h : ∀ x ∈ records, f (Entity.key x) = some x) :
    (records.map Entity.key).filterMap f = records := by
  rw [List.filterMap_map]
  have hsome : records.filterMap (f ∘ Entity.key) = records.filterMap some :=
    List.filterMap_congr h
  rw [hsome, List.filterMap_some]

omit [Entity ρ] in
theorem filterMap_update_of_not_mem {f : Uuid → Option ρ} {value : Option ρ} {l : List Uuid}
    (h : key ∉ l) : l.filterMap (Function.update f key value) = l.filterMap f := by
  refine List.filterMap_congr fun other hother => ?_
  have hne : other ≠ key := fun heq => h (heq ▸ hother)
  rw [Function.update_of_ne hne]

theorem keys_store (m : OrderedMap ρ) : m.store.keys = m.order := by
  have hkey : ∀ key ∈ m.order, (m.lookup key).map Entity.key = some key := by
    intro key hmem
    obtain ⟨r, hr⟩ := Option.isSome_iff_exists.mp ((m.mem_order_iff key).mp hmem)
    rw [hr, Option.map_some, m.key_of_lookup key r hr]
  rw [Store.keys, store, values, List.map_filterMap, List.filterMap_congr hkey,
    List.filterMap_some]

theorem keysDistinct_store (m : OrderedMap ρ) : m.store.KeysDistinct := by
  rw [Store.KeysDistinct, keys_store]
  exact m.nodup

theorem lookup_of_mem_values {x : ρ} (h : x ∈ m.values) : m.lookup (Entity.key x) = some x := by
  obtain ⟨key, -, hx⟩ := List.mem_filterMap.mp h
  rw [m.key_of_lookup key x hx, hx]

theorem exists_splits (h : key ∈ m.order) :
    ∃ front old back, Splits key m.store.records front old back :=
  Store.exists_splits m.keysDistinct_store (by rwa [keys_store])

theorem lookup_of_splits {front back : List ρ} {old : ρ}
    (h : Splits key m.store.records front old back) : m.lookup key = some old := by
  have hold : old ∈ m.values := by
    have heq : m.values = front ++ old :: back := h.eq_append
    simp [heq]
  rw [← h.key_old]
  exact lookup_of_mem_values hold

theorem store_append (h : Entity.key r ∉ m.order) :
    (m.append r h).store = ⟨m.store.records ++ [r]⟩ := by
  simp only [store, values, append, List.filterMap_append, filterMap_update_of_not_mem h,
    List.filterMap_cons, List.filterMap_nil, Function.update_self]

/-- Around the record of a key, the values do not depend on where the key leads. -/
theorem filterMap_update_of_splits {front back : List ρ} {old : ρ} {value : Option ρ}
    (h : Splits key m.store.records front old back) {l : List ρ} (hl : l = front ∨ l = back) :
    (l.map Entity.key).filterMap (Function.update m.lookup key value) = l := by
  have heq : m.values = front ++ old :: back := h.eq_append
  refine filterMap_map_key fun x hx => ?_
  have hne : Entity.key x ≠ key := by
    obtain rfl | rfl := hl
    · exact h.front_ne x hx
    · exact h.back_ne x hx
  have hmem : x ∈ m.values := by
    rw [heq]
    obtain rfl | rfl := hl <;> simp [hx]
  rw [Function.update_of_ne hne, lookup_of_mem_values hmem]

theorem store_replace {front back : List ρ} {old : ρ} (hr : Entity.key r ∈ m.order)
    (h : Splits (Entity.key r) m.store.records front old back) :
    (m.replace r hr).store = ⟨front ++ r :: back⟩ := by
  have horder : m.order = (front ++ r :: back).map Entity.key := by
    rw [h.keys_replace rfl, ← Store.keys, keys_store]
  simp only [store, values, replace, horder, List.map_append, List.map_cons, List.filterMap_append,
    List.filterMap_cons, Function.update_self, filterMap_update_of_splits h (.inl rfl),
    filterMap_update_of_splits h (.inr rfl)]

theorem store_remove {front back : List ρ} {old : ρ}
    (h : Splits key m.store.records front old back) :
    (m.remove key).store = ⟨front ++ back⟩ := by
  have horder : m.order.erase key = (front ++ back).map Entity.key := by
    rw [h.keys_remove, ← Store.keys, keys_store]
  simp only [store, values, remove, horder, List.map_append, List.filterMap_append,
    filterMap_update_of_splits h (.inl rfl), filterMap_update_of_splits h (.inr rfl)]

/-! ### A store does what the map does -/

theorem step_store (m : OrderedMap ρ) (act : Act ρ) :
    m.store.step act = ((m.step act).1.store, (m.step act).2) := by
  have hkeys := m.keys_store
  cases act with
  | insert r =>
      by_cases h : Entity.key r ∈ m.order
      · have hfails := Store.insert_of_mem (hkeys ▸ h)
        simp only [Store.step, hfails, step, dif_pos h]
      · have hdone := Store.insert_of_not_mem (hkeys ▸ h)
        simp only [Store.step, hdone, step, dif_neg h, store_append h]
  | update r =>
      by_cases h : Entity.key r ∈ m.order
      · obtain ⟨front, old, back, hsplits⟩ := exists_splits h
        simp only [Store.step, hsplits.update_eq rfl, step, dif_pos h,
          store_replace h hsplits]
      · have hfails := Store.update_of_not_mem (hkeys ▸ h)
        simp only [Store.step, hfails, step, dif_neg h]
  | delete key =>
      by_cases h : key ∈ m.order
      · obtain ⟨front, old, back, hsplits⟩ := exists_splits h
        simp only [Store.step, hsplits.delete_eq, step, if_pos h, store_remove hsplits]
      · have hfails := Store.delete_of_not_mem (hkeys ▸ h)
        simp only [Store.step, hfails, step, if_neg h]
  | get key =>
      by_cases h : key ∈ m.order
      · obtain ⟨front, old, back, hsplits⟩ := exists_splits h
        simp only [Store.step, hsplits.get_eq, step, lookup_of_splits hsplits]
      · have hnone : m.lookup key = none := by
          rwa [m.mem_order_iff, Option.not_isSome_iff_eq_none] at h
        have hfails := Store.get_of_not_mem (hkeys ▸ h)
        simp only [Store.step, hfails, step, hnone]
  | find p => simp only [Store.step, Store.find, store, values, List.filter_filterMap, step]

/-- The map that is written in a store. -/
def ofStore (s : Store ρ) (distinct : s.KeysDistinct) : OrderedMap ρ where
  order := s.keys
  lookup key := s.records.find? (Store.hasKey key)
  nodup := distinct
  mem_order_iff key := by simp [Store.mem_keys_iff, Store.hasKey_iff]
  key_of_lookup _ _ h := Store.hasKey_iff.mp (List.find?_some h)

theorem store_ofStore (s : Store ρ) (distinct : s.KeysDistinct) :
    (ofStore s distinct).store = s := by
  have hfind : ∀ x ∈ s.records, s.records.find? (Store.hasKey (Entity.key x)) = some x := by
    intro x hx
    obtain ⟨y, hy⟩ : ∃ y, s.records.find? (Store.hasKey (Entity.key x)) = some y := by
      rw [← Option.isSome_iff_exists, List.find?_isSome]
      exact ⟨x, hx, Store.hasKey_iff.mpr rfl⟩
    have hkey : Entity.key y = Entity.key x := Store.hasKey_iff.mp (List.find?_some hy)
    have hsame : y = x := List.inj_on_of_nodup_map distinct (List.mem_of_find?_eq_some hy) hx hkey
    rw [hy, hsame]
  have hvalues : (ofStore s distinct).values = s.records := filterMap_map_key hfind
  rw [store, hvalues]

end OrderedMap

namespace Store

/-- Whatever is done with a store whose keys are distinct, the records are the values of the map that
is written in it, after the same acts, and the answers are those of the map. The keys stay distinct,
and a deletion that fails finds nothing to take out. -/
theorem run_eq_orderedMap (s : Store ρ) (distinct : s.KeysDistinct) (acts : List (Act ρ)) :
    (s.run acts).1.records = ((OrderedMap.ofStore s distinct).run acts).1.values ∧
      (s.run acts).2 = ((OrderedMap.ofStore s distinct).run acts).2 ∧
      (s.run acts).1.KeysDistinct ∧
      ∀ key e, (s.run acts).1.delete key = .error e →
        ((s.run acts).1.records.filter fun x => !hasKey key x) = (s.run acts).1.records := by
  have hrun : s.run acts = (((OrderedMap.ofStore s distinct).run acts).1.store,
      ((OrderedMap.ofStore s distinct).run acts).2) := by
    have hview := Act.run_view OrderedMap.step_store (OrderedMap.ofStore s distinct) acts
    rwa [OrderedMap.store_ofStore] at hview
  refine ⟨by rw [hrun]; rfl, by rw [hrun], ?_, ?_⟩
  · rw [hrun]
    exact OrderedMap.keysDistinct_store _
  · intro key e h
    exact filter_of_delete_eq_error h

/-- A library of two authors. -/
def twoAuthors : Store Author := ⟨[{ id := .ofNat 1 }, { id := .ofNat 2 }]⟩

/-- An author who is there is not put in again but gets a name in its place; the other one is deleted
once, and a third one comes last. -/
theorem run_twoAuthors :
    twoAuthors.KeysDistinct ∧
      (twoAuthors.run [.insert { id := .ofNat 1 }, .update { id := .ofNat 1, name := some "Poet" },
        .delete (.ofNat 2), .insert { id := .ofNat 3 }, .delete (.ofNat 2), .find .matchAll]).2 =
      [.failed (.duplicate "Authors" (.ofNat 1)),
        .record { id := .ofNat 1, name := some "Poet" }, .deleted, .record { id := .ofNat 3 },
        .failed (.notFound "Authors" (.ofNat 2)),
        .records [{ id := .ofNat 1, name := some "Poet" }, { id := .ofNat 3 }]] := by
  have distinct : twoAuthors.KeysDistinct := by
    unfold KeysDistinct
    decide
  obtain ⟨-, hanswers, -⟩ := run_eq_orderedMap twoAuthors distinct _
  exact ⟨distinct, hanswers.trans rfl⟩

end Store

end RecordGate
