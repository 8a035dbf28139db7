import Mathlib.Data.List.TakeWhile
import RecordGate.Pattern.Replace

/-!
# Runs of characters

A greedy run of characters of a set can end after each of its characters, and it prefers to end where
the characters of the set do. When what follows the run in a pattern cannot begin with a character of
the set, the run ends there and nowhere else.
-/

namespace RecordGate

namespace CharSet

variable {set : CharSet} {s r : List Char}

/-- The text after one character of a set. -/
def after? (set : CharSet) : List Char → Option (List Char)
  | [] => none
  | c :: s => if set.has c then some s else none

/-- The text after a run of characters of a set, which has one of them at least. -/
def afterRun? (set : CharSet) (s : List Char) : Option (List Char) :=
  (set.after? s).map fun r => r.dropWhile set.has

/-- A run of characters of a set. -/
structure Runs (set : CharSet) (a : List Char) : Prop where
  nonempty : a ≠ []
  has : ∀ c ∈ a, set.has c = true

theorem after?_eq_some_iff : set.after? s = some r ↔ ∃ c, set.has c = true ∧ s = c :: r := by
  cases s with
  | nil => simp [after?]
  | cons c s =>
      simp only [after?, Option.ite_none_right_eq_some, Option.some.injEq, List.cons.injEq]
      constructor
      · rintro ⟨hc, rfl⟩
        exact ⟨c, hc, rfl, rfl⟩
      · rintro ⟨_, hc, rfl, rfl⟩
        exact ⟨hc, rfl⟩

theorem has_single {c d : Char} : (single c).has d = true ↔ d = c := by
  rw [← Char.toNat_inj]
  simp [has, single]
  omega

theorem after?_single {c : Char} : (single c).after? s = some r ↔ s = c :: r := by
  simp only [after?_eq_some_iff, has_single, exists_eq_left]

theorem Runs.afterRun?_append {a : List Char} (h : set.Runs a) (s : List Char) :
    set.afterRun? (a ++ s) = some (s.dropWhile set.has) := by
  obtain ⟨c, b, rfl⟩ := List.exists_cons_of_ne_nil h.nonempty
  have hall := List.forall_mem_cons.mp h.has
  have hafter : set.after? (c :: (b ++ s)) = some (b ++ s) := if_pos hall.1
  rw [List.cons_append, afterRun?, hafter, Option.map_some, List.dropWhile_append_of_pos hall.2]

theorem exists_runs_of_afterRun? (h : set.afterRun? s = some r) :
    ∃ a, set.Runs a ∧ s = a ++ r := by
  obtain ⟨t, ht, rfl⟩ := Option.map_eq_some_iff.mp h
  obtain ⟨c, hc, rfl⟩ := after?_eq_some_iff.mp ht
  refine ⟨c :: t.takeWhile set.has, ⟨List.cons_ne_nil _ _, ?_⟩, ?_⟩
  · exact List.forall_mem_cons.mpr ⟨hc, fun d hd => List.mem_takeWhile_imp hd⟩
  · rw [List.cons_append, List.takeWhile_append_dropWhile]

end CharSet

namespace Cursor

/-- The places of a run of characters of a set, the farthest first. -/
def run (set : CharSet) (groups : List (Nat × List Char)) : Bool → List Char → List Cursor
  | atStart, [] => [⟨[], atStart, groups⟩]
  | atStart, c :: s =>
      (if set.has c then run set groups false s else []) ++ [⟨c :: s, atStart, groups⟩]

variable {set : CharSet} {groups : List (Nat × List Char)} {atStart : Bool} {s : List Char}

theorem length_le_of_mem_run {p : Cursor} (h : p ∈ run set groups atStart s) :
    p.rest.length ≤ s.length := by
  induction s generalizing atStart with
  | nil =>
      obtain rfl := List.mem_singleton.mp h
      exact Nat.le_refl _
  | cons c s ih =>
      rw [run, List.mem_append, List.mem_singleton] at h
      rcases h with h | rfl
      · split_ifs at h
        · exact Nat.le_succ_of_le (ih h)
        · cases h
      · exact Nat.le_refl _

theorem pairwise_run (set : CharSet) (groups : List (Nat × List Char)) (atStart : Bool)
    (s : List Char) :
    (run set groups atStart s).Pairwise fun p q => p.rest.length ≠ q.rest.length := by
  induction s generalizing atStart with
  | nil => exact List.pairwise_singleton _ _
  | cons c s ih =>
      rw [run, List.pairwise_append]
      refine ⟨?_, List.pairwise_singleton _ _, ?_⟩
      · split_ifs
        · exact ih false
        · exact .nil
      · intro p hp q hq
        rw [List.mem_singleton] at hq
        split_ifs at hp
        · have hle := length_le_of_mem_run hp
          rw [hq, List.length_cons]
          omega
        · cases hp

theorem distinct_of_pairwise {l : List Cursor}
    (h : l.Pairwise fun p q => p.rest.length ≠ q.rest.length) : distinct l = l := by
  induction l with
  | nil => rfl
  | cons p l ih =>
      rw [List.pairwise_cons] at h
      rw [distinct, ih h.2]
      congr 1
      exact List.filter_eq_self.mpr fun q hq => bne_iff_ne.mpr (h.1 q hq).symm

theorem head?_distinct (l : List Cursor) : (distinct l).head? = l.head? := by
  cases l <;> rfl

/-- The preferred end of a run is where the characters of the set end. -/
theorem head?_run (set : CharSet) (groups : List (Nat × List Char)) (s : List Char) :
    (run set groups false s).head? = some ⟨s.dropWhile set.has, false, groups⟩ := by
  induction s with
  | nil => rfl
  | cons c s ih =>
      by_cases h : set.has c = true
      · rw [run, if_pos h, List.head?_append, ih, List.dropWhile_cons_of_pos h, Option.some_or]
      · rw [run, if_neg h, List.dropWhile_cons_of_neg h, List.nil_append, List.head?_cons]

/-- What cannot begin with a character of the set is met behind the run only. -/
theorem flatMap_run {f : Cursor → List Cursor} (s : List Char)
    (h : ∀ c s, set.has c = true → f ⟨c :: s, false, groups⟩ = []) :
    (run set groups false s).flatMap f = f ⟨s.dropWhile set.has, false, groups⟩ := by
  induction s with
  | nil => exact List.flatMap_singleton f _
  | cons c s ih =>
      by_cases hc : set.has c = true
      · rw [run, if_pos hc, List.flatMap_append, ih, List.dropWhile_cons_of_pos hc,
          List.flatMap_singleton, h c s hc, List.append_nil]
      · rw [run, if_neg hc, List.dropWhile_cons_of_neg hc, List.nil_append, List.flatMap_singleton]

end Cursor

namespace Pattern

variable {set : CharSet} {groups : List (Nat × List Char)} {atStart : Bool} {s : List Char}
  {next : Pattern}

theorem ends_one_cons (c : Char) :
    (one set).ends ⟨c :: s, atStart, groups⟩ =
      if set.has c then [⟨s, false, groups⟩] else [] := rfl

/-- Exploring a run from a place finds the places of the run, if none of them has been visited. -/
theorem ends_explore_one {t : Trail} {rounds : Nat} (hrounds : s.length ≤ rounds)
    (hseen : ∀ n ∈ t.seen, s.length < n) :
    (explore (one set).ends true rounds t ⟨s, atStart, groups⟩).ends =
      (Cursor.run set groups atStart s).reverse ++ t.ends := by
  induction s generalizing t rounds atStart with
  | nil =>
      have hnew : ¬ t.seen.contains 0 = true := fun hmem =>
        Nat.lt_irrefl 0 (hseen 0 (List.contains_iff_mem.mp hmem))
      cases rounds with
      | zero => rfl
      | succ rounds =>
          rw [explore]
          simp only [List.length_nil, if_neg hnew]
          rfl
  | cons c s ih =>
      cases rounds with
      | zero => cases hrounds
      | succ rounds =>
          have hnew : ¬ t.seen.contains (c :: s).length = true := fun hmem =>
            Nat.lt_irrefl _ (hseen _ (List.contains_iff_mem.mp hmem))
          have hlater : ∀ n ∈ (c :: s).length :: t.seen, s.length < n :=
            List.forall_mem_cons.mpr
              ⟨Nat.lt_succ_self _, fun n hn => Nat.lt_of_succ_lt (hseen n hn)⟩
          have hshorter : Nat.blt s.length (c :: s).length = true :=
            Nat.blt_eq.mpr (Nat.lt_succ_self _)
          have hrest : (explore (one set).ends true rounds ⟨(c :: s).length :: t.seen, t.ends⟩
              ⟨s, false, groups⟩).ends = (Cursor.run set groups false s).reverse ++ t.ends :=
            ih (Nat.le_of_succ_le_succ hrounds) hlater
          simp only [explore, if_neg hnew, if_true, ends_one_cons, Trail.stop]
          rw [Cursor.run, List.reverse_append, List.reverse_singleton, List.singleton_append]
          by_cases hc : set.has c = true
          · simp only [if_pos hc, List.foldl_cons, List.foldl_nil, hshorter, if_true, hrest,
              List.cons_append]
          · simp only [if_neg hc, List.foldl_nil, List.reverse_nil, List.cons_append,
              List.nil_append]

theorem ends_star_one (p : Cursor) :
    (star true (one set)).ends p = Cursor.run set p.groups p.atStart p.rest := by
  have hexplore : (explore (one set).ends true p.rest.length {} p).ends =
      (Cursor.run set p.groups p.atStart p.rest).reverse ++ [] :=
    ends_explore_one (Nat.le_refl _) (fun _ hn => absurd hn List.not_mem_nil)
  rw [ends, iterate, hexplore, List.append_nil, List.reverse_reverse]

theorem ends_plus_one_cons (c : Char) :
    (plus true (one set)).ends ⟨c :: s, atStart, groups⟩ =
      if set.has c then Cursor.run set groups false s else [] := by
  rw [plus, ends, ends_one_cons]
  split_ifs
  · rw [List.flatMap_singleton, ends_star_one]
    exact Cursor.distinct_of_pairwise (Cursor.pairwise_run set groups false s)
  · rfl

theorem ends_one_seq_of_not_has {c : Char} (h : ¬ set.has c = true) :
    (seq (one set) next).ends ⟨c :: s, atStart, groups⟩ = [] := by
  rw [ends, ends_one_cons, if_neg h]
  rfl

/-- The preferred place where a match that begins at a place can end. -/
def first? (a : Pattern) (p : Cursor) : Option Cursor := (a.ends p).head?

theorem first?_one_seq :
    (seq (one set) next).first? ⟨s, atStart, groups⟩ =
      (set.after? s).bind fun r => next.first? ⟨r, false, groups⟩ := by
  cases s with
  | nil => rfl
  | cons c s =>
      rw [first?, ends, Cursor.head?_distinct, ends_one_cons, CharSet.after?]
      split_ifs
      · rw [List.flatMap_singleton, Option.bind_some, first?]
      · rfl

theorem first?_plus :
    (plus true (one set)).first? ⟨s, atStart, groups⟩ =
      (set.afterRun? s).map fun r => ⟨r, false, groups⟩ := by
  cases s with
  | nil => rfl
  | cons c s =>
      rw [first?, ends_plus_one_cons, CharSet.afterRun?, CharSet.after?]
      split_ifs
      · exact Cursor.head?_run set groups s
      · rfl

/-- What follows a run and cannot begin with a character of it is matched where the run ends. -/
theorem first?_plus_seq
    (h : ∀ c s, set.has c = true → next.ends ⟨c :: s, false, groups⟩ = []) :
    (seq (plus true (one set)) next).first? ⟨s, atStart, groups⟩ =
      (set.afterRun? s).bind fun r => next.first? ⟨r, false, groups⟩ := by
  cases s with
  | nil => rfl
  | cons c s =>
      rw [first?, ends, Cursor.head?_distinct, ends_plus_one_cons, CharSet.afterRun?, CharSet.after?]
      split_ifs
      · rw [Cursor.flatMap_run s h, Option.map_some, Option.bind_some, first?]
      · rfl

end Pattern

end RecordGate
