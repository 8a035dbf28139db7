import Mathlib.Algebra.Group.Nat.Defs
import RecordGate.Number.Ranged
import RecordGate.Text.Blank
import RecordGate.Uuid

/-!
# Digits

Numbers that are written as decimal or hexadecimal digits are read back as they were.
-/

namespace RecordGate

theorem isDigit_eq (c : Char) : isDigit c = c.isDigit := by
  have hle (a b : Char) : a ≤ b ↔ a.toNat ≤ b.toNat := Char.le_def.trans UInt32.le_iff_toNat_le
  unfold isDigit digit? Char.isDigit
  simp only [ge_iff_le, ← Char.le_def, hle]
  split <;> simp_all

theorem digit?_of_isDigit {c : Char} (h : isDigit c = true) :
    digit? c = some (c.toNat - '0'.toNat) := by
  unfold isDigit at h
  unfold digit? at h ⊢
  split at h
  · rw [if_pos ‹_›]
  · simp at h

theorem isBlank_of_isDigit {c : Char} (h : isDigit c = true) : Text.isBlank c = false := by
  unfold isDigit digit? at h
  split at h
  · rename_i hbounds
    simp only [Bool.and_eq_true, decide_eq_true_eq, Char.reduceToNat] at hbounds
    simp [Text.isBlank]
    omega
  · cases h

theorem digitsFrom_eq {s : List Char} (h : ∀ c ∈ s, isDigit c = true) (start : Nat) :
    digitsFrom start s = Nat.ofDigitChars 10 s start := by
  induction s generalizing start with
  | nil => simp [digitsFrom]
  | cons c s ih =>
      have hc := digit?_of_isDigit (h c List.mem_cons_self)
      have hs := ih fun d hd => h d (List.mem_cons_of_mem c hd)
      simp only [digitsFrom, hc, Option.getD_some, hs, Nat.ofDigitChars_cons]

theorem digitsFrom_lt {s : List Char} (h : ∀ c ∈ s, isDigit c = true) (start : Nat) :
    digitsFrom start s < (start + 1) * 10 ^ s.length := by
  induction s generalizing start with
  | nil => simp [digitsFrom]
  | cons c s ih =>
      have hdigit : (digit? c).getD 0 < 10 := by
        have hc : c.isDigit = true := isDigit_eq c ▸ h c List.mem_cons_self
        have hle : c.toNat ≤ '9'.toNat := (Char.isDigit_iff_toNat.mp hc).2
        rw [digit?_of_isDigit (h c List.mem_cons_self), Option.getD_some]
        simp only [Char.reduceToNat] at hle ⊢
        omega
      calc digitsFrom start (c :: s)
          = digitsFrom (10 * start + (digit? c).getD 0) s := rfl
        _ < (10 * start + (digit? c).getD 0 + 1) * 10 ^ s.length :=
          ih (fun d hd => h d (List.mem_cons_of_mem c hd)) _
        _ ≤ ((start + 1) * 10) * 10 ^ s.length := Nat.mul_le_mul_right _ (by omega)
        _ = (start + 1) * 10 ^ (c :: s).length := by
          rw [List.length_cons, Nat.pow_succ', Nat.mul_assoc]

theorem isDigit_of_mem_toDigits {n : Nat} {c : Char} (h : c ∈ Nat.toDigits 10 n) :
    isDigit c = true := by
  rw [isDigit_eq]
  exact Nat.isDigit_of_mem_toDigits (by decide) (by decide) h

theorem digitsFrom_toDigits (n : Nat) : digitsFrom 0 (Nat.toDigits 10 n) = n := by
  rw [digitsFrom_eq fun c hc => isDigit_of_mem_toDigits hc, Nat.ofDigitChars_ten_toDigits]

section Padded

variable {width n : Nat}

theorem toList_padded : (padded width n).toList =
    List.replicate (width - (Nat.toDigits 10 n).length) '0' ++ Nat.toDigits 10 n :=
  String.toList_ofList

theorem isDigit_of_mem_padded {c : Char} (h : c ∈ (padded width n).toList) : isDigit c = true := by
  rw [toList_padded, List.mem_append] at h
  rcases h with h | h
  · rw [(List.mem_replicate.mp h).2]
    decide
  · exact isDigit_of_mem_toDigits h

theorem digitsFrom_padded (width n : Nat) : digitsFrom 0 (padded width n).toList = n := by
  rw [digitsFrom_eq fun c hc => isDigit_of_mem_padded hc, toList_padded, Nat.ofDigitChars_append,
    Nat.ofDigitChars_replicate_zero, Nat.mul_zero, Nat.ofDigitChars_ten_toDigits]

theorem length_padded (hwidth : 0 < width) (h : n < 10 ^ width) :
    (padded width n).toList.length = width := by
  have hle := (Nat.length_toDigits_le_iff (by decide : 1 < 10) hwidth).mpr h
  rw [toList_padded, List.length_append, List.length_replicate]
  omega

theorem length_padded_pos (width n : Nat) : 0 < (padded width n).toList.length := by
  have hpos := Nat.length_toDigits_pos (b := 10) (n := n)
  rw [toList_padded, List.length_append]
  omega

end Padded

/-- A text does not go on with a digit. -/
def EndsNumber (s : List Char) : Prop := ∀ c r, s = c :: r → isDigit c = false

theorem endsNumber_nil : EndsNumber [] := by
  intro c r h
  cases h

theorem endsNumber_cons {c : Char} (h : isDigit c = false) (s : List Char) : EndsNumber (c :: s) := by
  intro d r hd
  cases hd
  exact h

/-- Digits end where a text does not go on with one. -/
theorem takeWhile_isDigit_append {s r : List Char} (hs : ∀ c ∈ s, isDigit c = true)
    (hr : EndsNumber r) :
    (s ++ r).takeWhile isDigit = s ∧ (s ++ r).dropWhile isDigit = r := by
  have hnone : r.takeWhile isDigit = [] ∧ r.dropWhile isDigit = r := by
    cases r with
    | nil => exact ⟨rfl, rfl⟩
    | cons c r => simp [hr c r rfl]
  rw [List.takeWhile_append_of_pos hs, List.dropWhile_append_of_pos hs, hnone.1, hnone.2]
  exact ⟨List.append_nil s, rfl⟩

/-- Only zero is written with a zero in front. -/
theorem toDigits_of_head?_eq_zero {n : Nat} (h : (Nat.toDigits 10 n).head? = some '0') : n = 0 := by
  induction n using Nat.strongRecOn with
  | ind n ih =>
      rw [Nat.toDigits_eq_if (by decide)] at h
      split at h
      · simpa using h
      · have hn : 10 ≤ n := by omega
        have hhead : (Nat.toDigits 10 (n / 10)).head? = some '0' := by
          rw [List.head?_append, Option.or_eq_some_iff, List.head?_eq_none_iff] at h
          exact h.resolve_right fun k => Nat.toDigits_ne_nil k.1
        have hzero := ih (n / 10) (by omega) hhead
        omega

theorem isDigit_of_natural? {s : List Char} {n : Nat} (h : natural? s = some n) {c : Char}
    (hc : c ∈ s) : isDigit c = true := by
  unfold natural? at h
  split at h
  · rename_i hall
    rw [Bool.and_eq_true, List.all_eq_true] at hall
    exact hall.2 c hc
  · cases h

/-- A number is written with digits and perhaps a sign. -/
theorem isDigit_or_sign_of_signed? {s : List Char} {n : Int} (h : signed? s = some n) {c : Char}
    (hc : c ∈ s) : isDigit c = true ∨ c = '+' ∨ c = '-' := by
  unfold signed? at h
  split at h
  · obtain ⟨m, hm, -⟩ := Option.map_eq_some_iff.mp h
    rcases List.mem_cons.mp hc with rfl | hc
    · exact .inr (.inl rfl)
    · exact .inl (isDigit_of_natural? hm hc)
  · obtain ⟨m, hm, -⟩ := Option.map_eq_some_iff.mp h
    rcases List.mem_cons.mp hc with rfl | hc
    · exact .inr (.inr rfl)
    · exact .inl (isDigit_of_natural? hm hc)
  · obtain ⟨m, hm, -⟩ := Option.map_eq_some_iff.mp h
    exact .inl (isDigit_of_natural? hm hc)

theorem isBlank_of_signed? {s : List Char} {n : Int} (h : signed? s = some n) {c : Char}
    (hc : c ∈ s) : Text.isBlank c = false := by
  rcases isDigit_or_sign_of_signed? h hc with hdigit | rfl | rfl
  · exact isBlank_of_isDigit hdigit
  · decide
  · decide

/-- A whole number is read from its written form. -/
theorem signed?_toString (n : Int) : signed? (toString n).toList = some n := by
  have hnatural (m : Nat) : natural? (Nat.toDigits 10 m) = some m := by
    have hdigits : (Nat.toDigits 10 m).all isDigit = true :=
      List.all_eq_true.mpr fun c hc => isDigit_of_mem_toDigits hc
    have hempty : (Nat.toDigits 10 m).isEmpty = false := by
      rw [List.isEmpty_eq_false_iff]
      exact Nat.toDigits_ne_nil
    rw [natural?, hempty, hdigits, digitsFrom_toDigits]
    rfl
  cases n with
  | ofNat m =>
      have htext : (toString (Int.ofNat m)).toList = Nat.toDigits 10 m := Nat.toList_repr
      have hm := hnatural m
      rw [htext]
      cases hdigits : Nat.toDigits 10 m with
      | nil => exact absurd hdigits Nat.toDigits_ne_nil
      | cons c s =>
          have hc : isDigit c = true := isDigit_of_mem_toDigits (n := m) (by simp [hdigits])
          rw [hdigits] at hm
          unfold signed?
          split
          · rename_i hplus
            cases hplus
            cases hc
          · rename_i hminus
            cases hminus
            cases hc
          · rw [hm]
            rfl
  | negSucc m =>
      have happend : toString (Int.negSucc m) = "-" ++ Nat.repr (m + 1) := rfl
      have htext : (toString (Int.negSucc m)).toList = '-' :: Nat.toDigits 10 (m + 1) := by
        rw [happend, String.toList_append, Nat.toList_repr]
        rfl
      rw [htext, signed?, hnatural]
      rfl

theorem length_hexDigits (width n : Nat) : (hexDigits width n).length = width := by
  induction width generalizing n with
  | zero => rfl
  | succ width ih => simp [hexDigits, ih]

theorem hexFrom?_append (start : Nat) (s t : List Char) :
    hexFrom? start (s ++ t) = (hexFrom? start s).bind fun n => hexFrom? n t := by
  induction s generalizing start with
  | nil => rfl
  | cons c s ih =>
      cases h : hexDigit? c with
      | none => simp [hexFrom?, h]
      | some d => simp [hexFrom?, h, ih]

theorem hexDigit?_digitChar {n : Nat} (h : n < 16) : hexDigit? (Nat.digitChar n) = some n := by
  have all : ∀ i : Fin 16, hexDigit? (Nat.digitChar i) = some i.val := by decide
  exact all ⟨n, h⟩

theorem hexFrom?_hexDigits {width n : Nat} (h : n < 16 ^ width) :
    hexFrom? 0 (hexDigits width n) = some n := by
  induction width generalizing n with
  | zero =>
      have hn : n = 0 := by simpa using h
      rw [hn]
      rfl
  | succ width ih =>
      have hhigh : n / 16 < 16 ^ width := by
        rw [Nat.pow_succ] at h
        omega
      rw [hexDigits, hexFrom?_append, ih hhigh]
      simp only [Option.bind_some, hexFrom?, hexDigit?_digitChar (Nat.mod_lt n (by decide : 0 < 16))]
      congr 1
      omega

theorem exists_of_mem_hexDigits {width n : Nat} {c : Char} (h : c ∈ hexDigits width n) :
    ∃ d < 16, c = Nat.digitChar d := by
  induction width generalizing n with
  | zero => simp [hexDigits] at h
  | succ width ih =>
      simp only [hexDigits, List.mem_append, List.mem_singleton] at h
      rcases h with hm | he
      · exact ih hm
      · exact ⟨n % 16, Nat.mod_lt n (by decide), he⟩

end RecordGate
