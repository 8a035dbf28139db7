import Mathlib.Data.Nat.BitIndices
import RecordGate.Proofs.Acl.Payload

/-!
# Bits on the wire

The numbers that stand for a set on the wire are put together bit by bit, but only those that fit in
one byte: a greater number is left out with all of its bits, also those of actions. So bytes stand for
the actions among the bits of all of them, and a greater number stands for the actions among its bits
only when these are written one by one.
-/

namespace RecordGate.EntitlementSet

/-- The bits of numbers put together. -/
def combined (numbers : List Nat) : Nat := numbers.foldr (· ||| ·) 0

/-- The numbers that fit in one byte. -/
def bytesAmong (numbers : List Nat) : List Nat := numbers.filter (· ≤ 255)

/-- The powers of two that a number is made of. -/
def powersOf (n : Nat) : List Nat := n.bitIndices.map (2 ^ ·)

theorem combined_and_ne_zero_iff {numbers : List Nat} {b : Nat} :
    combined numbers &&& b ≠ 0 ↔ ∃ n ∈ numbers, n &&& b ≠ 0 :=
  foldr_or_and_ne_zero_iff

theorem bytesAmong_of_le {numbers : List Nat} (h : ∀ n ∈ numbers, n ≤ 255) :
    bytesAmong numbers = numbers :=
  List.filter_eq_self.mpr fun n hn => decide_eq_true (h n hn)

/-- The place of the bit of an action. -/
def place : Entitlement → Nat
  | .create => 0
  | .read => 1
  | .update => 2
  | .delete => 3

theorem bit_eq (a : Entitlement) : a.bit = 2 ^ place a := by
  cases a <;> rfl

theorem allows_ofBits (n : Nat) (a : Entitlement) : (ofBits n).allows a = n.testBit (place a) := by
  cases a <;> rfl

theorem ofWireValue_of_le {n : Nat} (h : n ≤ 255) : ofWireValue (Int.ofNat n) = ofBits n :=
  if_pos (Nat.blt_eq.mpr (Nat.lt_succ_of_le h))

theorem ofWireValue_of_lt {n : Nat} (h : 255 < n) : ofWireValue (Int.ofNat n) = empty :=
  if_neg fun hlt => Nat.not_lt.mpr h (Nat.blt_eq.mp hlt)

/-- A number gives an action when it fits in one byte and has the bit of the action. -/
theorem allows_ofWireValue_iff {n : Nat} {a : Entitlement} :
    (ofWireValue (Int.ofNat n)).allows a = true ↔ n ≤ 255 ∧ n &&& a.bit ≠ 0 := by
  by_cases h : n ≤ 255
  · rw [allows_ofWireValue h, and_bit_ne_zero_iff]
    exact (and_iff_right h).symm
  · have hempty : empty.allows a = false := by cases a <;> rfl
    rw [ofWireValue_of_lt (Nat.lt_of_not_le h), hempty]
    simp [h]

theorem allows_ofWire_iff {numbers : List Nat} {a : Entitlement} :
    (ofWire (numbers.map Int.ofNat)).allows a = true ↔
      combined (bytesAmong numbers) &&& a.bit ≠ 0 := by
  rw [ofWire, List.foldl_map, allows_foldl_union_empty, combined_and_ne_zero_iff]
  simp only [allows_ofWireValue_iff, bytesAmong, List.mem_filter, decide_eq_true_eq, and_assoc]

theorem ofWire_congr {numbers others : List Nat}
    (h : combined (bytesAmong others) = combined (bytesAmong numbers)) :
    ofWire (others.map Int.ofNat) = ofWire (numbers.map Int.ofNat) := by
  refine ext_allows fun a => Bool.eq_iff_iff.mpr ?_
  rw [allows_ofWire_iff, allows_ofWire_iff, h]

theorem ofWire_singleton (n : Nat) : ofWire [Int.ofNat n] = ofWireValue (Int.ofNat n) := by
  simp [ofWire, union, empty]

/-- The powers of two of a number, one by one, stand for the actions among its bits. -/
theorem ofWire_powersOf (n : Nat) : ofWire ((powersOf n).map Int.ofNat) = ofBits n := by
  refine ext_allows fun a => Bool.eq_iff_iff.mpr ?_
  rw [allows_ofWire_iff, combined_and_ne_zero_iff, allows_ofBits, bit_eq]
  have hplace : 2 ^ place a ≤ 255 := by cases a <;> decide
  have hpower (i : Nat) : 2 ^ i &&& 2 ^ place a ≠ 0 ↔ i = place a := by
    rw [Nat.and_two_pow, Nat.testBit_two_pow]
    by_cases h : i = place a <;> simp [h]
  constructor
  · rintro ⟨m, hm, hbit⟩
    obtain ⟨i, hi, rfl⟩ := List.mem_map.mp (List.mem_filter.mp hm).1
    rw [← (hpower i).mp hbit]
    exact Nat.mem_bitIndices.mp hi
  · intro h
    have hmem : 2 ^ place a ∈ powersOf n := List.mem_map_of_mem (Nat.mem_bitIndices.mpr h)
    exact ⟨2 ^ place a, List.mem_filter.mpr ⟨hmem, decide_eq_true hplace⟩, (hpower _).mpr rfl⟩

theorem le_of_mem_powersOf {n m : Nat} (h : m ∈ powersOf n) : m ≤ n := by
  obtain ⟨i, hi, rfl⟩ := List.mem_map.mp h
  exact Nat.ge_two_pow_of_testBit (Nat.mem_bitIndices.mp hi)

/-- One byte is read from JSON like the list of its powers of two. -/
theorem ofJson?_powersOf {n : Nat} (h : n ≤ 255) :
    ofJson? (Json.nat n) = ofJson? (.array ((powersOf n).map Json.nat)) := by
  have hbytes : ∀ m ∈ powersOf n, m ≤ 255 := fun m hm => (le_of_mem_powersOf hm).trans h
  have hone : ofJson? (Json.nat n) = (wireNumber? (Json.nat n)).map ofWireValue := rfl
  rw [hone, wireNumber?_nat h, ofJson?, wireNumbers?_map_nat hbytes, Option.map_some, Option.map_some,
    ofWire_powersOf, ofWireValue_of_le h]

/-- Numbers on the wire stand for the actions whose bits are among those of the bytes, however the bits
are spread over the bytes, and for no action that is not among the bits of all numbers. When all of
them are bytes, these are the actions among all bits. The powers of two of a number stand for the
actions among its bits; the number alone stands for the same if it is a byte, and else for nothing. -/
theorem ofWire_by_bytes (numbers : List Nat) :
    (∀ a, (ofWire (numbers.map Int.ofNat)).allows a = true ↔
        combined (bytesAmong numbers) &&& a.bit ≠ 0) ∧
      (∀ a, (ofWire (numbers.map Int.ofNat)).allows a = true → combined numbers &&& a.bit ≠ 0) ∧
      ((∀ n ∈ numbers, n ≤ 255) → ∀ a, (ofWire (numbers.map Int.ofNat)).allows a = true ↔
        combined numbers &&& a.bit ≠ 0) ∧
      (∀ others, combined (bytesAmong others) = combined (bytesAmong numbers) →
        ofWire (others.map Int.ofNat) = ofWire (numbers.map Int.ofNat)) ∧
      ∀ n, ofWire ((powersOf n).map Int.ofNat) = ofBits n ∧
        (n ≤ 255 → ofWire [Int.ofNat n] = ofWire ((powersOf n).map Int.ofNat) ∧
          ofJson? (Json.nat n) = ofJson? (.array ((powersOf n).map Json.nat))) ∧
        (255 < n → ofWire [Int.ofNat n] = empty) := by
  refine ⟨fun a => allows_ofWire_iff, ?_, ?_, fun others => ofWire_congr, fun n => ⟨?_, ?_, ?_⟩⟩
  · intro a h
    rw [allows_ofWire_iff, combined_and_ne_zero_iff] at h
    obtain ⟨n, hn, hbit⟩ := h
    exact combined_and_ne_zero_iff.mpr ⟨n, List.mem_of_mem_filter hn, hbit⟩
  · intro h a
    rw [allows_ofWire_iff, bytesAmong_of_le h]
  · exact ofWire_powersOf n
  · intro h
    refine ⟨?_, ofJson?_powersOf h⟩
    rw [ofWire_singleton, ofWireValue_of_le h, ofWire_powersOf]
  · intro h
    rw [ofWire_singleton, ofWireValue_of_lt h]

/-- Two bytes, of which one has a bit of no action, and a number of two bytes with the bit of an action. -/
theorem ofWire_by_bytes_spread :
    (∀ n ∈ [130, 5], n ≤ 255) ∧
      (∀ a, (ofWire [130, 5]).allows a = true ↔ combined [130, 5] &&& a.bit ≠ 0) ∧
      ofWire [135, 512] = ofWire [130, 5, 264] ∧ ofWire [7] = ofWire [1, 2, 4] ∧
      ofWire [264] = empty := by
  have hbytes : ∀ n ∈ [130, 5], n ≤ 255 := by simp
  obtain ⟨-, -, hall, -, -⟩ := ofWire_by_bytes [130, 5]
  obtain ⟨-, -, -, hspread, hone⟩ := ofWire_by_bytes [130, 5, 264]
  exact ⟨hbytes, hall hbytes, hspread [135, 512] rfl, ((hone 7).2.1 (by decide)).1,
    (hone 264).2.2 (by decide)⟩

/-- A number beyond one byte loses the bit of an action, though the powers of two it is made of keep
it. -/
theorem exists_ofWire_loses_bit :
    combined [257] &&& Entitlement.create.bit ≠ 0 ∧
      (ofWire ([257].map Int.ofNat)).allows .create = false ∧
      combined [1, 256] = combined [257] ∧
      (ofWire ([1, 256].map Int.ofNat)).allows .create = true := by
  decide

end RecordGate.EntitlementSet
