import RecordGate.Crypto.Base64Url

/-!
# Bytes through base64

Bytes that are written in base64 are read back. No character of a text that is written so or can be
read is a point.
-/

namespace RecordGate.Base64Url

theorem value?_digit {n : Nat} (h : n < 64) : value? (digit n) = some n := by
  have all : ∀ i : Fin 64, value? (digit i) = some i.val := by decide
  exact all ⟨n, h⟩

theorem digit_ne_point {n : Nat} (h : n < 64) : digit n ≠ '.' := by
  have all : ∀ i : Fin 64, digit i ≠ '.' := by decide
  exact all ⟨n, h⟩

/-- The numbers below 64 that bytes are written as. -/
def sextets : List UInt8 → List Nat
  | [] => []
  | [a] => [a.toNat / 4, a.toNat % 4 * 16]
  | [a, b] => [a.toNat / 4, a.toNat % 4 * 16 + b.toNat / 16, b.toNat % 16 * 4]
  | a :: b :: c :: rest =>
      a.toNat / 4 :: (a.toNat % 4 * 16 + b.toNat / 16) :: (b.toNat % 16 * 4 + c.toNat / 64) ::
        c.toNat % 64 :: sextets rest

theorem encode_eq (bytes : List UInt8) : encode bytes = (sextets bytes).map digit := by
  induction bytes using encode.induct with
  | case1 => rfl
  | case2 a => rfl
  | case3 a b => rfl
  | case4 a b c rest ih => rw [encode, sextets, ih]; rfl

theorem lt_of_mem_sextets {bytes : List UInt8} {n : Nat} (h : n ∈ sextets bytes) : n < 64 := by
  have hbyte (a : UInt8) : a.toNat < 256 := a.toNat_lt
  induction bytes using sextets.induct with
  | case1 => simp [sextets] at h
  | case2 a =>
      have := hbyte a
      simp only [sextets, List.mem_cons, List.not_mem_nil, or_false] at h
      omega
  | case3 a b =>
      have := hbyte a
      have := hbyte b
      simp only [sextets, List.mem_cons, List.not_mem_nil, or_false] at h
      omega
  | case4 a b c rest ih =>
      have := hbyte a
      have := hbyte b
      have := hbyte c
      simp only [sextets, List.mem_cons] at h
      rcases h with h | h | h | h | h
      · omega
      · omega
      · omega
      · omega
      · exact ih h

theorem ofNat_of_toNat {n : Nat} {a : UInt8} (h : n = a.toNat) : UInt8.ofNat n = a := by
  rw [h, UInt8.ofNat_toNat]

theorem regroup?_sextets (bytes : List UInt8) : regroup? (sextets bytes) = some bytes := by
  have hbyte (a : UInt8) : a.toNat < 256 := a.toNat_lt
  induction bytes using sextets.induct with
  | case1 => rfl
  | case2 a =>
      have ha := hbyte a
      have hfirst : UInt8.ofNat (a.toNat / 4 * 4 + a.toNat % 4 * 16 / 16) = a :=
        ofNat_of_toNat (by omega)
      simp only [sextets, regroup?, hfirst, Nat.mul_mod_left, if_true]
  | case3 a b =>
      have ha := hbyte a
      have hb := hbyte b
      have hfirst : UInt8.ofNat (a.toNat / 4 * 4 + (a.toNat % 4 * 16 + b.toNat / 16) / 16) = a :=
        ofNat_of_toNat (by omega)
      have hsecond : UInt8.ofNat ((a.toNat % 4 * 16 + b.toNat / 16) % 16 * 16 +
          b.toNat % 16 * 4 / 4) = b := ofNat_of_toNat (by omega)
      simp only [sextets, regroup?, hfirst, hsecond, Nat.mul_mod_left, if_true]
  | case4 a b c rest ih =>
      have ha := hbyte a
      have hb := hbyte b
      have hc := hbyte c
      have hfirst : UInt8.ofNat (a.toNat / 4 * 4 + (a.toNat % 4 * 16 + b.toNat / 16) / 16) = a :=
        ofNat_of_toNat (by omega)
      have hsecond : UInt8.ofNat ((a.toNat % 4 * 16 + b.toNat / 16) % 16 * 16 +
          (b.toNat % 16 * 4 + c.toNat / 64) / 4) = b := ofNat_of_toNat (by omega)
      have hthird : UInt8.ofNat ((b.toNat % 16 * 4 + c.toNat / 64) % 4 * 64 + c.toNat % 64) = c :=
        ofNat_of_toNat (by omega)
      simp only [sextets, regroup?, ih, hfirst, hsecond, hthird, Option.map_some]

theorem mapM_value?_map_digit {ns : List Nat} (h : ∀ n ∈ ns, n < 64) :
    (ns.map digit).mapM value? = some ns := by
  induction ns with
  | nil => rfl
  | cons n ns ih =>
      have hn := value?_digit (h n List.mem_cons_self)
      have hns := ih fun m hm => h m (List.mem_cons_of_mem n hm)
      simp [List.mapM_cons, hn, hns]

/-- Written bytes are read back. -/
theorem decode?_encode (bytes : List UInt8) : decode? (encode bytes) = some bytes := by
  rw [decode?, encode_eq, mapM_value?_map_digit fun n hn => lt_of_mem_sextets hn]
  exact regroup?_sextets bytes

theorem exists_of_mem_encode {bytes : List UInt8} {c : Char} (h : c ∈ encode bytes) :
    ∃ n < 64, c = digit n := by
  rw [encode_eq, List.mem_map] at h
  obtain ⟨n, hn, rfl⟩ := h
  exact ⟨n, lt_of_mem_sextets hn, rfl⟩

theorem point_not_mem_encode (bytes : List UInt8) : '.' ∉ encode bytes := by
  intro h
  obtain ⟨n, hn, hpoint⟩ := exists_of_mem_encode h
  exact digit_ne_point hn hpoint.symm

theorem point_not_mem_of_mapM_value? {s : List Char} {ns : List Nat} (h : s.mapM value? = some ns) :
    '.' ∉ s := by
  induction s generalizing ns with
  | nil => exact List.not_mem_nil
  | cons c s ih =>
      rw [List.mapM_cons] at h
      obtain ⟨n, hn, h⟩ := Option.bind_eq_some_iff.mp h
      obtain ⟨rest, hrest, -⟩ := Option.bind_eq_some_iff.mp h
      rw [List.mem_cons, not_or]
      refine ⟨?_, ih hrest⟩
      rintro rfl
      cases hn

theorem point_not_mem_of_decode? {s : List Char} {bytes : List UInt8} (h : decode? s = some bytes) :
    '.' ∉ s := by
  obtain ⟨ns, hns, -⟩ := Option.bind_eq_some_iff.mp h
  exact point_not_mem_of_mapM_value? hns

end RecordGate.Base64Url
