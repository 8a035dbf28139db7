import Mathlib.Tactic.SplitIfs
import RecordGate.Text.Order
import RecordGate.Text.Utf8

/-!
# Texts through bytes

A text is read back from its bytes, also by a reader that replaces bytes that are not well formed. The
order of texts by code points is that of their bytes.
-/

namespace RecordGate.Text

theorem ofBytes?_bytes (s : String) : ofBytes? (bytes s) = some s := by
  have harray : (⟨(bytes s).toArray⟩ : ByteArray) = s.toByteArray := rfl
  rw [ofBytes?, harray, String.fromUTF8?, dif_pos s.isValidUTF8]
  rfl

theorem orderNat_of_lt {m n : Nat} (h : m < n) : orderNat m n = .lt := by
  simp [orderNat, h]

theorem orderNat_of_gt {m n : Nat} (h : n < m) : orderNat m n = .gt := by
  have hle : ¬ m < n := by omega
  simp [orderNat, h, hle]

theorem orderNat_self (n : Nat) : orderNat n n = .eq := by
  simp [orderNat]

theorem orderBytes_append (p s t : List UInt8) : orderBytes (p ++ s) (p ++ t) = orderBytes s t := by
  induction p with
  | nil => rfl
  | cons a p ih =>
      rw [List.cons_append, List.cons_append, orderBytes, orderBy, orderNat_self]
      exact ih

theorem orderBytes_of_lt {a b : UInt8} (h : a.toNat < b.toNat) (p s t : List UInt8) :
    orderBytes (p ++ a :: s) (p ++ b :: t) = .lt := by
  rw [orderBytes_append, orderBytes, orderBy, orderNat_of_lt h]

theorem orderBytes_of_gt {a b : UInt8} (h : b.toNat < a.toNat) (p s t : List UInt8) :
    orderBytes (p ++ a :: s) (p ++ b :: t) = .gt := by
  rw [orderBytes_append, orderBytes, orderBy, orderNat_of_gt h]

theorem val_lt (c : Char) : c.val.toNat < 0x110000 := by
  rcases c.valid with h | ⟨-, h⟩
  · exact Nat.lt_trans h (by decide)
  · exact h

/-- The bytes of a smaller character have a smaller byte at the first place of difference. -/
theorem exists_lt_utf8EncodeChar {c d : Char} (h : c.val.toNat < d.val.toNat) :
    ∃ p a b s t, a.toNat < b.toNat ∧ String.utf8EncodeChar c = p ++ a :: s ∧
      String.utf8EncodeChar d = p ++ b :: t := by
  have hd := val_lt d
  unfold String.utf8EncodeChar
  generalize c.val.toNat = v at *
  generalize d.val.toNat = w at *
  simp only
  split_ifs
  -- the bytes of a smaller character are not more than those of a greater one
  all_goals first | omega | skip
  -- one byte for the smaller character: the first bytes differ
  · exact ⟨[], _, _, _, _, by simp; omega, rfl, rfl⟩
  · exact ⟨[], _, _, _, _, by simp; omega, rfl, rfl⟩
  · exact ⟨[], _, _, _, _, by simp; omega, rfl, rfl⟩
  · exact ⟨[], _, _, _, _, by simp; omega, rfl, rfl⟩
  -- two bytes for it, and two or more for the other
  · by_cases h1 : v / 64 = w / 64
    · rw [h1]
      exact ⟨[_], _, _, _, _, by simp; omega, rfl, rfl⟩
    · exact ⟨[], _, _, _, _, by simp; omega, rfl, rfl⟩
  · exact ⟨[], _, _, _, _, by simp; omega, rfl, rfl⟩
  · exact ⟨[], _, _, _, _, by simp; omega, rfl, rfl⟩
  -- three bytes for it, and three or four for the other
  · by_cases h2 : v / 4096 = w / 4096
    · by_cases h1 : v / 64 = w / 64
      · rw [h2, h1]
        exact ⟨[_, _], _, _, _, _, by simp; omega, rfl, rfl⟩
      · rw [h2]
        exact ⟨[_], _, _, _, _, by simp; omega, rfl, rfl⟩
    · exact ⟨[], _, _, _, _, by simp; omega, rfl, rfl⟩
  · exact ⟨[], _, _, _, _, by simp; omega, rfl, rfl⟩
  -- four bytes for both
  · by_cases h3 : v / 262144 = w / 262144
    · by_cases h2 : v / 4096 = w / 4096
      · by_cases h1 : v / 64 = w / 64
        · rw [h3, h2, h1]
          exact ⟨[_, _, _], _, _, _, _, by simp; omega, rfl, rfl⟩
        · rw [h3, h2]
          exact ⟨[_, _], _, _, _, _, by simp; omega, rfl, rfl⟩
      · rw [h3]
        exact ⟨[_], _, _, _, _, by simp; omega, rfl, rfl⟩
    · exact ⟨[], _, _, _, _, by simp; omega, rfl, rfl⟩

theorem bytes_eq (s : String) : bytes s = s.toList.flatMap String.utf8EncodeChar := by
  have hencode : s.toByteArray = s.toList.utf8Encode := by simp
  rw [bytes, String.toUTF8_eq_toByteArray, hencode]
  simp [List.utf8Encode]

theorem orderBytes_utf8EncodeChar (c d : Char) (s t : List UInt8) :
    orderBytes (String.utf8EncodeChar c ++ s) (String.utf8EncodeChar d ++ t) =
      (orderNat c.toNat d.toNat).then (orderBytes s t) := by
  rcases Nat.lt_trichotomy c.val.toNat d.val.toNat with h | h | h
  · obtain ⟨p, a, b, u, v, hab, hc, hd⟩ := exists_lt_utf8EncodeChar h
    have horder : orderNat c.toNat d.toNat = .lt := orderNat_of_lt h
    rw [hc, hd, horder, List.append_assoc, List.append_assoc]
    exact orderBytes_of_lt hab p (u ++ s) (v ++ t)
  · have hcd : c = d := Char.ext (UInt32.toNat_inj.mp h)
    rw [hcd, orderNat_self]
    exact orderBytes_append _ s t
  · obtain ⟨p, b, a, v, u, hba, hd, hc⟩ := exists_lt_utf8EncodeChar h
    have horder : orderNat c.toNat d.toNat = .gt := orderNat_of_gt h
    rw [hc, hd, horder, List.append_assoc, List.append_assoc]
    exact orderBytes_of_gt hba p (u ++ s) (v ++ t)

theorem orderBy_eq_orderBytes (s t : List Char) :
    orderBy (fun c d => orderNat c.toNat d.toNat) s t =
      orderBytes (s.flatMap String.utf8EncodeChar) (t.flatMap String.utf8EncodeChar) := by
  have hcons (c : Char) (s : List Char) :
      ∃ b r, (c :: s).flatMap String.utf8EncodeChar = b :: r := by
    rw [List.flatMap_cons]
    cases h : String.utf8EncodeChar c with
    | nil => exact absurd h String.utf8EncodeChar_ne_nil
    | cons b r => exact ⟨b, _, rfl⟩
  induction s generalizing t with
  | nil =>
      cases t with
      | nil => rfl
      | cons d t =>
          obtain ⟨b, r, h⟩ := hcons d t
          rw [h]
          rfl
  | cons c s ih =>
      cases t with
      | nil =>
          obtain ⟨b, r, h⟩ := hcons c s
          rw [h]
          rfl
      | cons d t =>
          rw [List.flatMap_cons, List.flatMap_cons, orderBytes_utf8EncodeChar, ← ih, orderBy]
          cases orderNat c.toNat d.toNat <;> rfl

/-- Texts are ordered as their bytes are. -/
theorem order_eq_orderBytes (s t : String) : order s t = orderBytes (bytes s) (bytes t) := by
  rw [order, orderBy_eq_orderBytes, bytes_eq, bytes_eq]

section Lossy

theorem lead?_two {b : Nat} (hlow : 0xC2 ≤ b) (hhigh : b ≤ 0xDF) :
    lead? b = some (1, 0x80, 0xBF, b - 0xC0) := by
  simp [lead?, hlow, hhigh]

/-- The first byte of three bounds the second one only where it must. -/
theorem exists_lead?_three {b : Nat} (hlow : 0xE0 ≤ b) (hhigh : b ≤ 0xEF) :
    ∃ low high, lead? b = some (2, low, high, b - 0xE0) ∧
      ∀ d, 0x80 ≤ d → d ≤ 0xBF → (b = 0xE0 → 0xA0 ≤ d) → (b = 0xED → d ≤ 0x9F) →
        low ≤ d ∧ d ≤ high := by
  have htwo : ¬ b ≤ 0xDF := by omega
  by_cases hfirst : b = 0xE0
  · subst hfirst
    exact ⟨0xA0, 0xBF, rfl, fun d _ hd h _ => ⟨h rfl, hd⟩⟩
  · by_cases hlast : b = 0xED
    · subst hlast
      exact ⟨0x80, 0x9F, rfl, fun d hd _ _ h => ⟨hd, h rfl⟩⟩
    · have hmore : 0xE1 ≤ b := by omega
      exact ⟨0x80, 0xBF, by simp [lead?, htwo, hfirst, hlast, hmore, hhigh],
        fun d hd hd' _ _ => ⟨hd, hd'⟩⟩

/-- The first byte of four bounds the second one only where it must. -/
theorem exists_lead?_four {b : Nat} (hlow : 0xF0 ≤ b) (hhigh : b ≤ 0xF4) :
    ∃ low high, lead? b = some (3, low, high, b - 0xF0) ∧
      ∀ d, 0x80 ≤ d → d ≤ 0xBF → (b = 0xF0 → 0x90 ≤ d) → (b = 0xF4 → d ≤ 0x8F) →
        low ≤ d ∧ d ≤ high := by
  by_cases hfirst : b = 0xF0
  · subst hfirst
    exact ⟨0x90, 0xBF, rfl, fun d _ hd h _ => ⟨h rfl, hd⟩⟩
  · by_cases hlast : b = 0xF4
    · subst hlast
      exact ⟨0x80, 0x8F, rfl, fun d hd _ _ h => ⟨hd, h rfl⟩⟩
    · have hbetween : 0xF1 ≤ b ∧ b ≤ 0xF3 := by omega
      have hthree : ¬ b ≤ 0xEF ∧ ¬ b ≤ 0xDF ∧ b ≠ 0xE0 ∧ b ≠ 0xED := by omega
      exact ⟨0x80, 0xBF, by simp [lead?, hfirst, hbetween, hthree], fun d hd hd' _ _ => ⟨hd, hd'⟩⟩

variable {low high value used wanted : Nat} {b : UInt8} {rest : List UInt8}

theorem follow_cons (hlow : low ≤ b.toNat) (hhigh : b.toNat ≤ high) :
    follow low high value used (wanted + 1) (b :: rest) =
      follow 0x80 0xBF (value * 64 + b.toNat % 64) (used + 1) wanted rest := by
  simp [follow, hlow, hhigh]

theorem charAt_of_lead? (h : lead? b.toNat = some (wanted, low, high, value)) (hb : 0x80 ≤ b.toNat) :
    charAt b rest = follow low high value 0 wanted rest := by
  have hnot : ¬ b.toNat < 0x80 := by omega
  simp [charAt, h, hnot]

/-- A byte that goes on with a character. -/
def IsTail (b : UInt8) : Prop := 0x80 ≤ b.toNat ∧ b.toNat ≤ 0xBF

theorem charAt_two (rest : List UInt8) {a b : UInt8} (hlow : 0xC2 ≤ a.toNat)
    (hhigh : a.toNat ≤ 0xDF) (hb : IsTail b) :
    charAt a (b :: rest) = (Char.ofNat ((a.toNat - 0xC0) * 64 + b.toNat % 64), 1) := by
  rw [charAt_of_lead? (lead?_two hlow hhigh) (by omega), follow_cons hb.1 hb.2, follow]

theorem charAt_three (rest : List UInt8) {a b c : UInt8} (hlow : 0xE0 ≤ a.toNat)
    (hhigh : a.toNat ≤ 0xEF) (hb : IsTail b) (hc : IsTail c)
    (hfirst : a.toNat = 0xE0 → 0xA0 ≤ b.toNat) (hlast : a.toNat = 0xED → b.toNat ≤ 0x9F) :
    charAt a (b :: c :: rest) =
      (Char.ofNat (((a.toNat - 0xE0) * 64 + b.toNat % 64) * 64 + c.toNat % 64), 2) := by
  obtain ⟨low, high, hlead, hbounds⟩ := exists_lead?_three hlow hhigh
  obtain ⟨hblow, hbhigh⟩ := hbounds b.toNat hb.1 hb.2 hfirst hlast
  rw [charAt_of_lead? hlead (by omega), follow_cons hblow hbhigh, follow_cons hc.1 hc.2, follow]

theorem charAt_four (rest : List UInt8) {a b c d : UInt8} (hlow : 0xF0 ≤ a.toNat)
    (hhigh : a.toNat ≤ 0xF4) (hb : IsTail b) (hc : IsTail c) (hd : IsTail d)
    (hfirst : a.toNat = 0xF0 → 0x90 ≤ b.toNat) (hlast : a.toNat = 0xF4 → b.toNat ≤ 0x8F) :
    charAt a (b :: c :: d :: rest) =
      (Char.ofNat ((((a.toNat - 0xF0) * 64 + b.toNat % 64) * 64 + c.toNat % 64) * 64 +
        d.toNat % 64), 3) := by
  obtain ⟨low, high, hlead, hbounds⟩ := exists_lead?_four hlow hhigh
  obtain ⟨hblow, hbhigh⟩ := hbounds b.toNat hb.1 hb.2 hfirst hlast
  rw [charAt_of_lead? hlead (by omega), follow_cons hblow hbhigh, follow_cons hc.1 hc.2,
    follow_cons hd.1 hd.2, follow]

theorem toNat_ofNat_of_lt {n : Nat} (h : n < 256) : (UInt8.ofNat n).toNat = n := by
  simpa using Nat.mod_eq_of_lt h

theorem isTail_ofNat (n : Nat) : IsTail (UInt8.ofNat (n % 64 + 128)) := by
  have hlt : n % 64 + 128 < 256 := by omega
  rw [IsTail, toNat_ofNat_of_lt hlt]
  omega

/-- The bytes of a character are read as this character, whatever follows them. -/
theorem charsAfter_utf8EncodeChar (c : Char) (rest : List UInt8) :
    charsAfter 0 (String.utf8EncodeChar c ++ rest) = c :: charsAfter 0 rest := by
  have hlt := val_lt c
  have hc : Char.ofNat c.val.toNat = c := c.ofNat_toNat
  have hsurrogate : c.val.toNat < 0xD800 ∨ 0xDFFF < c.val.toNat := c.valid.imp_right (·.1)
  unfold String.utf8EncodeChar
  generalize c.val.toNat = v at *
  have hlast := toNat_ofNat_of_lt (n := v % 64 + 128) (by omega)
  have hthird := toNat_ofNat_of_lt (n := v / 64 % 64 + 128) (by omega)
  have hsecond := toNat_ofNat_of_lt (n := v / 4096 % 64 + 128) (by omega)
  simp only
  split_ifs with h1 h2 h3
  · have hfirst := toNat_ofNat_of_lt (n := v) (by omega)
    have hascii : v < 128 := by omega
    simp [charsAfter, charAt, hfirst, hascii, hc]
  · have hfirst := toNat_ofNat_of_lt (n := v / 64 % 32 + 192) (by omega)
    have hvalue : (v / 64 % 32 + 192 - 192) * 64 + (v % 64 + 128) % 64 = v := by omega
    have hchar := charAt_two rest (a := UInt8.ofNat (v / 64 % 32 + 192)) (by omega)
      (by omega) (isTail_ofNat v)
    rw [hfirst, hlast, hvalue, hc] at hchar
    simp only [List.cons_append, List.nil_append, charsAfter, hchar]
  · have hfirst := toNat_ofNat_of_lt (n := v / 4096 % 16 + 224) (by omega)
    have hvalue : ((v / 4096 % 16 + 224 - 224) * 64 + (v / 64 % 64 + 128) % 64) * 64 +
        (v % 64 + 128) % 64 = v := by omega
    have hchar := charAt_three rest (a := UInt8.ofNat (v / 4096 % 16 + 224)) (by omega)
      (by omega) (isTail_ofNat (v / 64)) (isTail_ofNat v) (by omega) (by omega)
    rw [hfirst, hthird, hlast, hvalue, hc] at hchar
    simp only [List.cons_append, List.nil_append, charsAfter, hchar]
  · have hfirst := toNat_ofNat_of_lt (n := v / 262144 % 8 + 240) (by omega)
    have hvalue : (((v / 262144 % 8 + 240 - 240) * 64 + (v / 4096 % 64 + 128) % 64) * 64 +
        (v / 64 % 64 + 128) % 64) * 64 + (v % 64 + 128) % 64 = v := by omega
    have hchar := charAt_four rest (a := UInt8.ofNat (v / 262144 % 8 + 240)) (by omega)
      (by omega) (isTail_ofNat (v / 4096)) (isTail_ofNat (v / 64)) (isTail_ofNat v) (by omega)
      (by omega)
    rw [hfirst, hsecond, hthird, hlast, hvalue, hc] at hchar
    simp only [List.cons_append, List.nil_append, charsAfter, hchar]

/-- A text is read back from its bytes, although bytes that are not well formed are replaced. -/
theorem ofBytesLossy_bytes (s : String) : ofBytesLossy (bytes s) = s := by
  have hchars (t : List Char) : charsAfter 0 (t.flatMap String.utf8EncodeChar) = t := by
    induction t with
    | nil => rfl
    | cons c t ih => rw [List.flatMap_cons, charsAfter_utf8EncodeChar, ih]
  rw [ofBytesLossy, bytes_eq, hchars, String.ofList_toList]

end Lossy

end RecordGate.Text
