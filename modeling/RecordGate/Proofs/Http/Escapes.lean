import RecordGate.Http.Request
import RecordGate.Proofs.Text.Bytes
import RecordGate.Proofs.Text.Digits
import RecordGate.Proofs.Text.Split

/-!
# Texts in query strings

There are many ways to write a text in a query string. Whichever is taken, the text is read back, and
every text has one.
-/

namespace RecordGate

namespace Percent

/-- The ways to write bytes in a query string: as a character with these bytes, a blank as a plus
sign, and any byte as a percent sign with two hexadecimal digits. -/
inductive Writes : List UInt8 → List Char → Prop
  | nil : Writes [] []
  | plain {b : List UInt8} {t : List Char} {c : Char} (h : c ≠ '%' ∧ c ≠ '+' ∧ c ≠ '&') :
      Writes b t → Writes (Text.bytes (String.ofList [c]) ++ b) (c :: t)
  | blank {b : List UInt8} {t : List Char} : Writes b t → Writes (0x20 :: b) ('+' :: t)
  | escape {b : List UInt8} {t : List Char} {byte : UInt8} {high low : Char}
      (h : hexFrom? 0 [high, low] = some byte.toNat) :
      Writes b t → Writes (byte :: b) ('%' :: high :: low :: t)

theorem ne_of_hexFrom? {high low c : Char} {n : Nat} (h : hexFrom? 0 [high, low] = some n)
    (hc : hexDigit? c = none) : high ≠ c ∧ low ≠ c := by
  constructor
  · rintro rfl
    simp [hexFrom?, hc] at h
  · rintro rfl
    cases hhigh : hexDigit? high <;> simp [hexFrom?, hhigh, hc] at h

theorem bytes_cons {c : Char} (h : c ≠ '%') (s : List Char) :
    bytes (c :: s) = Text.bytes (String.ofList [c]) ++ bytes s := by
  rw [bytes]
  rintro a b rest hc
  exact absurd hc h

/-- However bytes are written, they are read back. -/
theorem Writes.bytes_map {b : List UInt8} {t : List Char} (h : Writes b t) :
    bytes (t.map fun c => if c == '+' then ' ' else c) = b := by
  have hmap {c : Char} (hc : c ≠ '+') : (if c == '+' then ' ' else c) = c := by simp [hc]
  induction h with
  | nil => rfl
  | @plain b t c h hwrites ih => rw [List.map_cons, hmap h.2.1, bytes_cons h.1, ih]
  | @blank b t hwrites ih =>
      rw [List.map_cons, if_pos (by decide), bytes_cons (by decide), ih]
      rfl
  | @escape b t byte high low h hwrites ih =>
      obtain ⟨hhigh, hlow⟩ := ne_of_hexFrom? h (c := '+') (by decide)
      rw [List.map_cons, List.map_cons, List.map_cons, hmap (by decide), hmap hhigh, hmap hlow, bytes,
        h]
      simp only [UInt8.ofNat_toNat, ih]

theorem Writes.not_mem {b : List UInt8} {t : List Char} (h : Writes b t) : '&' ∉ t := by
  induction h with
  | nil => simp
  | plain h hwrites ih => simpa using ⟨h.2.2.symm, ih⟩
  | blank hwrites ih => simpa using ih
  | escape h hwrites ih =>
      obtain ⟨hhigh, hlow⟩ := ne_of_hexFrom? h (c := '&') (by decide)
      simpa using ⟨hhigh.symm, hlow.symm, ih⟩

theorem Writes.field_eq {s : String} {t : List Char} (h : Writes (Text.bytes s) t) :
    field t = s := by
  rw [field, h.bytes_map, Text.ofBytesLossy_bytes]

theorem bytes_ofList_cons (c : Char) (t : List Char) :
    Text.bytes (String.ofList (c :: t)) =
      Text.bytes (String.ofList [c]) ++ Text.bytes (String.ofList t) := by
  simp [Text.bytes_eq]

/-- A text without percent signs has no escapes. -/
theorem decode?_of_not_mem {s : String} (h : '%' ∉ s.toList) : decode? s = some s := by
  have hbytes {t : List Char} (ht : '%' ∉ t) : bytes t = Text.bytes (String.ofList t) := by
    induction t with
    | nil => rfl
    | cons c t ih =>
        rw [List.mem_cons, not_or] at ht
        rw [bytes_cons (Ne.symm ht.1), ih ht.2, ← bytes_ofList_cons]
  rw [decode?, hbytes h, String.ofList_toList, Text.ofBytes?_bytes]

/-- Characters that need no escape are written as they are. -/
theorem writes_self {t : List Char} (h : ∀ c ∈ t, c ≠ '%' ∧ c ≠ '+' ∧ c ≠ '&') :
    Writes (Text.bytes (String.ofList t)) t := by
  induction t with
  | nil => exact .nil
  | cons c t ih =>
      rw [bytes_ofList_cons]
      exact .plain (h c List.mem_cons_self) (ih fun d hd => h d (List.mem_cons_of_mem c hd))

/-- Every byte as a percent sign and two digits. -/
def escaped (b : List UInt8) : List Char := b.flatMap fun byte => '%' :: hexDigits 2 byte.toNat

theorem writes_escaped (b : List UInt8) : Writes b (escaped b) := by
  induction b with
  | nil => exact .nil
  | cons byte b ih =>
      have hdigits : hexDigits 2 byte.toNat =
          [Nat.digitChar (byte.toNat / 16 % 16), Nat.digitChar (byte.toNat % 16)] := rfl
      have hread : hexFrom? 0 (hexDigits 2 byte.toNat) = some byte.toNat :=
        hexFrom?_hexDigits byte.toNat_lt
      rw [hdigits] at hread
      exact .escape hread ih

/-- The only name in a query string, with its value. -/
theorem pairs_of_writes {name value : String} {n v : List Char} (hname : Writes (Text.bytes name) n)
    (hplain : '=' ∉ n) (hvalue : Writes (Text.bytes value) v) :
    pairs (String.ofList (n ++ '=' :: v)) = [(name, value)] := by
  have hsingle : Text.pieces '&' (n ++ '=' :: v) = [n ++ '=' :: v] := by
    refine Text.pieces_of_not_mem ?_
    simp [hname.not_mem, hvalue.not_mem]
  have hsplit : Text.splitFirst '=' (n ++ '=' :: v) = some (n, v) :=
    Text.splitFirst_eq_some_iff.mpr ⟨hplain, rfl⟩
  simp [pairs, hsingle, pair, hsplit, hname.field_eq, hvalue.field_eq]

end Percent

/-- A value in the query string is read as the text that it was written for. -/
theorem Request.parameter_of_writes {r : Request} {name value : String} {v : List Char}
    (hquery : r.query = name ++ "=" ++ String.ofList v)
    (hname : ∀ c ∈ name.toList, c ≠ '%' ∧ c ≠ '+' ∧ c ≠ '&' ∧ c ≠ '=')
    (hvalue : Percent.Writes (Text.bytes value) v) :
    r.parameter name = .ok (some value) := by
  have hself : Percent.Writes (Text.bytes name) name.toList := by
    have hwrites := Percent.writes_self fun c hc =>
      ⟨(hname c hc).1, (hname c hc).2.1, (hname c hc).2.2.1⟩
    rwa [String.ofList_toList] at hwrites
  have hplain : '=' ∉ name.toList := fun hmem => (hname '=' hmem).2.2.2 rfl
  have htext : r.query = String.ofList (name.toList ++ '=' :: v) := by
    rw [hquery, ← String.toList_inj]
    simp
  have hpairs : Percent.pairs r.query = [(name, value)] := by
    rw [htext]
    exact Percent.pairs_of_writes hself hplain hvalue
  simp [parameter, hpairs]

end RecordGate
