import Mathlib.Tactic.SplitIfs
import RecordGate.Proofs.Text.Words
import RecordGate.Proofs.Uuid

/-!
# The texts of an identifier

An identifier has four written forms, whose letters count in either case. A text is read as an
identifier exactly when it is one of these forms of it.
-/

namespace RecordGate

theorem hexFrom?_cons_eq_some_iff {start n : Nat} {c : Char} {s : List Char} :
    hexFrom? start (c :: s) = some n ↔
      ∃ d, hexDigit? c = some d ∧ hexFrom? (16 * start + d) s = some n := by
  rw [hexFrom?, Option.bind_eq_some_iff]

theorem hexDigit?_lt {c : Char} {d : Nat} (h : hexDigit? c = some d) : d < 16 := by
  simp only [hexDigit?, Bool.and_eq_true, decide_eq_true_eq, Char.reduceToNat] at h
  split_ifs at h <;> cases h <;> omega

theorem isBlank_of_hexDigit? {c : Char} {d : Nat} (h : hexDigit? c = some d) :
    Text.isBlank c = false := by
  simp only [hexDigit?, Bool.and_eq_true, decide_eq_true_eq, Char.reduceToNat] at h
  simp only [Text.isBlank, Bool.or_eq_false_iff, Bool.and_eq_false_iff, decide_eq_false_iff_not,
    beq_eq_false_iff_ne]
  split_ifs at h <;> omega

theorem hexFrom?_lt {start n : Nat} {s : List Char} (h : hexFrom? start s = some n) :
    n < (start + 1) * 16 ^ s.length := by
  induction s generalizing start with
  | nil =>
      cases h
      simp
  | cons c s ih =>
      obtain ⟨d, hd, hrest⟩ := hexFrom?_cons_eq_some_iff.mp h
      have hdigit := hexDigit?_lt hd
      calc n < (16 * start + d + 1) * 16 ^ s.length := ih hrest
        _ ≤ ((start + 1) * 16) * 16 ^ s.length := Nat.mul_le_mul_right _ (by omega)
        _ = (start + 1) * 16 ^ (c :: s).length := by
          rw [List.length_cons, Nat.pow_succ', Nat.mul_assoc]

theorem isSome_hexDigit?_of_mem {start n : Nat} {s : List Char} (h : hexFrom? start s = some n)
    {c : Char} (hc : c ∈ s) : (hexDigit? c).isSome = true := by
  induction s generalizing start with
  | nil => cases hc
  | cons a s ih =>
      obtain ⟨d, hd, hrest⟩ := hexFrom?_cons_eq_some_iff.mp h
      rcases List.mem_cons.mp hc with rfl | hc
      · rw [hd]
        rfl
      · exact ih hrest hc

theorem Text.intercalate_pieces (separator : Char) (s : List Char) :
    [separator].intercalate (pieces separator s) = s := by
  induction s with
  | nil => rfl
  | cons c s ih =>
      by_cases hc : c = separator
      · subst hc
        have hcons : pieces c (c :: s) = [] :: pieces c s := by simp [pieces]
        cases hs : pieces c s with
        | nil => exact absurd hs (pieces_ne_nil s)
        | cons p ps =>
            rw [hs] at ih
            rw [hcons, hs, List.intercalate_cons_cons, ih]
            rfl
      · obtain ⟨p, ps, hs, hcons⟩ := exists_pieces_cons hc s
        rw [hs] at ih
        rw [hcons]
        cases ps with
        | nil => simpa using ih
        | cons q ps =>
            rw [List.intercalate_cons_cons] at ih ⊢
            rw [List.cons_append, List.cons_append, ih]

namespace Uuid

/-- Hexadecimal digits that write an identifier as a number. -/
def WrittenBy (u : Uuid) (digits : List Char) : Prop :=
  digits.length = 32 ∧ hexFrom? 0 digits = some u.value.val

/-- The digits of an identifier in groups of 8, 4, 4, 4 and 12 with hyphens between them. -/
def Hyphenated (u : Uuid) (s : List Char) : Prop :=
  ∃ a b c d e : List Char,
    a.length = 8 ∧ b.length = 4 ∧ c.length = 4 ∧ d.length = 4 ∧ e.length = 12 ∧
      u.WrittenBy (a ++ b ++ c ++ d ++ e) ∧
      s = a ++ '-' :: (b ++ '-' :: (c ++ '-' :: (d ++ '-' :: e)))

/-- The written forms of an identifier: its digits, alone or in groups, and the groups in braces or
behind the beginning `urn:uuid:` in any case. -/
inductive Form (u : Uuid) : List Char → Prop
  | digits {s : List Char} : u.WrittenBy s → Form u s
  | groups {s : List Char} : u.Hyphenated s → Form u s
  | braced {s : List Char} : u.Hyphenated s → Form u ('\x7b' :: s ++ ['\x7d'])
  | named {name s : List Char} : Text.sameName "urn:uuid:" (String.ofList name) = true →
      u.Hyphenated s → Form u (name ++ s)

theorem ofDigits?_eq_some_iff {s : List Char} {u : Uuid} :
    ofDigits? s = some u ↔ u.WrittenBy s := by
  rw [ofDigits?, WrittenBy]
  by_cases hlength : s.length = 32
  · simp only [hlength, beq_self_eq_true, if_true, true_and, Option.map_eq_some_iff]
    constructor
    · rintro ⟨n, hn, rfl⟩
      have hlt : n < size := by
        have := hexFrom?_lt hn
        rw [hlength] at this
        simpa [size] using this
      rw [hn]
      exact congrArg some (Nat.mod_eq_of_lt hlt).symm
    · intro h
      exact ⟨_, h, ofNat_val u⟩
  · simp [hlength]

theorem WrittenBy.not_mem {u : Uuid} {s : List Char} (h : u.WrittenBy s) {c : Char}
    (hc : hexDigit? c = none) : c ∉ s := by
  intro hmem
  have := isSome_hexDigit?_of_mem h.2 hmem
  rw [hc] at this
  cases this

theorem WrittenBy.isBlank_eq {u : Uuid} {s : List Char} (h : u.WrittenBy s) {c : Char} (hc : c ∈ s) :
    Text.isBlank c = false := by
  obtain ⟨d, hd⟩ := Option.isSome_iff_exists.mp (isSome_hexDigit?_of_mem h.2 hc)
  exact isBlank_of_hexDigit? hd

theorem Hyphenated.isBlank_eq {u : Uuid} {s : List Char} (h : u.Hyphenated s) {c : Char}
    (hc : c ∈ s) : Text.isBlank c = false := by
  obtain ⟨x, y, z, v, w, -, -, -, -, -, hdigits, rfl⟩ := h
  by_cases hhyphen : c = '-'
  · rw [hhyphen]
    decide
  · refine hdigits.isBlank_eq ?_
    simpa [hhyphen] using hc

theorem Hyphenated.length_eq {u : Uuid} {s : List Char} (h : u.Hyphenated s) : s.length = 36 := by
  obtain ⟨a, b, c, d, e, ha, hb, hc, hd, he, -, rfl⟩ := h
  simp only [List.length_append, List.length_cons, ha, hb, hc, hd, he]

theorem ofGroups?_eq_some_iff {s : List Char} {u : Uuid} :
    ofGroups? s = some u ↔ u.Hyphenated s := by
  rw [ofGroups?]
  constructor
  · intro h
    split_ifs at h with hlengths
    have hs := Text.intercalate_pieces '-' s
    simp only [beq_iff_eq, List.map_eq_cons_iff, List.map_eq_nil_iff] at hlengths
    obtain ⟨a, _, hgroups, ha, b, _, rfl, hb, c, _, rfl, hc, d, _, rfl, hd, e, _, rfl, he, rfl⟩ :=
      hlengths
    rw [hgroups] at h hs
    refine ⟨a, b, c, d, e, ha, hb, hc, hd, he, ?_, ?_⟩
    · simpa using ofDigits?_eq_some_iff.mp h
    · simpa [List.intercalate_cons_cons] using hs.symm
  · rintro ⟨a, b, c, d, e, ha, hb, hc, hd, he, hdigits, rfl⟩
    have hhyphen : '-' ∉ a ++ b ++ c ++ d ++ e := hdigits.not_mem (by decide)
    simp only [List.mem_append, not_or] at hhyphen
    obtain ⟨⟨⟨⟨hna, hnb⟩, hnc⟩, hnd⟩, hne⟩ := hhyphen
    have hpieces : Text.pieces '-' (a ++ '-' :: (b ++ '-' :: (c ++ '-' :: (d ++ '-' :: e)))) =
        [a, b, c, d, e] := by
      simp only [Text.pieces_append, Text.pieces_of_not_mem, hna, hnb, hnc, hnd, hne,
        not_false_eq_true, List.cons_append, List.nil_append]
    have hflat : [a, b, c, d, e].flatten = a ++ b ++ c ++ d ++ e := by simp
    simp only [hpieces, hflat, List.map_cons, List.map_nil, ha, hb, hc, hd, he, beq_self_eq_true,
      if_true]
    exact ofDigits?_eq_some_iff.mpr hdigits

theorem fold_name {name : List Char} (h : Text.sameName "urn:uuid:" (String.ofList name) = true) :
    name.map Text.foldChar = "urn:uuid:".toList := by
  rw [Text.sameName_iff, Text.fold_ofList name] at h
  rw [← h]
  decide

theorem length_name {name : List Char} (h : Text.sameName "urn:uuid:" (String.ofList name) = true) :
    name.length = 9 := by
  rw [← List.length_map (f := Text.foldChar), fold_name h]
  decide

theorem afterName?_eq_some_iff {s r : List Char} :
    afterName? s = some r ↔
      ∃ name, Text.sameName "urn:uuid:" (String.ofList name) = true ∧ s = name ++ r := by
  rw [afterName?]
  constructor
  · intro h
    split_ifs at h with hstart
    cases h
    obtain ⟨rest, hrest⟩ := Text.startsWith_iff.mp hstart
    refine ⟨s.take 9, ?_, (List.take_append_drop 9 s).symm⟩
    have hname : (s.take 9).map Text.foldChar = "urn:uuid:".toList := by
      rw [List.map_take, hrest, List.take_append_of_le_length (by decide)]
      decide
    rw [Text.sameName_iff, Text.fold_ofList (s.take 9), hname]
    decide
  · rintro ⟨name, hname, rfl⟩
    have hstart : Text.startsWith "urn:uuid:".toList ((name ++ r).map Text.foldChar) = true := by
      rw [Text.startsWith_iff, List.map_append, fold_name hname]
      exact ⟨_, rfl⟩
    rw [if_pos hstart, List.drop_left' (length_name hname)]

theorem eq_braced_of_getLast? {rest : List Char} (h : rest.getLast? = some '\x7d') :
    '\x7b' :: rest = '\x7b' :: rest.dropLast ++ ['\x7d'] := by
  rw [List.cons_append, List.dropLast_append_getLast? _ h]

/-- A text is read as an identifier when it is a written form of it. -/
theorem read?_eq_some_iff {s : List Char} {u : Uuid} : read? s = some u ↔ u.Form s := by
  constructor
  · intro h
    unfold read? at h
    split_ifs at h with hdigits hgroups hbraced hnamed
    · exact .digits (ofDigits?_eq_some_iff.mp h)
    · exact .groups (ofGroups?_eq_some_iff.mp h)
    · split at h
      · split_ifs at h with hlast
        rw [eq_braced_of_getLast? (beq_iff_eq.mp hlast)]
        exact .braced (ofGroups?_eq_some_iff.mp h)
      · cases h
    · obtain ⟨r, hr, hread⟩ := Option.bind_eq_some_iff.mp h
      obtain ⟨name, hname, rfl⟩ := afterName?_eq_some_iff.mp hr
      exact .named hname (ofGroups?_eq_some_iff.mp hread)
  · intro h
    cases h with
    | digits h => simpa [read?, h.1] using ofDigits?_eq_some_iff.mpr h
    | groups h => simpa [read?, h.length_eq] using ofGroups?_eq_some_iff.mpr h
    | braced h => simpa [read?, h.length_eq] using ofGroups?_eq_some_iff.mpr h
    | @named name s hname h =>
        have hafter : afterName? (name ++ s) = some s :=
          afterName?_eq_some_iff.mpr ⟨name, hname, rfl⟩
        have hlength : (name ++ s).length = 45 := by
          rw [List.length_append, h.length_eq, length_name hname]
        simpa [read?, hlength, hafter] using ofGroups?_eq_some_iff.mpr h

/-- A text holds an identifier: blanks may stand around a written form of it. -/
def HeldBy (u : Uuid) (raw : String) : Prop :=
  ∃ before inner after, Text.Blank before ∧ Text.Blank after ∧
    raw.toList = before ++ inner ++ after ∧ u.Form inner

theorem Form.isBlank_eq {u : Uuid} {s : List Char} (h : u.Form s) {c : Char} (hc : c ∈ s) :
    Text.isBlank c = false := by
  cases h with
  | digits h => exact h.isBlank_eq hc
  | groups h => exact h.isBlank_eq hc
  | braced h =>
      simp only [List.cons_append, List.mem_cons, List.mem_append, List.not_mem_nil, or_false] at hc
      rcases hc with rfl | hc | rfl
      · decide
      · exact h.isBlank_eq hc
      · decide
  | @named name s hname h =>
      rcases List.mem_append.mp hc with hc | hc
      · have hmem : Text.foldChar c ∈ "urn:uuid:".toList := by
          rw [← fold_name hname]
          exact List.mem_map_of_mem hc
        have hplain : "urn:uuid:".toList.all fun d => !Text.isBlank d := by decide
        rw [← Text.isBlank_foldChar]
        simpa using List.all_eq_true.mp hplain _ hmem
      · exact h.isBlank_eq hc

theorem parseTrimmed?_eq_some_iff {raw : String} {u : Uuid} :
    parseTrimmed? raw = some u ↔ u.HeldBy raw := by
  rw [parseTrimmed?, read?_eq_some_iff]
  constructor
  · intro h
    obtain ⟨before, after, hbefore, hafter, hraw⟩ := Text.exists_eq_trimmed raw.toList
    exact ⟨before, _, after, hbefore, hafter, hraw, h⟩
  · rintro ⟨before, inner, after, hbefore, hafter, hraw, h⟩
    rw [hraw, Text.trimmed_append_right _ hafter, Text.trimmed_append_left hbefore,
      Text.trimmed_of_forall fun c hc => h.isBlank_eq hc]
    exact h

end Uuid

end RecordGate
