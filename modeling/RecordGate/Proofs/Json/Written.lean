import RecordGate.Json.Value
import RecordGate.Proofs.Text.Digits

/-!
# Tokens that were written

The characters that are written for a string, a word or a whole number are read as the one token
that stands for it, whatever follows a string or a word. Digits must not follow a number.
-/

namespace RecordGate.Json

/-- The text ends, or goes on with what may follow a value in a text without blanks. -/
def Ends (s : List Char) : Prop := ∀ c r, s = c :: r → c = ',' ∨ c = ']' ∨ c = '\x7d'

theorem ends_nil : Ends [] := by
  intro c r h
  cases h

theorem ends_comma (s : List Char) : Ends (',' :: s) := by
  intro c r h
  cases h
  exact .inl rfl

theorem ends_closeArray (s : List Char) : Ends (']' :: s) := by
  intro c r h
  cases h
  exact .inr (.inl rfl)

theorem ends_closeObject (s : List Char) : Ends ('\x7d' :: s) := by
  intro c r h
  cases h
  exact .inr (.inr rfl)

theorem tokensAfter_eq (skip : Nat) (s : List Char) : tokensAfter skip s = tokens (s.drop skip) := by
  induction skip generalizing s with
  | zero => rfl
  | succ skip ih =>
      cases s with
      | nil => simp [tokens, tokensAfter]
      | cons c s => simp [tokensAfter, ih]

/-- The text begins with one token, whose first character is not blank. -/
theorem tokens_of_tokenAt {c : Char} {s r : List Char} {t : Token} {used : Nat}
    (hspace : isSpace c = false) (htoken : tokenAt c (s ++ r) = (t, used)) (ht : t.isBad = false)
    (hused : used = s.length) : tokens (c :: (s ++ r)) = t :: tokens r := by
  rw [tokens, tokensAfter, hspace, htoken]
  simp only [Bool.false_eq_true, if_false, ht, tokensAfter_eq, hused, List.drop_left]

section Strings

variable {content : Content} {used : Nat} {c d : Char} {s : List Char}

theorem stringFrom_plain (hquote : c ≠ '"') (hslash : c ≠ '\\') (hcontrol : 0x20 ≤ c.toNat) :
    stringFrom content used (c :: s) = stringFrom (content.push c) (used + 1) s := by
  have h : ¬ c.toNat < 0x20 := by omega
  simp [stringFrom, hslash, h]

theorem stringFrom_escaped (hu : c ≠ 'u') (h : escaped? c = some d) :
    stringFrom content used ('\\' :: c :: s) = stringFrom (content.push d) (used + 2) s := by
  simp [stringFrom, hu, h]

theorem le_byteCount (s : List Char) : s.length ≤ byteCount s := by
  induction s with
  | nil => exact Nat.le_refl 0
  | cons c s ih =>
      have hc := c.utf8Size_pos
      have hcount : byteCount (c :: s) = c.utf8Size + byteCount s := rfl
      rw [hcount, List.length_cons]
      omega

theorem stringFrom_unit {digits : List Char} {n : Nat} (hlength : digits.length = 4)
    (h : hexFrom? 0 digits = some n) :
    stringFrom content used ('\\' :: 'u' :: (digits ++ s)) =
      stringFrom (content.unit n) (used + 6) s := by
  obtain ⟨a, b, x, y, rfl⟩ : ∃ a b x y, digits = [a, b, x, y] := by
    match digits, hlength with
    | [a, b, x, y], _ => exact ⟨a, b, x, y, rfl⟩
  have hcount : Nat.blt (byteCount [a, b, x, y]) 4 = false := by
    have := le_byteCount [a, b, x, y]
    rw [Bool.eq_false_iff, ne_eq, Nat.blt_eq]
    simp only [List.length_cons, List.length_nil] at this
    omega
  simp only [List.cons_append, List.nil_append, stringFrom, hcount, h, Bool.false_eq_true, if_false]

/-- A character is written as a letter after a backslash, as its number, or as itself. -/
theorem escape_cases (c : Char) :
    (∃ d, d ≠ 'u' ∧ escaped? d = some c ∧ escape c = ['\\', d]) ∨
      (c.toNat < 0x20 ∧ escape c = '\\' :: 'u' :: hexDigits 4 c.toNat) ∨
      (c ≠ '"' ∧ c ≠ '\\' ∧ 0x20 ≤ c.toNat ∧ escape c = [c]) := by
  unfold escape
  split
  · exact .inl ⟨'"', by decide, by simp_all [escaped?], rfl⟩
  split
  · exact .inl ⟨'\\', by decide, by simp_all [escaped?], rfl⟩
  split
  · exact .inl ⟨'n', by decide, by simp_all [escaped?], rfl⟩
  split
  · exact .inl ⟨'r', by decide, by simp_all [escaped?], rfl⟩
  split
  · exact .inl ⟨'t', by decide, by simp_all [escaped?], rfl⟩
  split
  · exact .inl ⟨'b', by decide, by simp_all [escaped?], rfl⟩
  split
  · exact .inl ⟨'f', by decide, by simp_all [escaped?], rfl⟩
  split
  · have hc : c.toNat < 0x20 := by simpa using ‹Nat.blt c.toNat 0x20 = true›
    exact .inr (.inl ⟨hc, rfl⟩)
  · have hc : ¬ c.toNat < 0x20 := by simpa using ‹¬ Nat.blt c.toNat 0x20 = true›
    exact .inr (.inr ⟨by simp_all, by simp_all, by omega, rfl⟩)

/-- A character is read from what is written for it. -/
theorem stringFrom_escape (t : List Char) (used : Nat) (c : Char) (s : List Char) :
    stringFrom ⟨some t, none⟩ used (escape c ++ s) =
      stringFrom ⟨some (c :: t), none⟩ (used + (escape c).length) s := by
  rcases escape_cases c with ⟨d, hu, hd, he⟩ | ⟨hc, he⟩ | ⟨hquote, hslash, hc, he⟩
  · rw [he]
    exact stringFrom_escaped hu hd
  · have hlength := length_hexDigits 4 c.toNat
    have hn : hexFrom? 0 (hexDigits 4 c.toNat) = some c.toNat := hexFrom?_hexDigits (by omega)
    have hunit : Content.unit ⟨some t, none⟩ c.toNat = ⟨some (c :: t), none⟩ := by
      have hhigh : Nat.ble 0xD800 c.toNat = false := by
        rw [Bool.eq_false_iff, ne_eq, Nat.ble_eq]
        omega
      have hlow : Nat.ble 0xDC00 c.toNat = false := by
        rw [Bool.eq_false_iff, ne_eq, Nat.ble_eq]
        omega
      simp [Content.unit, Content.push, hhigh, hlow, Char.ofNat_toNat]
    rw [he, List.cons_append, List.cons_append, stringFrom_unit hlength hn, hunit]
    simp only [List.length_cons, hlength]
  · rw [he]
    exact stringFrom_plain hquote hslash hc

theorem stringFrom_flatMap_escape (t : List Char) (used : Nat) (s r : List Char) :
    stringFrom ⟨some t, none⟩ used (s.flatMap escape ++ '"' :: r) =
      (.string (some (String.ofList (t.reverse ++ s))), used + (s.flatMap escape).length + 1) := by
  induction s generalizing t used with
  | nil => simp [stringFrom, Content.close]
  | cons c s ih =>
      rw [List.flatMap_cons, List.append_assoc, stringFrom_escape, ih]
      simp only [List.reverse_cons, List.append_assoc, List.singleton_append, List.length_append,
        Nat.add_assoc]

/-- A written string is read as that string. -/
theorem tokens_quote (s : String) (r : List Char) :
    tokens ((quote s).toList ++ r) = .string (some s) :: tokens r := by
  have hquote : (quote s).toList ++ r = '"' :: ((s.toList.flatMap escape ++ ['"']) ++ r) := by
    simp [quote]
  have htoken : tokenAt '"' ((s.toList.flatMap escape ++ ['"']) ++ r) =
      (.string (some s), (s.toList.flatMap escape).length + 1) := by
    simpa [tokenAt] using stringFrom_flatMap_escape [] 0 s.toList r
  rw [hquote]
  exact tokens_of_tokenAt (by decide) htoken rfl (by simp)

end Strings

section Numbers

variable {r : List Char}

theorem Ends.endsNumber (hr : Ends r) : EndsNumber r := by
  intro c s h
  rcases hr c s h with rfl | rfl | rfl <;> decide

theorem fractionPart_of_ends (hr : Ends r) : fractionPart r = .ok ([], r) := by
  cases r with
  | nil => rfl
  | cons c r => rcases hr c r rfl with rfl | rfl | rfl <;> rfl

theorem exponentPart_of_ends (hr : Ends r) : exponentPart r = .ok (none, 0) := by
  cases r with
  | nil => rfl
  | cons c r => rcases hr c r rfl with rfl | rfl | rfl <;> rfl

theorem numberPart_toDigits (negative : Bool) (n : Nat) (hr : Ends r) :
    numberPart negative (Nat.toDigits 10 n ++ r) =
      .ok (numberValue negative (Nat.toDigits 10 n) [] none, (Nat.toDigits 10 n).length) := by
  have hspan :=
    takeWhile_isDigit_append (fun c hc => isDigit_of_mem_toDigits (n := n) hc) hr.endsNumber
  have hempty : (Nat.toDigits 10 n).isEmpty = false := by simp
  have hzero :
      ((Nat.toDigits 10 n).head? == some '0' && (Nat.toDigits 10 n).length != 1) = false := by
    rw [Bool.and_eq_false_iff]
    by_cases hhead : (Nat.toDigits 10 n).head? = some '0'
    · rw [toDigits_of_head?_eq_zero hhead]
      exact .inr (by simp)
    · exact .inl (by simpa using hhead)
  simp only [numberPart, hspan.1, hspan.2, hempty, hzero, fractionPart_of_ends hr,
    exponentPart_of_ends hr, Bool.false_eq_true, if_false, bind, Except.bind, pure, Except.pure]
  simp

theorem numberValue_toDigits {n : Nat} (h : n < 18446744073709551616) :
    numberValue false (Nat.toDigits 10 n) [] none = some (.int n) := by
  simp [numberValue, digitsFrom_toDigits, h]

theorem numberValue_negative_toDigits {n : Nat} (hpos : 0 < n) (h : n ≤ 9223372036854775808) :
    numberValue true (Nat.toDigits 10 n) [] none = some (.int (-n)) := by
  have hne : n ≠ 0 := by omega
  simp [numberValue, digitsFrom_toDigits, h, hne]

theorem numberToken_of_digits {negative : Bool} {n : Nat} {value : Option Number} (hr : Ends r)
    (h : numberValue negative (Nat.toDigits 10 n) [] none = value) :
    numberToken negative (Nat.toDigits 10 n ++ r) = (.number value, (Nat.toDigits 10 n).length) := by
  rw [numberToken, numberPart_toDigits negative n hr, h]

theorem tokens_toDigits {n : Nat} (h : n < 18446744073709551616) (hr : Ends r) :
    tokens (Nat.toDigits 10 n ++ r) = .number (some (.int n)) :: tokens r := by
  have hnumber := numberToken_of_digits hr (numberValue_toDigits h)
  cases hdigits : Nat.toDigits 10 n with
  | nil => exact absurd hdigits Nat.toDigits_ne_nil
  | cons c s =>
      have hc : isDigit c = true := isDigit_of_mem_toDigits (n := n) (by simp [hdigits])
      have hne (d : Char) (hd : isDigit d = false) : (c == d) = false := by
        rw [beq_eq_false_iff_ne]
        intro h
        subst h
        rw [hc] at hd
        cases hd
      have hspace : isSpace c = false := by
        simp only [isSpace, hne ' ' (by decide), hne '\n' (by decide), hne '\t' (by decide),
          hne '\r' (by decide), Bool.or_false]
      have htoken : tokenAt c (s ++ r) = (.number (some (.int n)), s.length) := by
        rw [hdigits, List.cons_append] at hnumber
        simp only [tokenAt, hne '[' (by decide), hne ']' (by decide), hne '\x7b' (by decide),
          hne '\x7d' (by decide), hne ',' (by decide), hne ':' (by decide), hne '"' (by decide),
          hne 'n' (by decide), hne 't' (by decide), hne 'f' (by decide), hne '-' (by decide), hc,
          hnumber, Bool.false_eq_true, if_false, if_true, List.length_cons, Nat.add_sub_cancel]
      exact tokens_of_tokenAt hspace htoken rfl rfl

/-- A written whole number of 64 bits is read as that number. -/
theorem tokens_toString {n : Int} (hlow : -9223372036854775808 ≤ n)
    (hhigh : n < 18446744073709551616) (hr : Ends r) :
    tokens ((toString n).toList ++ r) = .number (some (.int n)) :: tokens r := by
  cases n with
  | ofNat m =>
      have htext : (toString (Int.ofNat m)).toList = Nat.toDigits 10 m := Nat.toList_repr
      have hm : m < 18446744073709551616 := Int.ofNat_lt.mp hhigh
      rw [htext]
      exact tokens_toDigits hm hr
  | negSucc m =>
      have htext : (toString (Int.negSucc m)).toList = '-' :: Nat.toDigits 10 (m + 1) := by
        have happend : toString (Int.negSucc m) = "-" ++ Nat.repr (m + 1) := rfl
        rw [happend, String.toList_append, Nat.toList_repr]
        rfl
      have hvalue := numberValue_negative_toDigits (n := m + 1) (by omega) (by omega)
      have htoken : tokenAt '-' (Nat.toDigits 10 (m + 1) ++ r) =
          (.number (some (.int (Int.negSucc m))), (Nat.toDigits 10 (m + 1)).length) :=
        numberToken_of_digits hr hvalue
      rw [htext, List.cons_append]
      exact tokens_of_tokenAt (by decide) htoken rfl rfl

end Numbers

theorem tokens_null (r : List Char) : tokens ("null".toList ++ r) = .null :: tokens r := by
  have htoken : tokenAt 'n' (['u', 'l', 'l'] ++ r) = (.null, 3) := by simp [tokenAt, word]
  exact tokens_of_tokenAt (by decide) htoken rfl rfl

theorem tokens_bool (b : Bool) (r : List Char) :
    tokens ((if b then "true" else "false").toList ++ r) = .bool b :: tokens r := by
  cases b with
  | false =>
      have htoken : tokenAt 'f' (['a', 'l', 's', 'e'] ++ r) = (.bool false, 4) := by
        simp [tokenAt, word]
      exact tokens_of_tokenAt (by decide) htoken rfl rfl
  | true =>
      have htoken : tokenAt 't' (['r', 'u', 'e'] ++ r) = (.bool true, 3) := by
        simp [tokenAt, word]
      exact tokens_of_tokenAt (by decide) htoken rfl rfl

theorem tokens_comma (r : List Char) : tokens (',' :: r) = .comma :: tokens r := rfl

theorem tokens_colon (r : List Char) : tokens (':' :: r) = .colon :: tokens r := rfl

theorem tokens_openArray (r : List Char) : tokens ('[' :: r) = .openArray :: tokens r := rfl

theorem tokens_closeArray (r : List Char) : tokens (']' :: r) = .closeArray :: tokens r := rfl

theorem tokens_openObject (r : List Char) : tokens ('\x7b' :: r) = .openObject :: tokens r := rfl

theorem tokens_closeObject (r : List Char) : tokens ('\x7d' :: r) = .closeObject :: tokens r := rfl

end RecordGate.Json
