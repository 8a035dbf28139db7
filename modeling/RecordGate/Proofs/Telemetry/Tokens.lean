import RecordGate.Proofs.Pattern.Runs
import RecordGate.Telemetry.Redaction

/-!
# Texts in the shape of a token

A token has three parts with points between them, and the first part begins like the header of a token.
The pattern of tokens matches where such a text begins, and it takes the longest one.
-/

namespace RecordGate

/-- A letter, a digit, an underscore or a dash. -/
def isTokenChar (c : Char) : Bool := c.isAlphanum || c == '_' || c == '-'

/-- A part of a token. -/
structure TokenPart (a : List Char) : Prop where
  nonempty : a ≠ []
  chars : ∀ c ∈ a, isTokenChar c = true

/-- A text in the shape of a token. -/
inductive TokenShaped : List Char → Prop
  | parts {a b c : List Char} : TokenPart a → TokenPart b → TokenPart c →
      TokenShaped ('e' :: 'y' :: 'J' :: (a ++ '.' :: (b ++ '.' :: c)))

/-- A text begins with no token. -/
def NoTokenAt (s : List Char) : Prop := ∀ t, TokenShaped t → ¬ t <+: s

/-- A text in the shape of a token that is followed by another text and cannot be made longer. -/
structure LongestToken (t after : List Char) : Prop where
  shaped : TokenShaped t
  longest : ∀ u, TokenShaped u → u <+: t ++ after → u.length ≤ t.length

theorem TokenShaped.exists_cons {t : List Char} (h : TokenShaped t) :
    ∃ s, t = 'e' :: s ∧ ∀ c ∈ s, isTokenChar c = true ∨ c = '.' := by
  obtain ⟨ha, hb, hc⟩ := h
  refine ⟨_, rfl, ?_⟩
  simp only [List.forall_mem_cons, List.forall_mem_append]
  exact ⟨.inl rfl, .inl rfl, fun d hd => .inl (ha.chars d hd), .inr trivial,
    fun d hd => .inl (hb.chars d hd), .inr trivial, fun d hd => .inl (hc.chars d hd)⟩

/-- The characters of the parts of a token, as a set. -/
def tokenChars : CharSet := ⟨false, [('a', 'z'), ('A', 'Z'), ('0', '9'), ('_', '_'), ('-', '-')]⟩

theorem has_tokenChars (c : Char) : tokenChars.has c = isTokenChar c := by
  have halphanum : c.isAlphanum = ((decide (c.val ≥ 65 ∧ c.val ≤ 90) ||
      decide (c.val ≥ 97) && decide (c.val ≤ 122)) ||
        decide (c.val ≥ 48) && decide (c.val ≤ 57)) := rfl
  rw [Bool.eq_iff_iff]
  simp [CharSet.has, tokenChars, isTokenChar, halphanum, ← Char.toNat_inj, UInt32.le_iff_toNat_le]
  omega

theorem runs_tokenChars_iff {a : List Char} : tokenChars.Runs a ↔ TokenPart a := by
  constructor
  · intro h
    exact ⟨h.nonempty, fun c hc => has_tokenChars c ▸ h.has c hc⟩
  · intro h
    exact ⟨h.nonempty, fun c hc => (has_tokenChars c).trans (h.chars c hc)⟩

/-- The text after a token that stands at the start of a text, as far as it goes. -/
def afterToken? (s : List Char) : Option (List Char) := do
  let s ← (CharSet.single 'e').after? s
  let s ← (CharSet.single 'y').after? s
  let s ← (CharSet.single 'J').after? s
  let s ← tokenChars.afterRun? s
  let s ← (CharSet.single '.').after? s
  let s ← tokenChars.afterRun? s
  let s ← (CharSet.single '.').after? s
  tokenChars.afterRun? s

theorem exists_token_of_afterToken? {s r : List Char} (h : afterToken? s = some r) :
    ∃ t, TokenShaped t ∧ s = t ++ r := by
  simp only [afterToken?, Option.bind_eq_bind, Option.bind_eq_some_iff, CharSet.after?_single] at h
  obtain ⟨_, rfl, _, rfl, s, rfl, _, ha, _, rfl, _, hb, _, rfl, hc⟩ := h
  obtain ⟨a, hruns, rfl⟩ := CharSet.exists_runs_of_afterRun? ha
  obtain ⟨b, hruns', rfl⟩ := CharSet.exists_runs_of_afterRun? hb
  obtain ⟨c, hruns'', rfl⟩ := CharSet.exists_runs_of_afterRun? hc
  rw [runs_tokenChars_iff] at hruns hruns' hruns''
  exact ⟨_, .parts hruns hruns' hruns'', by simp⟩

/-- A token at the start of a text goes on over the characters that may follow in its last part. -/
theorem TokenShaped.afterToken?_append {t : List Char} (h : TokenShaped t) (s : List Char) :
    afterToken? (t ++ s) = some (s.dropWhile tokenChars.has) := by
  obtain ⟨ha, hb, hc⟩ := h
  rw [← runs_tokenChars_iff] at ha hb hc
  have hpoint (r : List Char) : ('.' :: r).dropWhile tokenChars.has = '.' :: r := rfl
  have hafter (c : Char) (r : List Char) : (CharSet.single c).after? (c :: r) = some r :=
    CharSet.after?_single.mpr rfl
  simp only [afterToken?, List.cons_append, List.append_assoc, hafter, ha.afterRun?_append,
    hb.afterRun?_append, hc.afterRun?_append, hpoint, Option.bind_eq_bind, Option.bind_some]

theorem noTokenAt_of_afterToken? {s : List Char} (h : afterToken? s = none) : NoTokenAt s := by
  rintro t ht ⟨r, rfl⟩
  rw [ht.afterToken?_append] at h
  cases h

theorem longestToken_of_afterToken? {t r : List Char} (ht : TokenShaped t)
    (h : afterToken? (t ++ r) = some r) : LongestToken t r := by
  refine ⟨ht, ?_⟩
  rintro u hu ⟨s, hs⟩
  rw [← hs, hu.afterToken?_append, Option.some.injEq] at h
  have hlength := congrArg List.length hs
  have hdrop : r.length ≤ s.length := h ▸ List.length_dropWhile_le _ s
  simp only [List.length_append] at hlength
  omega

namespace Pattern

def letter (c : Char) : Pattern := .one (.single c)

def tokenRun : Pattern := plus true (.one tokenChars)

/-- The pattern of tokens, read from its text. -/
def tokens : Pattern :=
  .seq (letter 'e') (.seq (letter 'y') (.seq (letter 'J')
    (.seq tokenRun (.seq (letter '.') (.seq tokenRun (.seq (letter '.') tokenRun))))))

theorem read?_tokenPattern : read? RedactionRule.tokenPattern.toList = some tokens := rfl

theorem first?_tokens (s : List Char) (atStart : Bool) :
    tokens.first? ⟨s, atStart, []⟩ = (afterToken? s).map fun r => ⟨r, false, []⟩ := by
  -- A point is no character of a part, so a part of a token ends where the point must follow.
  have hpoint (next : Pattern) (c : Char) (s : List Char) (h : tokenChars.has c = true) :
      (seq (letter '.') next).ends ⟨c :: s, false, []⟩ = [] := by
    refine ends_one_seq_of_not_has fun hc => ?_
    rw [CharSet.has_single] at hc
    subst hc
    cases h
  have hrun (next : Pattern) (s : List Char) (atStart : Bool) :
      (seq tokenRun (seq (letter '.') next)).first? ⟨s, atStart, []⟩ =
        (tokenChars.afterRun? s).bind fun r =>
          (seq (letter '.') next).first? ⟨r, false, []⟩ :=
    first?_plus_seq (hpoint next)
  have hletter (c : Char) (next : Pattern) (s : List Char) (atStart : Bool) :
      (seq (letter c) next).first? ⟨s, atStart, []⟩ =
        ((CharSet.single c).after? s).bind fun r => next.first? ⟨r, false, []⟩ :=
    first?_one_seq
  have hlast (s : List Char) (atStart : Bool) :
      tokenRun.first? ⟨s, atStart, []⟩ = (tokenChars.afterRun? s).map fun r => ⟨r, false, []⟩ :=
    first?_plus
  simp only [tokens, afterToken?, hletter, hrun, hlast, Option.bind_eq_bind, Option.map_bind,
    Function.comp_def]

/-- The pattern of tokens matches the longest token at a place, if there is one. -/
theorem matchAt?_tokens (s : List Char) (atStart : Bool) :
    tokens.matchAt? ⟨s, atStart, []⟩ =
      (afterToken? s).map fun r => ⟨s.take (s.length - r.length), [], r⟩ := by
  have hfirst := first?_tokens s atStart
  rw [first?] at hfirst
  rw [matchAt?, hfirst, Option.map_map]
  rfl

end Pattern

end RecordGate
