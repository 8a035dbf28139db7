import RecordGate.Proofs.Pattern.Templates
import RecordGate.Proofs.Telemetry.Tokens

/-!
# What is left of a text

The tokens of a text are replaced from left to right, the longest at each place. With the standard
settings no token is left, neither in the text nor across what was put into it, and nothing else is
changed. Another replacement is a template: without a dollar sign it is put in as it stands, but a
template may ask for the token itself.
-/

namespace RecordGate

/-- A text and the same text with its tokens replaced, from left to right, the longest at each place. -/
inductive Replaced (inserted : List Char → List Char) : List Char → List Char → Prop
  | nil : Replaced inserted [] []
  | keep {c : Char} {s out : List Char} : NoTokenAt (c :: s) → Replaced inserted s out →
      Replaced inserted (c :: s) (c :: out)
  | replace {t s out : List Char} : LongestToken t s → Replaced inserted s out →
      Replaced inserted (t ++ s) (inserted t ++ out)

/-- A text holds no token. -/
def TokenFree (s : List Char) : Prop := ∀ t, TokenShaped t → ¬ t <:+: s

theorem tokenFree_cons_iff {c : Char} {s : List Char} :
    TokenFree (c :: s) ↔ NoTokenAt (c :: s) ∧ TokenFree s := by
  simp only [TokenFree, NoTokenAt, List.infix_cons_iff, not_or, imp_and, forall_and]

theorem tokenFree_nil : TokenFree [] := by
  intro t ht hinfix
  obtain ⟨s, rfl, -⟩ := ht.exists_cons
  cases List.infix_nil.mp hinfix

/-- What has no character with which a token begins can be put in front. -/
theorem tokenFree_append {r s : List Char} (he : 'e' ∉ r) (h : TokenFree s) : TokenFree (r ++ s) := by
  induction r with
  | nil => exact h
  | cons c r ih =>
      rw [List.mem_cons, not_or] at he
      refine tokenFree_cons_iff.mpr ⟨fun t ht hstarts => ?_, ih he.2⟩
      obtain ⟨u, rfl, -⟩ := ht.exists_cons
      exact he.1 (List.cons_prefix_cons.mp hstarts).1

theorem TokenShaped.length_pos {t : List Char} (h : TokenShaped t) : 0 < t.length := by
  obtain ⟨s, rfl, -⟩ := h.exists_cons
  exact Nat.succ_pos _

theorem LongestToken.eq_of_append_eq {t t' s s' : List Char} (h : LongestToken t s)
    (h' : LongestToken t' s') (heq : t ++ s = t' ++ s') : t = t' ∧ s = s' := by
  have hle : t.length ≤ t'.length := h'.longest t h.shaped (heq ▸ List.prefix_append t s)
  have hge : t'.length ≤ t.length := h.longest t' h'.shaped (heq ▸ List.prefix_append t' s')
  exact List.append_inj heq (Nat.le_antisymm hle hge)

namespace Replaced

variable {inserted : List Char → List Char} {s out out' : List Char}

theorem of_tokenFree (inserted : List Char → List Char) (h : TokenFree s) :
    Replaced inserted s s := by
  induction s with
  | nil => exact .nil
  | cons c s ih =>
      rw [tokenFree_cons_iff] at h
      exact .keep h.1 (ih h.2)

/-- The tokens of a text are replaced in one way only. -/
theorem unique (h : Replaced inserted s out) (h' : Replaced inserted s out') : out = out' := by
  induction h generalizing out' with
  | nil =>
      generalize hs : ([] : List Char) = s at h'
      cases h' with
      | nil => rfl
      | keep => cases hs
      | replace ht =>
          have hpos := ht.shaped.length_pos
          rw [(List.append_eq_nil_iff.mp hs.symm).1] at hpos
          cases hpos
  | @keep c s out hnone hrest ih =>
      generalize hs : c :: s = r at h'
      cases h' with
      | nil => cases hs
      | keep _ hrest' =>
          cases hs
          rw [ih hrest']
      | @replace t u _ ht =>
          rw [hs] at hnone
          exact absurd (List.prefix_append t u) (hnone t ht.shaped)
  | @replace t s out ht hrest ih =>
      generalize hs : t ++ s = r at h'
      cases h' with
      | nil =>
          have hpos := ht.shaped.length_pos
          rw [(List.append_eq_nil_iff.mp hs).1] at hpos
          cases hpos
      | keep hnone _ => exact absurd (hs ▸ List.prefix_append t s) (hnone t ht.shaped)
      | replace ht' hrest' =>
          obtain ⟨rfl, rfl⟩ := ht.eq_of_append_eq ht' hs
          rw [ih hrest']

/-- A beginning of the text after the replacement stood there before, if it holds none of what was
put in. -/
theorem starts_of_starts {b : Char} {r u : List Char} (h : Replaced (fun _ => b :: r) s out)
    (hstarts : u <+: out) (hu : b ∉ u) : u <+: s := by
  induction h generalizing u with
  | nil => exact hstarts
  | keep _ _ ih =>
      cases u with
      | nil => exact List.nil_prefix
      | cons d u =>
          obtain ⟨rfl, hrest⟩ := List.cons_prefix_cons.mp hstarts
          exact List.cons_prefix_cons.mpr ⟨rfl, ih hrest fun hmem => hu (List.mem_cons_of_mem _ hmem)⟩
  | replace _ _ _ =>
      cases u with
      | nil => exact List.nil_prefix
      | cons d u =>
          obtain ⟨rfl, -⟩ := List.cons_prefix_cons.mp hstarts
          exact absurd List.mem_cons_self hu

/-- No token is left, if what is put in begins with a character of no token and has no character with
which a token begins. -/
theorem tokenFree {b : Char} {r : List Char} (h : Replaced (fun _ => b :: r) s out)
    (hb : isTokenChar b = false) (hpoint : b ≠ '.') (he : 'e' ∉ b :: r) : TokenFree out := by
  induction h with
  | nil => exact tokenFree_nil
  | keep hnone hrest ih =>
      refine tokenFree_cons_iff.mpr ⟨fun t ht hstarts => ?_, ih⟩
      -- A token at the start of what is left would have stood there before.
      obtain ⟨u, rfl, hu⟩ := ht.exists_cons
      have hmem : b ∉ 'e' :: u := by
        intro hmem
        rcases List.mem_cons.mp hmem with rfl | hmem
        · exact he List.mem_cons_self
        · rcases hu b hmem with hchar | hdot
          · rw [hb] at hchar
            cases hchar
          · exact hpoint hdot
      exact hnone _ ht ((keep hnone hrest).starts_of_starts hstarts hmem)
  | replace _ _ ih => exact tokenFree_append he ih

end Replaced

/-- The pattern of tokens replaces the tokens of a text by what the template puts in for them. -/
theorem Pattern.replaced_replaceFrom (template : Template) (atStart joined : Bool) (s : List Char) :
    Replaced template.fill s (tokens.replaceFrom template atStart joined s) := by
  rw [replaceFrom.eq_def, matchAt?_tokens]
  cases hafter : afterToken? s with
  | none =>
      cases s with
      | nil => exact .nil
      | cons c s =>
          exact .keep (noTokenAt_of_afterToken? hafter) (replaced_replaceFrom template false false s)
  | some r =>
      obtain ⟨t, ht, rfl⟩ := exists_token_of_afterToken? hafter
      have hshorter : r.length < (t ++ r).length := by
        have hpos := ht.length_pos
        rw [List.length_append]
        omega
      have htext : (t ++ r).take ((t ++ r).length - r.length) = t := by simp
      simp only [Option.map_some, if_pos hshorter, htext, Template.expand_eq_fill]
      exact .replace (longestToken_of_afterToken? ht hafter)
        (replaced_replaceFrom template false true r)
termination_by s.length

namespace RedactionSettings

/-- Redaction takes place, and tokens are the only values that it looks for. -/
structure SeeksTokens (settings : RedactionSettings) : Prop where
  enabled : settings.enabled = true
  pattern : settings.rules.filterMap RedactionRule.valuePattern = [RedactionRule.tokenPattern]

/-- What is put in for a token. -/
def insertion (settings : RedactionSettings) : List Char → List Char :=
  (Template.read settings.replacement.toList).fill

end RedactionSettings

namespace Redactor

variable {settings : RedactionSettings}

theorem patterns_ofSettings (h : settings.SeeksTokens) : (ofSettings settings).patterns = [.tokens] := by
  have hread : (ofSettings settings).patterns =
      (settings.rules.filterMap RedactionRule.valuePattern).filterMap fun p =>
        Pattern.read? p.toList := (List.filterMap_filterMap ..).symm
  rw [hread, h.pattern, List.filterMap_cons, Pattern.read?_tokenPattern, List.filterMap_nil]

/-- The tokens of a value are replaced, and nothing else of it. -/
theorem replaced_cleaned (h : settings.SeeksTokens) (v : String) :
    Replaced settings.insertion v.toList ((ofSettings settings).cleaned v).toList := by
  have henabled : (ofSettings settings).enabled = true := h.enabled
  rw [cleaned, if_pos henabled, patterns_ofSettings h, String.toList_ofList]
  exact Pattern.replaced_replaceFrom _ true false v.toList

theorem insertion_of_plain (h : '$' ∉ settings.replacement.toList) :
    settings.insertion = fun _ => settings.replacement.toList :=
  funext fun t => Template.fill_read h t

theorem seeksTokens_standard : RedactionSettings.SeeksTokens {} := ⟨rfl, rfl⟩

/-- With the standard settings the tokens of a value are replaced, from left to right and the longest
at each place, and all else is kept. No token is left anywhere in what comes out, so that cleaning it
once more changes nothing. -/
theorem cleaned_tokenFree (v : String) :
    Replaced (fun _ => "[REDACTED]".toList) v.toList ((ofSettings {}).cleaned v).toList ∧
      TokenFree ((ofSettings {}).cleaned v).toList ∧
      (ofSettings {}).cleaned ((ofSettings {}).cleaned v) = (ofSettings {}).cleaned v := by
  have hinsertion : RedactionSettings.insertion {} = fun _ => "[REDACTED]".toList :=
    insertion_of_plain (by decide)
  have hreplaced (u : String) := replaced_cleaned seeksTokens_standard u
  rw [hinsertion] at hreplaced
  have hfree : TokenFree ((ofSettings {}).cleaned v).toList :=
    (hreplaced v).tokenFree rfl (by decide) (by decide)
  refine ⟨hreplaced v, hfree, ?_⟩
  exact String.toList_inj.mp ((hreplaced _).unique (.of_tokenFree _ hfree))

/-- The tokens of a value are replaced, from left to right and the longest at each place, by what the
replacement puts in as a template. Without a dollar sign this is the replacement itself, which also
stands for the whole value of a sensitive field. A template that does not ask for the whole match puts
in the same text for all tokens; one that does puts the token back in. -/
theorem cleaned_by_template (h : settings.SeeksTokens) (v : String) :
    Replaced settings.insertion v.toList ((ofSettings settings).cleaned v).toList ∧
      (∀ field, (ofSettings settings).isSensitive field = true →
        (ofSettings settings).redact field v = settings.replacement) ∧
      ('$' ∉ settings.replacement.toList →
        Replaced (fun _ => settings.replacement.toList) v.toList
          ((ofSettings settings).cleaned v).toList) ∧
      (.group 0 ∉ Template.read settings.replacement.toList →
        ∀ t u, settings.insertion t = settings.insertion u) ∧
      (.group 0 ∈ Template.read settings.replacement.toList →
        ∀ t, t <:+: settings.insertion t) := by
  refine ⟨replaced_cleaned h v, ?_, ?_, Template.fill_congr, Template.infix_fill⟩
  · intro field hfield
    exact if_pos hfield
  · intro hplain
    rw [← insertion_of_plain hplain]
    exact replaced_cleaned h v

/-- Settings that put every token in brackets, and hide the pins as well. -/
def bracketing : RedactionSettings where
  rules := [⟨"pins", ["pin"], none⟩, ⟨"tokens", [], some RedactionRule.tokenPattern⟩]
  replacement := "<$0>"

/-- Settings whose replacement has a name that stands for nothing. -/
def starring : RedactionSettings := { replacement := "**$secret" }

theorem cleaned_by_template_brackets :
    (ofSettings bracketing).redact "myPIN" "eyJa.b.c" = "<$0>" ∧
      (∀ t, t <:+: bracketing.insertion t) ∧
      (∀ t u, starring.insertion t = starring.insertion u) ∧
      Replaced (fun _ => "[REDACTED]".toList) "eyJa.b.c".toList
        ((ofSettings {}).cleaned "eyJa.b.c").toList := by
  have hbracketing : bracketing.SeeksTokens := ⟨rfl, rfl⟩
  have hstarring : starring.SeeksTokens := ⟨rfl, rfl⟩
  obtain ⟨-, hfield, -, -, hwhole⟩ := cleaned_by_template hbracketing "eyJa.b.c"
  obtain ⟨-, -, -, hsame, -⟩ := cleaned_by_template hstarring ""
  obtain ⟨-, -, hplain, -, -⟩ := cleaned_by_template seeksTokens_standard "eyJa.b.c"
  exact ⟨hfield "myPIN" rfl, hwhole (by decide), hsame (by decide), hplain (by decide)⟩

/-- A whole value that is a token. -/
def lone : String := "eyJa.b.c"

theorem longestToken_lone : LongestToken lone.toList [] := by
  have hpart (c : Char) (h : isTokenChar c = true) : TokenPart [c] :=
    ⟨List.cons_ne_nil _ _, by simpa using h⟩
  refine ⟨.parts (hpart 'a' rfl) (hpart 'b' rfl) (hpart 'c' rfl), ?_⟩
  intro u _ hstarts
  rw [List.append_nil] at hstarts
  exact hstarts.length_le

/-- A token gets through a replacement that asks for the whole match, though the same replacement hides
the value of a sensitive field. -/
theorem exists_token_not_replaced :
    ∃ settings : RedactionSettings, settings.SeeksTokens ∧ ∃ v : String, TokenShaped v.toList ∧
      (ofSettings settings).cleaned v = v ∧
      (ofSettings settings).redact "token" v = settings.replacement ∧
      ¬ Replaced (fun _ => settings.replacement.toList) v.toList
        ((ofSettings settings).cleaned v).toList := by
  have hseeks : RedactionSettings.SeeksTokens { replacement := "$0" } := ⟨rfl, rfl⟩
  have hcleaned : (ofSettings { replacement := "$0" }).cleaned lone = lone := by
    have hreplace : Replaced (RedactionSettings.insertion { replacement := "$0" }) lone.toList
        lone.toList := .replace longestToken_lone .nil
    exact String.toList_inj.mp ((replaced_cleaned hseeks lone).unique hreplace)
  refine ⟨{ replacement := "$0" }, hseeks, lone, longestToken_lone.shaped, hcleaned, rfl, ?_⟩
  intro hverbatim
  have hreplace : Replaced (fun _ => "$0".toList) lone.toList "$0".toList :=
    .replace longestToken_lone .nil
  rw [hcleaned] at hverbatim
  cases hverbatim.unique hreplace

end Redactor

end RecordGate
