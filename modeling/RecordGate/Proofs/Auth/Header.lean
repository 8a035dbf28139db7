import RecordGate.Auth.Bearer
import RecordGate.Proofs.Auth.Credential

/-!
# Credentials in headers

A credential that was made is read from the header of a request as it is.
-/

namespace RecordGate

/-- A text without blanks is read from a header as the token in it. -/
theorem Bearer.token?_of_visible {t : List Char} (hne : t ≠ [])
    (h : ∀ c ∈ t, legible c = true ∧ Text.isBlank c = false) :
    token? ("Bearer " ++ String.ofList t) = some (String.ofList t) := by
  have htext : ("Bearer " ++ String.ofList t).toList = "Bearer ".toList ++ t := by
    simp
  have hlegible : ("Bearer ".toList ++ t).all legible = true := by
    have ht : t.all legible = true := List.all_eq_true.mpr fun c hc => (h c hc).1
    rw [List.all_append, ht]
    decide
  have hdrop : Text.dropStart? "Bearer ".toList ("Bearer ".toList ++ t) = some t :=
    Text.dropStart?_eq_some_iff.mpr rfl
  have htrimmed : Text.trimmed t = t := Text.trimmed_of_forall fun c hc => (h c hc).2
  simp only [token?, htext, hlegible, if_true, hdrop, Option.map_some, htrimmed]

theorem Base64Url.legible_digit {n : Nat} (h : n < 64) :
    Bearer.legible (digit n) = true ∧ Text.isBlank (digit n) = false := by
  have all : ∀ i : Fin 64, Bearer.legible (digit i) = true ∧ Text.isBlank (digit i) = false := by
    decide
  exact all ⟨n, h⟩

/-- The token of a credential is read from the header that carries it. -/
theorem Signer.token?_header (secret : String) (claims : TokenClaims) :
    Bearer.token? ("Bearer " ++ token secret claims) = some (token secret claims) := by
  have hencoded (bytes : List UInt8) :
      ∀ c ∈ Base64Url.encode bytes, Bearer.legible c = true ∧ Text.isBlank c = false := by
    intro c hc
    obtain ⟨n, hn, rfl⟩ := Base64Url.exists_of_mem_encode hc
    exact Base64Url.legible_digit hn
  have hpoint : Bearer.legible '.' = true ∧ Text.isBlank '.' = false := by decide
  refine Bearer.token?_of_visible (by simp) ?_
  intro c hc
  simp only [List.mem_append, List.mem_cons] at hc
  rcases hc with (hc | rfl | hc) | rfl | hc
  · exact hencoded _ c hc
  · exact hpoint
  · exact hencoded _ c hc
  · exact hpoint
  · exact hencoded _ c hc

end RecordGate
