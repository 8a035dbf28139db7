import RecordGate.Auth.Signer
import RecordGate.Proofs.Text.Split

/-!
# What a signer accepts

A token is signed when it has three parts of which the last is the signature of the other two, and
the first two can be read. Of a signed token only the claims are judged, and any other text is
invalid.
-/

namespace RecordGate.Signer

open Json (Decoder Slot)

/-- A text is a token with claims under a secret. The flag says whether it is meant for someone in
particular. -/
def Signed (secret token : String) (claims : TokenClaims) (hasAudience : Bool) : Prop :=
  ∃ head payload, '.' ∉ payload ∧
    token.toList = head ++ '.' :: payload ++ '.' :: signature secret (head ++ '.' :: payload) ∧
    '.' ∉ signature secret (head ++ '.' :: payload) ∧
    readPart (Slot.record () headerSlots) head = .ok () ∧
    readPart TokenClaims.decode payload = .ok claims ∧
    readPart (Slot.record false registeredSlots) payload = .ok hasAudience

theorem cut_eq_ok_iff {s a b : List Char} :
    cut s = .ok (a, b) ↔ '.' ∉ b ∧ s = a ++ '.' :: b := by
  rw [← Text.splitLast_eq_some_iff, cut]
  cases Text.splitLast '.' s <;> simp

theorem error_of_cut {s : List Char} {f : AuthFailure} (h : cut s = .error f) :
    f = .invalidToken := by
  unfold cut at h
  split at h <;> simp_all

theorem error_of_readPart {α : Type} {decode : Decoder α} {s : List Char} {f : AuthFailure}
    (h : readPart decode s = .error f) : f = .invalidToken := by
  unfold readPart at h
  split at h <;> simp_all

theorem verify_of_signed {s : Signer} {token : String} {claims : TokenClaims} {hasAudience : Bool}
    (h : Signed s.secret token claims hasAudience) (now : Int) :
    s.verify now token = s.judge now claims hasAudience := by
  obtain ⟨head, payload, hpayload, htoken, hsign, hhead, hclaims, haudience⟩ := h
  have hcut : cut token.toList =
      .ok (head ++ '.' :: payload, signature s.secret (head ++ '.' :: payload)) :=
    cut_eq_ok_iff.mpr ⟨hsign, htoken⟩
  have hbody : cut (head ++ '.' :: payload) = .ok (head, payload) :=
    cut_eq_ok_iff.mpr ⟨hpayload, rfl⟩
  simp [verify, bind, Except.bind, hcut, hbody, hhead, hclaims, haudience]

/-- Every answer of a signer is the judgement of the claims of a signed token, or the text is invalid. -/
theorem verify_cases (s : Signer) (now : Int) (token : String) :
    (∃ claims hasAudience, Signed s.secret token claims hasAudience ∧
        s.verify now token = s.judge now claims hasAudience) ∨
      s.verify now token = .error .invalidToken := by
  simp only [verify, bind, Except.bind]
  cases hcut : cut token.toList with
  | error f => exact .inr (by rw [error_of_cut hcut])
  | ok first =>
      obtain ⟨body, sign⟩ := first
      obtain ⟨hsign, htoken⟩ := cut_eq_ok_iff.mp hcut
      cases hbody : cut body with
      | error f => exact .inr (by simp [hbody, error_of_cut hbody])
      | ok second =>
          obtain ⟨head, payload⟩ := second
          obtain ⟨hpayload, rfl⟩ := cut_eq_ok_iff.mp hbody
          cases hhead : readPart (Slot.record () headerSlots) head with
          | error f => exact .inr (by simp [hbody, hhead, error_of_readPart hhead])
          | ok u =>
              by_cases hsig : signature s.secret (head ++ '.' :: payload) = sign
              · subst hsig
                cases hclaims : readPart TokenClaims.decode payload with
                | error f =>
                    exact .inr (by simp [hbody, hhead, hclaims, error_of_readPart hclaims])
                | ok claims =>
                    cases haud : readPart (Slot.record false registeredSlots) payload with
                    | error f =>
                        exact .inr (by simp [hbody, hhead, hclaims, haud, error_of_readPart haud])
                    | ok hasAudience =>
                        refine .inl ⟨claims, hasAudience, ⟨head, payload, hpayload, htoken, hsign, hhead,
                          hclaims, haud⟩, ?_⟩
                        simp [hbody, hhead, hclaims, haud]
              · exact .inr (by simp [hbody, hhead, hsig])

/-- Claims pass when they are meant for no one in particular, have not expired and come from an issuer
who is accepted. -/
theorem judge_eq_ok_iff {s : Signer} {now : Int} {given claims : TokenClaims} {hasAudience : Bool} :
    s.judge now given hasAudience = .ok claims ↔
      given = claims ∧ hasAudience = false ∧ 0 ≤ given.exp.val ∧ s.earliest now ≤ given.exp.val ∧
        s.acceptsIssuer given.iss = true := by
  unfold judge
  split_ifs with hnegative hexpired hrefused
  · simp only [false_iff]
    omega
  · simp only [false_iff]
    omega
  · simp only [false_iff]
    intro h
    simp [h.2.1, h.2.2.2.2] at hrefused
  · obtain ⟨hissuer, haudience⟩ : s.acceptsIssuer given.iss = true ∧ hasAudience = false := by
      simpa using hrefused
    simp only [Except.ok.injEq, haudience, hissuer, and_true, true_and]
    constructor
    · intro hgiven
      exact ⟨hgiven, by omega, by omega⟩
    · intro h
      exact h.1

theorem verify_eq_ok_iff {s : Signer} {now : Int} {token : String} {claims : TokenClaims} :
    s.verify now token = .ok claims ↔
      Signed s.secret token claims false ∧ 0 ≤ claims.exp.val ∧ s.earliest now ≤ claims.exp.val ∧
        s.acceptsIssuer claims.iss = true := by
  constructor
  · intro h
    rcases verify_cases s now token with ⟨given, hasAudience, hsigned, hjudge⟩ | hinvalid
    · rw [hjudge, judge_eq_ok_iff] at h
      obtain ⟨rfl, rfl, hclaims⟩ := h
      exact ⟨hsigned, hclaims⟩
    · rw [hinvalid] at h
      cases h
  · intro h
    obtain ⟨hsigned, hclaims⟩ := h
    rw [verify_of_signed hsigned, judge_eq_ok_iff]
    exact ⟨rfl, rfl, hclaims⟩

/-- Whoever is not known is told so by the status 401. -/
theorem status_of_verify {s : Signer} {now : Int} {token : String} {f : AuthFailure}
    (h : s.verify now token = .error f) : f.status = 401 := by
  obtain ⟨claims, hasAudience, _, hjudge⟩ | hinvalid := verify_cases s now token
  · rw [hjudge] at h
    unfold judge at h
    split_ifs at h <;> cases h <;> rfl
  · rw [hinvalid] at h
    cases h
    rfl

end RecordGate.Signer
