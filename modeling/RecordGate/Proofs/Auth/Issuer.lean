import RecordGate.Proofs.Auth.Credential

/-!
# The issuer of a credential

A signer that knows its issuer refuses claims that name another one. Claims that name none pass, so
that every token that was made under the secret without an issuer is taken for one of its own.
-/

namespace RecordGate.Signer

/-- A signer of the same secret that knows no issuer. -/
def anyIssuer (s : Signer) : Signer := { s with issuer := none }

variable {s : Signer} {name : String} {now : Int} {token : String} {claims : TokenClaims}

theorem acceptsIssuer_eq_true_iff (h : s.issuer = some name) {iss : Option String} :
    s.acceptsIssuer iss = true ↔ iss = none ∨ iss = some name := by
  cases iss <;> simp [acceptsIssuer, h]

theorem verify_anyIssuer_eq_ok_iff :
    s.anyIssuer.verify now token = .ok claims ↔
      Signed s.secret token claims false ∧ 0 ≤ claims.exp.val ∧
        s.earliest now ≤ claims.exp.val := by
  rw [verify_eq_ok_iff]
  simp only [anyIssuer, acceptsIssuer, earliest, and_true]

/-- Claims pass a signer that knows its issuer when they pass without one and name this issuer or
none. -/
theorem verify_eq_ok_iff_of_issuer (h : s.issuer = some name) :
    s.verify now token = .ok claims ↔
      s.anyIssuer.verify now token = .ok claims ∧ (claims.iss = none ∨ claims.iss = some name) := by
  rw [verify_eq_ok_iff, verify_anyIssuer_eq_ok_iff, acceptsIssuer_eq_true_iff h, and_assoc, and_assoc]

theorem authenticate_eq_ok_iff {identity : Identity} :
    s.authenticate now token = .ok identity ↔
      ∃ claims, s.verify now token = .ok claims ∧ claims.identity = identity := by
  rw [authenticate]
  cases s.verify now token <;> simp [Except.map]

/-- A token that was made under the secret passes when its claims have not expired and name the issuer
or none. -/
theorem verify_token_eq_ok_iff (h : s.issuer = some name) :
    s.verify now (Signer.token s.secret claims) = .ok claims ↔
      0 ≤ claims.exp.val ∧ s.earliest now ≤ claims.exp.val ∧
        (claims.iss = none ∨ claims.iss = some name) := by
  rw [verify_of_signed (signed_token s.secret claims), judge_eq_ok_iff, acceptsIssuer_eq_true_iff h]
  simp only [true_and]

/-- What a signer that knows its issuer accepts, as claims and as an identity, is what it would accept
without one, less the claims that name another issuer. A token that was made under the secret and
names no issuer passes until it expires. -/
theorem accepts_issuer_or_none (h : s.issuer = some name) (now : Int) (token : String) :
    (∀ claims, s.verify now token = .ok claims ↔
        s.anyIssuer.verify now token = .ok claims ∧
          (claims.iss = none ∨ claims.iss = some name)) ∧
      (∀ identity, s.authenticate now token = .ok identity ↔
        ∃ claims, s.anyIssuer.verify now token = .ok claims ∧
          (claims.iss = none ∨ claims.iss = some name) ∧ claims.identity = identity) ∧
      ∀ claims, claims.iss = none → 0 ≤ claims.exp.val → s.earliest now ≤ claims.exp.val →
        s.verify now (Signer.token s.secret claims) = .ok claims := by
  refine ⟨fun claims => verify_eq_ok_iff_of_issuer h, ?_, ?_⟩
  · intro identity
    simp only [authenticate_eq_ok_iff, verify_eq_ok_iff_of_issuer h, and_assoc]
  · intro claims hnone hexp hlive
    exact (verify_token_eq_ok_iff h).mpr ⟨hexp, hlive, .inl hnone⟩

/-- A signer of the archive. -/
def archivist : Signer := ⟨"reading room", by decide, some "archive", ⟨3600, 0⟩, 60⟩

/-- Claims of a visitor that name no issuer. -/
def visit : TokenClaims := { TokenClaims.blank with jti := "visit", exp := Integer64.nearest 2000 }

theorem archivist_accepts_visit :
    archivist.issuer = some "archive" ∧
      archivist.verify 1000 (Signer.token "reading room" visit) = .ok visit ∧
      archivist.authenticate 1000 (Signer.token "reading room" visit) = .ok visit.identity := by
  have hissuer : archivist.issuer = some "archive" := rfl
  obtain ⟨hverify, hauthenticate, htoken⟩ :=
    accepts_issuer_or_none hissuer 1000 (Signer.token "reading room" visit)
  have haccepted : archivist.verify 1000 (Signer.token "reading room" visit) = .ok visit :=
    htoken visit rfl (by decide) (by decide)
  refine ⟨hissuer, haccepted, (hauthenticate _).mpr ⟨visit, ?_, .inl rfl, rfl⟩⟩
  exact ((hverify visit).mp haccepted).1

/-- The claims that a signer accepts need not name its issuer. -/
theorem exists_accepted_without_issuer :
    ¬ ∀ (s : Signer) (name : String) (now : Int) (token : String) (claims : TokenClaims),
      s.issuer = some name → s.verify now token = .ok claims → claims.iss = some name := by
  intro h
  have haccepted : archivist.verify 1000 (Signer.token archivist.secret visit) = .ok visit :=
    (verify_token_eq_ok_iff rfl).mpr ⟨by decide, by decide, .inl rfl⟩
  have hiss := h archivist "archive" 1000 _ visit rfl haccepted
  cases hiss

end RecordGate.Signer
