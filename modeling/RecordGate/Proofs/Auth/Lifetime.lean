import RecordGate.Proofs.Auth.Issuer

/-!
# How long a credential lasts

A credential expires when its lifetime has passed since the issue, or at the last second that can be
told if that comes first. Until then and for the leeway after it, it stands for exactly the identity
that it was made for.
-/

namespace RecordGate

theorem Integer64.val_nearest {n : Int} (h : -9223372036854775808 ≤ n) :
    (nearest n).val = min n 9223372036854775807 := by
  unfold nearest
  split_ifs with hlow hhigh
  · omega
  · exact (Int.min_eq_right (Int.le_of_lt hhigh)).symm
  · exact (Int.min_eq_left (Int.not_lt.mp hhigh)).symm

/-- The identity of a subject with an access control list; a nil user is none. -/
def Subject.identity (subject : Subject) (acl : Option Acl) : Identity where
  user := if subject.user.isNil then none else some subject.user
  tenant := some subject.tenant
  isSuperAdmin := subject.isSuperAdmin
  acl := acl

namespace Signer

variable (s : Signer) (now : Int) (jti : Uuid) (subject : Subject) (acl : Option Acl)

/-- The time of expiry does not go round. From a time before 1970, a lifetime of more than 63 bits
would not reach the last second. -/
theorem exp_claimsFor (h : 0 ≤ now ∨ s.lifetime.seconds ≤ 9223372036854775807) :
    (s.claimsFor now jti subject acl).exp.val =
      min ((s.claimsFor now jti subject acl).iat.val + s.lifetime.seconds) 9223372036854775807 := by
  have hlow := (Integer64.nearest now).low_le
  have hiat : 0 ≤ now → 0 ≤ (Integer64.nearest now).val := by
    intro hnow
    rw [Integer64.val_nearest (by omega)]
    omega
  have hlifetime := Integer64.val_nearest (n := s.lifetime.seconds) (by omega)
  simp only [claimsFor, hlifetime]
  rw [Integer64.val_nearest (by omega)]
  omega

theorem earliest_le_of_authenticate_token {now : Int} {claims : TokenClaims} {identity : Identity}
    (h : s.authenticate now (token s.secret claims) = .ok identity) :
    s.earliest now ≤ claims.exp.val := by
  obtain ⟨given, hverify, -⟩ := authenticate_eq_ok_iff.mp h
  rw [verify_of_signed (signed_token s.secret claims), judge_eq_ok_iff] at hverify
  exact hverify.2.2.2.1

/-- By a clock that tells no time before 1970, a credential expires after the lifetime or at the last
second, without going round. A signer takes it for the identity of its subject at the times at which
it accepts the expiry, and at no others. Past the leeway, these are the times up to the expiry and
the leeway after it. -/
theorem authenticate_issue_until_expiry (s : Signer) (now : Int) (jti : Uuid) (subject : Subject)
    (acl : Option Acl) :
    (0 ≤ now ∨ s.lifetime.seconds ≤ 9223372036854775807 →
        (s.issue now jti subject acl).claims.exp.val =
          min ((s.issue now jti subject acl).claims.iat.val + s.lifetime.seconds)
            9223372036854775807) ∧
      (∀ later identity,
        s.authenticate later (s.issue now jti subject acl).token = .ok identity ↔
          s.earliest later ≤ (s.issue now jti subject acl).claims.exp.val ∧
            identity = subject.identity acl) ∧
      ∀ later : Int, s.leeway ≤ later →
        later ≤ (s.issue now jti subject acl).claims.exp.val + s.leeway →
          s.authenticate later (s.issue now jti subject acl).token = .ok (subject.identity acl) := by
  have haccepted (later : Int)
      (h : s.earliest later ≤ (s.issue now jti subject acl).claims.exp.val) :
      s.authenticate later (s.issue now jti subject acl).token = .ok (subject.identity acl) :=
    s.authenticate_issue now later jti subject acl h
  refine ⟨?_, ?_, ?_⟩
  · exact s.exp_claimsFor now jti subject acl
  · intro later identity
    constructor
    · intro h
      have hlive := s.earliest_le_of_authenticate_token h
      refine ⟨hlive, ?_⟩
      rw [haccepted later hlive, Except.ok.injEq] at h
      exact h.symm
    · rintro ⟨hlive, rfl⟩
      exact haccepted later hlive
  · intro later hclock hexp
    exact haccepted later (earliest_le hclock hexp)

/-- Credentials of the archive that are never to expire. -/
def longLived : Signer := ⟨"long lived", by decide, some "archive", ⟨18446744073709551615, 0⟩, 30⟩

/-- A subject without a user of its own. -/
def caretaker : Subject := ⟨⟨.ofNat 1⟩, ⟨.nil⟩, false⟩

/-- A list for an entity whose name needs escapes. -/
def shelfAcl : Acl := ⟨[⟨"rare \"Books\" \\ é", .single .read⟩]⟩

theorem authenticate_issue_longLived :
    (longLived.issue 1700000000 (.ofNat 6) caretaker shelfAcl).claims.exp.val =
        9223372036854775807 ∧
      longLived.authenticate 9223372036854775807
          (longLived.issue 1700000000 (.ofNat 6) caretaker shelfAcl).token =
        .ok ⟨none, some ⟨.ofNat 1⟩, false, some shelfAcl⟩ := by
  obtain ⟨hexp, -, hlive⟩ :=
    authenticate_issue_until_expiry longLived 1700000000 (.ofNat 6) caretaker (some shelfAcl)
  have hlast : (longLived.issue 1700000000 (.ofNat 6) caretaker shelfAcl).claims.exp.val =
      9223372036854775807 := hexp (.inl (by decide))
  refine ⟨hlast, hlive 9223372036854775807 (by decide) ?_⟩
  rw [hlast]
  decide

end Signer

end RecordGate
