import RecordGate.Proofs.Acl.Confinement
import RecordGate.Proofs.Auth.Credential

/-!
# Credentials as snapshots

Writes to a directory and issues of credentials follow one another in any order. A credential tells
what the directory entitled its holder to at the moment of issue. Nothing that is written later
changes it, and of what was written before only that counts which concerns the holder.
-/

namespace RecordGate

open Directory (Write)

/-- A directory and the credentials that have been issued from it, the earliest one first. -/
structure Desk where
  directory : Directory
  issued : List Credential

namespace Desk

/-- A write to the directory, or the issue of a credential. -/
inductive Act
  | write (w : Write)
  | issue (now : Int) (jti : Uuid) (subject : Subject)

def opened : Desk := ⟨.empty, []⟩

def step (s : Signer) (desk : Desk) : Act → Desk
  | .write w => { desk with directory := w.apply desk.directory }
  | .issue now jti subject =>
      { desk with issued := desk.issued ++ [s.issueFor now jti desk.directory subject] }

/-- The desk after a sequence of acts. -/
def run (s : Signer) (desk : Desk) (acts : List Act) : Desk := acts.foldl (step s) desk

/-- The writes among acts. -/
def writes : List Act → List Write
  | [] => []
  | .write w :: acts => w :: writes acts
  | .issue _ _ _ :: acts => writes acts

/-- What has been issued of the acts `before` and an issue after them, whatever follows. -/
def issuedAfter (s : Signer) (before : List Act) (now : Int) (jti : Uuid) (subject : Subject)
    (later : List Act) : Option Credential :=
  (opened.run s (before ++ .issue now jti subject :: later)).issued[(opened.run s before).issued.length]?

variable (s : Signer)

theorem directory_run (desk : Desk) (acts : List Act) :
    (desk.run s acts).directory = desk.directory.after (writes acts) := by
  induction acts generalizing desk with
  | nil => rfl
  | cons act acts ih =>
      rw [run, List.foldl_cons]
      cases act with
      | write w => exact ih (desk.step s (.write w))
      | issue now jti subject => exact ih (desk.step s (.issue now jti subject))

theorem issued_prefix_step (desk : Desk) (act : Act) : desk.issued <+: (desk.step s act).issued := by
  cases act with
  | write w => exact List.prefix_rfl
  | issue now jti subject => exact List.prefix_append _ _

/-- Nothing that has been issued is changed by later acts. -/
theorem issued_prefix_run (desk : Desk) (acts : List Act) :
    desk.issued <+: (desk.run s acts).issued := by
  induction acts generalizing desk with
  | nil => exact List.prefix_rfl
  | cons act acts ih => exact (issued_prefix_step s desk act).trans (ih (desk.step s act))

theorem issuedAfter_eq (before : List Act) (now : Int) (jti : Uuid) (subject : Subject)
    (later : List Act) :
    issuedAfter s before now jti subject later =
      some (s.issueFor now jti (Directory.empty.after (writes before)) subject) := by
  have hrun : opened.run s (before ++ .issue now jti subject :: later) =
      ((opened.run s before).step s (.issue now jti subject)).run s later := by
    rw [run, List.foldl_append]
    rfl
  have hissued : ((opened.run s before).step s (.issue now jti subject)).issued =
      (opened.run s before).issued ++
        [s.issueFor now jti (Directory.empty.after (writes before)) subject] := by
    rw [step, directory_run]
    rfl
  obtain ⟨rest, hrest⟩ :=
    issued_prefix_run s ((opened.run s before).step s (.issue now jti subject)) later
  rw [issuedAfter, hrun, ← hrest, hissued]
  simp

/-- An issue after any history gives a credential. As long as its time of expiry is accepted, it
authenticates a caller who is allowed what the history up to the issue entitles the subject to, or
everything if the subject is a super admin. The same credential is issued after any history that is
the same in the writes that concern the subject, whatever is written after the issue. -/
theorem issuedAfter_allows_iff_entitles (before later : List Act) (now : Int) (jti : Uuid)
    (subject : Subject) :
    ∃ credential, issuedAfter s before now jti subject later = some credential ∧
      (∀ time, s.earliest time ≤ credential.claims.exp.val →
        ∃ identity, s.authenticate time credential.token = .ok identity ∧
          ∀ entity action, (identity.evaluate entity action).allowed = true ↔
            subject.isSuperAdmin = true ∨
              (subject.user.isNil = false ∧
                Directory.Entitles (writes before) subject.tenant subject.user entity action)) ∧
      ∀ other rest,
        (writes other).filter (Write.concerns subject.tenant subject.user) =
            (writes before).filter (Write.concerns subject.tenant subject.user) →
          issuedAfter s other now jti subject rest = some credential := by
  refine ⟨_, issuedAfter_eq s before now jti subject later, ?_, ?_⟩
  · intro time hlive
    refine ⟨_, s.authenticate_issue now time jti subject _ hlive, ?_⟩
    intro entity action
    rw [Identity.allowed_evaluate_iff, ← Directory.allows_resolve_after, Identity.hasSubject,
      Identity.isSome_subject?]
    simp only [Option.some.injEq, exists_eq_left']
  · intro other rest hsame
    have hresolve : (Directory.empty.after (writes other)).resolve subject.tenant subject.user =
        (Directory.empty.after (writes before)).resolve subject.tenant subject.user := by
      rw [← Directory.resolve_after_filter, hsame, Directory.resolve_after_filter]
    rw [issuedAfter_eq, Signer.issueFor, Signer.issueFor, hresolve]

/-- A user with a role that may read books, as of the end of the history. -/
def readerHistory : List Act :=
  [ .write (.define ⟨.ofNat 1⟩ "Books" (.ofNat 2)),
    .write (.grantByName ⟨.ofNat 1⟩ ⟨.ofNat 3⟩ "books" (.single .read) (.ofNat 4)),
    .write (.assign ⟨.ofNat 1⟩ ⟨.ofNat 5⟩ ⟨.ofNat 3⟩) ]

def reader : Subject := ⟨⟨.ofNat 1⟩, ⟨.ofNat 5⟩, false⟩

/-- Credentials without an issuer that are accepted for an hour. -/
def hourly : Signer := ⟨"secret", by decide, none, ⟨3600, 0⟩, 30⟩

/-- A reader may read, and no more, an hour after the issue, although the role is revoked. -/
theorem issuedAfter_allows_reader :
    ∃ credential identity,
      issuedAfter hourly readerHistory 1700000000 (.ofNat 6) reader
          [.write (.revoke ⟨.ofNat 1⟩ ⟨.ofNat 5⟩ ⟨.ofNat 3⟩)] = some credential ∧
        hourly.authenticate 1700003600 credential.token = .ok identity ∧
        (identity.evaluate "BOOKS" .read).allowed = true ∧
        (identity.evaluate "Books" .update).allowed = false := by
  obtain ⟨credential, hissued, haccepted, -⟩ :=
    issuedAfter_allows_iff_entitles hourly readerHistory
      [.write (.revoke ⟨.ofNat 1⟩ ⟨.ofNat 5⟩ ⟨.ofNat 3⟩)] 1700000000 (.ofNat 6) reader
  have hexp : credential.claims.exp.val = 1700003600 := by
    rw [issuedAfter_eq, Option.some.injEq] at hissued
    rw [← hissued]
    rfl
  have hlive : hourly.earliest 1700003600 ≤ credential.claims.exp.val := by
    rw [hexp]
    exact Signer.earliest_le (by decide) (by decide)
  obtain ⟨identity, hidentity, hallowed⟩ := haccepted 1700003600 hlive
  refine ⟨credential, identity, hissued, hidentity, ?_, ?_⟩
  · exact (hallowed "BOOKS" .read).mpr
      (.inr ⟨by decide, Directory.allows_resolve_after.mp (by decide)⟩)
  · rw [Bool.eq_false_iff, ne_eq, hallowed "Books" .update]
    intro h
    rcases h with hadmin | ⟨-, hentitled⟩
    · exact absurd hadmin (by decide)
    · exact absurd (Directory.allows_resolve_after.mpr hentitled) (by decide)

end Desk

end RecordGate
