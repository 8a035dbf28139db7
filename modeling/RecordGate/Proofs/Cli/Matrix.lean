import RecordGate.Cli.Run
import RecordGate.Proofs.Acl.ActionTexts
import RecordGate.Proofs.Acl.Aggregate
import RecordGate.Proofs.Auth.Lifetime
import RecordGate.Proofs.Text.Ascending

/-!
# What a credential of the command line shows

A credential that is made from grants is shown as a table of decisions. Its rows are told apart by
the case of their names, although the decisions in them are not.
-/

namespace RecordGate.Cli

/-- The name of an entity and the actions that are granted on it. -/
structure Grant where
  name : String
  contained : Entitlement → Prop

/-- An argument writes a grant: the name between blanks, an equals sign and a text of actions. -/
def Grant.WrittenAs (g : Grant) (raw : String) : Prop :=
  ∃ front actions, raw = String.ofList (front ++ '=' :: actions) ∧ '=' ∉ front ∧
    g.name = String.ofList (Text.trimmed front) ∧ EntitlementSet.Tells actions g.contained

/-- An entry of an access control list says what a grant says. -/
structure Grant.IsEntry (g : Grant) (e : AclEntry) : Prop where
  name : e.entityName = g.name
  allows_iff (a : Entitlement) : e.bits.allows a = true ↔ g.contained a

theorem exists_readGrant {g : Grant} {raw : String} (h : g.WrittenAs raw) :
    ∃ e, readGrant raw = .ok e ∧ g.IsEntry e := by
  obtain ⟨front, actions, rfl, hfront, hname, htells⟩ := h
  obtain ⟨s, hparse, hallows⟩ := EntitlementSet.exists_parse_of_tells htells
  have hsplit : Text.splitFirst '=' (front ++ '=' :: actions) = some (front, actions) :=
    Text.splitFirst_eq_some_iff.mpr ⟨hfront, rfl⟩
  exact ⟨⟨g.name, s⟩, by simp [readGrant, hsplit, hparse, hname], rfl, hallows⟩

theorem exists_readGrants {raws : List String} {grants : List Grant}
    (h : List.Forall₂ Grant.WrittenAs grants raws) :
    ∃ entries, readGrants raws = .ok entries ∧ List.Forall₂ Grant.IsEntry grants entries := by
  induction h with
  | nil => exact ⟨[], rfl, .nil⟩
  | cons hwritten hrest ih =>
      obtain ⟨e, hread, hentry⟩ := exists_readGrant hwritten
      obtain ⟨entries, hreads, hentries⟩ := ih
      exact ⟨e :: entries, by simp [readGrants, hread, hreads, bind, Except.bind, pure, Except.pure],
        .cons hentry hentries⟩

/-- The names of the entries of a list, if there is one. -/
def listedNames (acl : Option Acl) : List String :=
  (acl.map fun acl => acl.entries.map (·.entityName)).getD []

/-- What entries list and allow, in terms of the grants that they stand for. -/
theorem listed_and_allowed {grants : List Grant} {entries : List AclEntry}
    (h : List.Forall₂ Grant.IsEntry grants entries) :
    (∀ name, name ∈ entries.map (·.entityName) ↔ ∃ g ∈ grants, g.name = name) ∧
      ∀ entity a, Acl.allows ⟨entries⟩ entity a = true ↔
        ∃ g ∈ grants, Text.sameName g.name entity = true ∧ g.contained a := by
  simp only [Acl.allows_iff]
  induction h with
  | nil => simp
  | cons hentry hrest ih =>
      obtain ⟨hnames, hallowed⟩ := ih
      constructor
      · intro name
        rw [List.map_cons, List.mem_cons, hnames, hentry.name, eq_comm]
        simp only [List.mem_cons, exists_eq_or_imp]
      · intro entity a
        simp only [List.mem_cons, exists_eq_or_imp, hallowed, hentry.name, hentry.allows_iff]

/-- The list of grants; there is none without grants, which allows nothing either. -/
theorem exists_grantedAcl {raws : List String} {grants : List Grant}
    (h : List.Forall₂ Grant.WrittenAs grants raws) :
    ∃ acl, grantedAcl raws = .ok acl ∧
      (∀ name, name ∈ listedNames acl ↔ ∃ g ∈ grants, g.name = name) ∧
      ∀ entity a, (∃ list, acl = some list ∧ list.allows entity a = true) ↔
        ∃ g ∈ grants, Text.sameName g.name entity = true ∧ g.contained a := by
  obtain ⟨entries, hreads, hentries⟩ := exists_readGrants h
  obtain ⟨hnames, hallowed⟩ := listed_and_allowed hentries
  cases raws with
  | nil =>
      cases h
      exact ⟨none, rfl, by simp [listedNames], by simp⟩
  | cons raw raws =>
      refine ⟨some ⟨entries⟩, by simp [grantedAcl, hreads, Except.map], hnames, ?_⟩
      intro entity a
      simp only [Option.some.injEq, exists_eq_left', hallowed]

theorem cell_eq_allow_iff {row : DecisionRow} {a : Entitlement} :
    row.cell a = "allow" ↔ (row.decision a).allowed = true := by
  have hdeny (reason : String) : "deny (" ++ reason ++ ")" ≠ "allow" := by
    intro h
    have hhead := congrArg (fun s => s.toList.head?) h
    simp at hhead
  simp only [DecisionRow.cell]
  cases (row.decision a).allowed <;> simp [hdeny]

/-- The rows of decisions: their names once each in ascending order, with the decisions on each. -/
theorem decisions_spec (i : Identity) :
    ((decisions i).map DecisionRow.entity).Pairwise
        (fun e f => Text.orderBytes (Text.bytes e) (Text.bytes f) = .lt) ∧
      (∀ e, e ∈ (decisions i).map DecisionRow.entity ↔
        e ∈ Builtin.all.map Builtin.name ∨ e ∈ listedNames i.acl) ∧
      ∀ row ∈ decisions i, ∀ a,
        row.cell a = "allow" ↔ (i.evaluate row.entity a).allowed = true := by
  have hentities : (decisions i).map DecisionRow.entity =
      Text.ascending (Builtin.all.map Builtin.name ++ listedNames i.acl) := by
    simp [decisions, listedNames, Function.comp_def]
  refine ⟨?_, ?_, ?_⟩
  · rw [hentities]
    exact Text.pairwise_ascending _
  · intro e
    rw [hentities, Text.mem_ascending, List.mem_append]
  · intro row hrow a
    obtain ⟨name, -, rfl⟩ := List.mem_map.mp hrow
    exact cell_eq_allow_iff

/-- The signer that makes the credential of an order. -/
def IssueOrder.signer (order : IssueOrder) (h : order.secret ≠ "") : Signer :=
  ⟨order.secret, h, order.issuer, ⟨order.lifetime, 0⟩, 30⟩

/-- The signer that credentials are inspected with. -/
def inspector (secret : String) (h : secret ≠ "") : Signer := ⟨secret, h, none, ⟨3600, 0⟩, 30⟩

variable {w : Surroundings} {order : IssueOrder}

theorem issueCredential_of_grants {raws : List String} {acl : Option Acl} (h : order.secret ≠ "")
    (hsource : order.source = .grants raws) (hacl : grantedAcl raws = .ok acl) :
    issueCredential w order = .ok ((order.signer h).issue w.now w.supply.take.1
      ⟨order.tenant, order.user, order.isSuperAdmin⟩ acl) := by
  simp [issueCredential, signerOf, Signer.ofSettings, h, hsource, hacl, IssueOrder.signer, bind,
    Except.bind, pure, Except.pure]

/-- By a clock that tells no time before 1970, the credential expires after the lifetime or at the
last second that can be told. -/
theorem exp_issue (h : order.secret ≠ "") (acl : Option Acl) (hclock : 0 ≤ w.now) :
    ((order.signer h).issue w.now w.supply.take.1
      ⟨order.tenant, order.user, order.isSuperAdmin⟩ acl).claims.exp.val =
      min (w.now + order.lifetime) 9223372036854775807 := by
  have hexp := (order.signer h).exp_claimsFor w.now w.supply.take.1
    ⟨order.tenant, order.user, order.isSuperAdmin⟩ acl (.inl hclock)
  have hiat : (Integer64.nearest w.now).val = min w.now 9223372036854775807 :=
    Integer64.val_nearest (by omega)
  simp only [Signer.claimsFor, hiat, IssueOrder.signer] at hexp
  simp only [Signer.issue, Signer.claimsFor, IssueOrder.signer, hiat, hexp]
  omega

theorem runIssue_of_no_secret (h : order.secret = "") (format : OutputFormat) :
    runIssue w format order = .error (.signing (.misconfigured "JWT secret is required")) := by
  simp [runIssue, issueCredential, signerOf, Signer.ofSettings, h, bind, Except.bind]

theorem runIssue_eq {credential : Credential}
    (h : issueCredential w order = .ok credential) (format : OutputFormat) :
    runIssue w format order = .ok (shownAs format
      (.object [("token", .string credential.token), ("claims", credential.claims.json)])
      (credential.token ++ "\n")) := by
  simp only [runIssue, h, bind, Except.bind, pure, Except.pure]

theorem readToken_eq {token secret : String} {i : Identity} (h : secret ≠ "")
    (hi : (inspector secret h).authenticate w.now token = .ok i) :
    readToken w token secret = .ok i := by
  have hsigner : signerOf { secret := secret } = .ok (inspector secret h) := by
    simp [signerOf, Signer.ofSettings, h, inspector]
  simp [readToken, hsigner, hi, bind, Except.bind, pure, Except.pure]

/-- What an identity is shown as before its decisions. -/
def identityText (i : Identity) : String :=
  header "Identity" ++ detail "User" (i.user.elim "none" (·.uuid.text)) ++
    detail "Tenant" (i.tenant.elim "none" (·.uuid.text)) ++
    detail "Super admin" (if i.isSuperAdmin then "true" else "false") ++
    detail "ACL" (if i.acl.isSome then "present" else "absent") ++ header "Decisions"

/-- Inspecting a token shows an identity and rows of decisions, in every format. -/
def Shows (w : Surroundings) (token secret : String) (i : Identity) (rows : List DecisionRow) :
    Prop :=
  ∀ format, runInspect w format token secret =
    .ok (shownAs format
      (.object [("claims", i.json), ("decisions", .array (rows.map DecisionRow.json))])
      (identityText i ++ (decisionTable rows).text ++ "\n"))

theorem shows_decisions {token secret : String} {i : Identity}
    (h : readToken w token secret = .ok i) : Shows w token secret i (decisions i) := by
  intro format
  simp only [runInspect, h, bind, Except.bind, pure, Except.pure]
  rfl

/-- The rows of decisions that an order of grants leads to: one for every name of a built-in entity
or of a grant. Its cells allow what the grants on its name contain, in any letter case, to a user that
is not nil, and everything to super administrators. -/
structure IssueOrder.Matrix (order : IssueOrder) (grants : List Grant) (rows : List DecisionRow) :
    Prop where
  ascending : (rows.map DecisionRow.entity).Pairwise
    fun e f => Text.orderBytes (Text.bytes e) (Text.bytes f) = .lt
  mem_entities_iff (e : String) : e ∈ rows.map DecisionRow.entity ↔
    e ∈ Builtin.all.map Builtin.name ∨ ∃ g ∈ grants, g.name = e
  cell_eq_allow_iff (row : DecisionRow) (h : row ∈ rows) (a : Entitlement) :
    row.cell a = "allow" ↔
      order.isSuperAdmin = true ∨ order.user.isNil = false ∧
        ∃ g ∈ grants, Text.sameName g.name row.entity = true ∧ g.contained a

theorem IssueOrder.matrix_decisions {grants : List Grant} {acl : Option Acl}
    (hlisted : ∀ name, name ∈ listedNames acl ↔ ∃ g ∈ grants, g.name = name)
    (hallowed : ∀ entity a, (∃ list, acl = some list ∧ list.allows entity a = true) ↔
      ∃ g ∈ grants, Text.sameName g.name entity = true ∧ g.contained a) :
    order.Matrix grants
      (decisions ⟨Identity.subject? order.user, some order.tenant, order.isSuperAdmin, acl⟩) := by
  obtain ⟨hordered, hentities, hcells⟩ := decisions_spec
    ⟨Identity.subject? order.user, some order.tenant, order.isSuperAdmin, acl⟩
  refine ⟨hordered, ?_, ?_⟩
  · intro e
    rw [hentities, hlisted]
  · intro row hrow a
    rw [hcells row hrow a, Identity.allowed_evaluate_iff, hallowed, Identity.hasSubject,
      Identity.isSome_subject?]

/-- Without a secret no credential is made. Else the credential of grants is printed as a token, and
until its expiry, inspecting this token shows the decisions that the grants lead to. -/
theorem runInspect_runIssue {w : Surroundings} {order : IssueOrder} {raws : List String}
    {grants : List Grant} (hsource : order.source = .grants raws)
    (hwritten : List.Forall₂ Grant.WrittenAs grants raws) :
    (order.secret = "" → ∀ format,
      runIssue w format order = .error (.signing (.misconfigured "JWT secret is required"))) ∧
    ∀ hsecret : order.secret ≠ "", ∃ credential : Credential,
      (∀ format, runIssue w format order = .ok (shownAs format
        (.object [("token", .string credential.token), ("claims", credential.claims.json)])
        (credential.token ++ "\n"))) ∧
      (0 ≤ w.now →
        credential.claims.exp.val = min (w.now + order.lifetime) 9223372036854775807) ∧
      (∀ now, 30 ≤ now → now ≤ credential.claims.exp.val + 30 →
        (inspector order.secret hsecret).earliest now ≤ credential.claims.exp.val) ∧
      ∀ later : Surroundings,
        (inspector order.secret hsecret).earliest later.now ≤ credential.claims.exp.val →
        ∃ i rows, Shows later credential.token order.secret i rows ∧ order.Matrix grants rows := by
  refine ⟨runIssue_of_no_secret, fun hsecret => ?_⟩
  obtain ⟨acl, hacl, hlisted, hallowed⟩ := exists_grantedAcl hwritten
  have hissued := issueCredential_of_grants (w := w) hsecret hsource hacl
  refine ⟨_, runIssue_eq hissued, exp_issue hsecret acl,
    fun now hclock hexp => Signer.earliest_le hclock hexp, fun later hlive => ?_⟩
  have hsame : (inspector order.secret hsecret).secret = (order.signer hsecret).secret := rfl
  have hread := Signer.authenticate_issue_of_secret w.now later.now w.supply.take.1
    ⟨order.tenant, order.user, order.isSuperAdmin⟩ acl hsame rfl hlive
  exact ⟨_, _, shows_decisions (readToken_eq hsecret hread), order.matrix_decisions hlisted hallowed⟩

/-- Grants that name an entity in two ways and write sets of actions in four ways. -/
def counterArguments : List String := ["books = READ , update", "Books=8", " Loans=all", "Authors="]

def counterOrder : IssueOrder where
  secret := "counter"
  tenant := ⟨.ofNat 1⟩
  user := ⟨.ofNat 2⟩
  isSuperAdmin := false
  source := .grants counterArguments
  lifetime := 3600
  issuer := some "front"

def counterGrants : List Grant :=
  [ ⟨"books", fun a => a ∈ [.read, .update]⟩, ⟨"Books", fun a => 8 / a.bit % 2 = 1⟩,
    ⟨"Loans", fun _ => True⟩, ⟨"Authors", fun _ => False⟩ ]

theorem counterGrants_writtenAs :
    List.Forall₂ Grant.WrittenAs counterGrants counterArguments := by
  have hread : Text.Spells Entitlement.read.name " READ ".toList :=
    ⟨[' '], "READ".toList, [' '], by decide, by decide, by decide, by decide⟩
  have hupdate : Text.Spells Entitlement.update.name " update".toList :=
    ⟨[' '], "update".toList, [], by decide, by decide, by decide, by decide⟩
  have hwords : ∀ w ∈ [(" READ ".toList, Entitlement.read), (" update".toList, .update)],
      Text.Spells w.2.name w.1 := by
    intro w hw
    rcases List.mem_pair.mp hw with rfl | rfl
    · exact hread
    · exact hupdate
  have hmask : EntitlementSet.Tells ("".toList ++ "8".toList ++ "".toList) fun a =>
      8 / a.bit % 2 = 1 :=
    .mask (by decide) (by decide) (by decide) (by decide)
  have hall : Text.Spells "all" "all".toList :=
    ⟨[], "all".toList, [], by decide, by decide, by decide, by decide⟩
  have hnothing : Text.Spells "" [] := ⟨[], [], [], by decide, by decide, rfl, by decide⟩
  refine .cons ?_ (.cons ?_ (.cons ?_ (.cons ?_ .nil)))
  · exact ⟨"books ".toList, _, by decide, by decide, by decide, .names (by simp) hwords⟩
  · exact ⟨"Books".toList, _, by decide, by decide, by decide, hmask⟩
  · exact ⟨" Loans".toList, _, by decide, by decide, by decide, .all hall⟩
  · exact ⟨"Authors".toList, _, by decide, by decide, by decide, .nothing hnothing⟩

/-- The surroundings of a command that reads no files and asks no server. -/
def counterAt (now : Int) : Surroundings :=
  ⟨[], fun _ => .error "not found", .unreachable, now, ⟨.ofNat, 0⟩⟩

/-- An hour later, the books of the first name may be deleted by the grant on the second name. -/
theorem runInspect_counter :
    counterOrder.secret ≠ "" ∧ counterOrder.source = .grants counterArguments ∧
      List.Forall₂ Grant.WrittenAs counterGrants counterArguments ∧
      ∃ token, runIssue (counterAt 1700000000) .table counterOrder = .ok ⟨token ++ "\n", ""⟩ ∧
        ∃ i rows, Shows (counterAt 1700003600) token counterOrder.secret i rows ∧
          "Loans" ∈ rows.map DecisionRow.entity ∧
          ∃ row ∈ rows, row.entity = "books" ∧ row.cell .delete = "allow" ∧
            row.cell .create ≠ "allow" := by
  have hsecret : counterOrder.secret ≠ "" := by decide
  have hsource : counterOrder.source = .grants counterArguments := rfl
  obtain ⟨-, hprints⟩ :=
    runInspect_runIssue (w := counterAt 1700000000) hsource counterGrants_writtenAs
  obtain ⟨credential, hissue, hexp, hlive, hinspect⟩ := hprints hsecret
  have hend : credential.claims.exp.val = 1700003600 := hexp (by decide)
  obtain ⟨i, rows, hshows, hmatrix⟩ := hinspect (counterAt 1700003600)
    (hlive 1700003600 (by decide) (by omega))
  have hloans : "Loans" ∈ rows.map DecisionRow.entity :=
    (hmatrix.mem_entities_iff _).mpr (.inr ⟨⟨"Loans", fun _ => True⟩, by simp [counterGrants], rfl⟩)
  have hbooks : "books" ∈ rows.map DecisionRow.entity :=
    (hmatrix.mem_entities_iff _).mpr (.inr ⟨_, List.mem_cons_self, rfl⟩)
  obtain ⟨row, hrow, hname⟩ := List.mem_map.mp hbooks
  have hsame : Text.sameName "Books" row.entity = true := by
    rw [hname]
    decide
  refine ⟨hsecret, hsource, counterGrants_writtenAs, credential.token, hissue .table, i, rows,
    hshows, hloans, row, hrow, hname, ?_, ?_⟩
  · have hgrant : ⟨"Books", fun a => 8 / a.bit % 2 = 1⟩ ∈ counterGrants := by simp [counterGrants]
    exact (hmatrix.cell_eq_allow_iff row hrow .delete).mpr
      (.inr ⟨by decide, _, hgrant, hsame, by decide⟩)
  · rw [Ne, hmatrix.cell_eq_allow_iff row hrow .create, hname]
    rintro (hadmin | ⟨-, g, hg, hsame, hcontained⟩)
    · cases hadmin
    · simp only [counterGrants, List.mem_cons, List.not_mem_nil, or_false] at hg
      obtain rfl | rfl | rfl | rfl := hg
      · revert hcontained
        decide
      · revert hcontained
        decide
      · revert hsame
        decide
      · exact hcontained

end RecordGate.Cli
