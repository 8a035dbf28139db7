import RecordGate.Proofs.Auth.Header
import RecordGate.Proofs.Auth.Lifetime
import RecordGate.Proofs.Service.Changes

/-!
# Who gets credentials

A credential is made for a super admin who asks for one and for nobody else, and it stands for
exactly what was asked for. As long as no super admin sends a request, no reply carries a token,
whatever other requests and earlier replies there are.
-/

namespace RecordGate

namespace Request

variable {r : Request}

/-- A request carries a token in its header. -/
def Carries (r : Request) (token : String) : Prop :=
  ∃ header, r.authorization = some header ∧ Bearer.token? header = some token

/-- The body of a request, which is not too long, asks for a credential for a subject. -/
def AsksFor (r : Request) (subject : Subject) : Prop :=
  r.Fits ∧ Subject.decode Json.depthLimit (Json.document r.body.toList).root = .ok subject

theorem decodeBody_eq_ok_iff_asksFor (hjson : r.SaysJson) {subject : Subject} :
    r.decodeBody Subject.decode = .ok subject ↔ r.AsksFor subject := decodeBody_eq_ok_iff hjson

end Request

/-- What stands for a token in a reply: the member `token` of its data. -/
def Reply.token? (reply : Reply) : Option Json :=
  match reply.content with
  | .json value => (value.member? "data").bind (Json.member? "token")
  | _ => none

theorem ErrorReport.token?_reply (report : ErrorReport) (now : Instant) :
    (report.reply now).token? = none := rfl

/-- No operation on records whose form has no member `token` replies with a token. -/
theorem Resource.Answers.token?_eq_none {ρ : Type} [Resource ρ] {now : Instant} {i : Identity}
    {action : Entitlement} {reply : Reply} (hjson : ∀ x : ρ, (json x).member? "token" = none)
    (h : Answers ρ now i action reply) : reply.token? = none := by
  cases h with
  | forbidden denied => rfl
  | unreadable h => rfl
  | failed report => exact report.token?_reply now
  | records found => rfl
  | record h record => exact hjson record
  | removed => rfl

/-- A credential for a subject with a user stands for the whole of it. -/
theorem Signer.authenticate_issueFor_eq_ok_iff {s : Signer} {now later : Int} {jti : Uuid}
    {directory : Directory} {subject : Subject} {identity : Identity}
    (huser : subject.user.isNil = false) :
    s.authenticate later (s.issueFor now jti directory subject).token = .ok identity ↔
      s.earliest later ≤ (s.issueFor now jti directory subject).claims.exp.val ∧
        identity = ⟨some subject.user, some subject.tenant, subject.isSuperAdmin,
          some (directory.resolve subject.tenant subject.user)⟩ := by
  have hidentity : Identity.subject? subject.user = some subject.user := by
    simp [Identity.subject?, huser]
  have haccepted := s.authenticate_issue now later jti subject
    (some (directory.resolve subject.tenant subject.user))
  rw [hidentity] at haccepted
  constructor
  · intro h
    have hlive := s.earliest_le_of_authenticate_token h
    have hsame := (haccepted hlive).symm.trans h
    exact ⟨hlive, (Except.ok.inj hsame).symm⟩
  · rintro ⟨hlive, rfl⟩
    exact haccepted hlive

namespace App

variable {app : App} {now : Instant} {supply : Supply} {jti : Uuid} {caller : Identity}
  {r : Request}

/-- The token that a request carries is a caller's. -/
def Knows (app : App) (now : Instant) (r : Request) (i : Identity) : Prop :=
  ∃ token, r.Carries token ∧ app.signer.authenticate now.seconds token = .ok i

theorem callerOf_of_guarded (h : Bearer.isPublic app.publicPaths r.path = false) :
    app.callerOf now r = .ok caller ↔ app.Knows now r caller := by
  rw [callerOf_eq_ok_iff]
  constructor
  · intro hadmits
    cases hadmits with
    | anyone hpublic => simp [h] at hpublic
    | holder _ hheader htoken hi => exact ⟨_, ⟨_, hheader, htoken⟩, hi⟩
  · rintro ⟨token, ⟨header, hheader, htoken⟩, hi⟩
    exact .holder h hheader htoken hi

/-- Whoever is admitted as a super admin is known by a token. -/
theorem knows_of_callerOf (h : app.callerOf now r = .ok caller)
    (hadmin : caller.isSuperAdmin = true) : app.Knows now r caller := by
  cases callerOf_eq_ok_iff.mp h with
  | anyone hpublic => simp [Identity.anonymous] at hadmin
  | holder _ hheader htoken hi => exact ⟨_, ⟨_, hheader, htoken⟩, hi⟩

/-- The credential that is made for a subject. -/
theorem issue_eq_issued {subject : Subject} (hbody : r.decodeBody Subject.decode = .ok subject)
    (hadmin : caller.isSuperAdmin = true) (huser : subject.user.isNil = false) :
    (app.issue now jti caller r).value =
      issued (app.signer.issueFor now.seconds jti app.directory subject) := by
  simp [issue, hbody, hadmin, huser]

/-- Nothing but a credential is sent with the status 201, and no token with another status. -/
theorem issue_cases (app : App) (now : Instant) (jti : Uuid) (caller : Identity) (r : Request) :
    (caller.isSuperAdmin = true ∧
        ∃ subject, r.decodeBody Subject.decode = .ok subject ∧ subject.user.isNil = false) ∨
      (app.issue now jti caller r).value.status ≠ 201 ∧
        (app.issue now jti caller r).value.token? = none := by
  cases hbody : r.decodeBody Subject.decode with
  | error reply =>
      obtain ⟨status, hstatus, rfl⟩ := Request.reply_of_decodeBody hbody
      have hne : status ≠ 201 := by omega
      exact .inr (by simpa [issue, hbody] using ⟨hne, rfl⟩)
  | ok subject =>
      cases hadmin : caller.isSuperAdmin with
      | false => exact .inr (by simpa [issue, hbody, hadmin] using ⟨by decide, rfl⟩)
      | true =>
          cases huser : subject.user.isNil with
          | false => exact .inl ⟨rfl, subject, rfl, huser⟩
          | true =>
              have hfailed : (app.issue now jti caller r).value =
                  (ErrorReport.validation "userId must not be the nil UUID").reply now := by
                simp only [issue, hbody, hadmin, huser]
                rfl
              have hstatus : ErrorCode.validationError.status ≠ 201 := by decide
              rw [hfailed]
              exact .inr ⟨hstatus, rfl⟩

theorem token?_issue (hadmin : caller.isSuperAdmin = false) :
    (app.issue now jti caller r).value.token? = none := by
  obtain ⟨htrue, -⟩ | ⟨-, htoken⟩ := app.issue_cases now jti caller r
  · rw [hadmin] at htrue
    cases htrue
  · exact htoken

theorem token?_schema (now : Instant) (part : String) :
    (schema now part).value.token? = none := by
  unfold schema
  cases Percent.decode? part with
  | none => rfl
  | some name =>
      simp only
      cases registry.summary? name with
      | none => rfl
      | some summary => rfl

theorem token?_operate (shelf : Shelf) (op : Operation) :
    (app.operate now supply caller r shelf op).value.reply.token? = none := by
  rw [operate_eq]
  have answers := Resource.answers_guarded now supply.take.1 caller r (app.store shelf) op
  cases shelf with
  | books => exact answers.token?_eq_none fun (_ : Book) => rfl
  | authors => exact answers.token?_eq_none fun (_ : Author) => rfl

/-- No route but the one for credentials leads to a reply with a token, and this one only for super
admins. -/
theorem token?_follow (hadmin : caller.isSuperAdmin = false) (route : Route) :
    (app.follow now supply caller r route).value.reply.token? = none := by
  cases route with
  | health => rfl
  | metrics =>
      simp only [follow, Recorded.value_pure, metricsReply]
      cases app.metrics <;> rfl
  | schemas => rfl
  | schema part => exact token?_schema now part
  | issue => exact token?_issue hadmin
  | operate shelf op => exact token?_operate shelf op

theorem token?_answer (hadmin : caller.isSuperAdmin = false) :
    (app.answer now supply caller r).value.reply.token? = none := by
  unfold answer
  cases Place.ofPath? r.path with
  | none => rfl
  | some place =>
      simp only
      cases place.route? r.served with
      | none => rfl
      | some route => exact token?_follow hadmin route

theorem token?_trimHead {o : Outcome} (h : o.reply.token? = none) :
    (trimHead r o).reply.token? = none := by
  unfold trimHead
  split
  · rfl
  · exact h

/-- Only who is known as a super admin gets a reply with a token. -/
theorem token?_handle (h : ∀ i, app.Knows now r i → i.isSuperAdmin = false) :
    (app.handle now supply r).value.reply.token? = none := by
  unfold handle
  split
  · rfl
  · cases hcaller : app.callerOf now r with
    | error f => exact token?_trimHead rfl
    | ok caller =>
        have hadmin : caller.isSuperAdmin = false := by
          by_contra htrue
          have hknows := knows_of_callerOf hcaller (by simpa using htrue)
          exact htrue (h caller hknows)
        exact token?_trimHead (token?_answer hadmin)

/-- No request changes the secret that credentials are checked with. -/
theorem signer_handle (app : App) (now : Instant) (supply : Supply) (r : Request) :
    (app.handle now supply r).value.app.signer = app.signer := by
  obtain ⟨-, happ⟩ | ⟨-, happ⟩ | ⟨caller, shelf, op, -, houtcome⟩ :=
    app.handle_cases now supply r
  · rw [happ]
  · rw [happ]
  · rw [houtcome, app_trimHead, operate_eq]
    cases shelf <;> rfl

theorem handle_credentials (hmethod : r.method = .post) (hpath : r.path = "/auth/token") :
    (app.handle now supply r).value =
      match app.callerOf now r with
      | .error f => ⟨f.reply, app, supply⟩
      | .ok caller => ⟨(app.issue now supply.take.1 caller r).value, app, supply.take.2⟩ := by
  have hplace : Place.ofPath? r.path = some .credentials := by rw [hpath]; rfl
  have hserved : r.served = .post := by simp [Request.served, hmethod]
  have hhead : r.method ≠ .head := by simp [hmethod]
  cases hcaller : app.callerOf now r with
  | error f => simp [handle, hmethod, hcaller, refuse, trimHead_of_ne hhead]
  | ok caller =>
      simp [handle, hmethod, hcaller, trimHead_of_ne hhead, answer, hplace, hserved, Place.route?,
        follow]

end App

namespace Moment

variable {m : Moment} {a : Arrival}

/-- The replies to requests that come in one after another. -/
def replies (m : Moment) : List Arrival → List Reply
  | [] => []
  | a :: rest => (m.outcome a).reply :: replies ⟨(m.outcome a).app, (m.outcome a).supply⟩ rest

/-- As long as nobody who is known as a super admin sends a request, no reply has a token. -/
theorem token?_replies {arrivals : List Arrival}
    (h : ∀ a ∈ arrivals, ∀ i, m.app.Knows a.now a.request i → i.isSuperAdmin = false) :
    ∀ reply ∈ m.replies arrivals, reply.token? = none := by
  induction arrivals generalizing m with
  | nil => simp [replies]
  | cons a rest ih =>
      have hfirst : (m.outcome a).reply.token? = none := App.token?_handle (h a (by simp))
      have hsigner : (m.outcome a).app.signer = m.app.signer := App.signer_handle ..
      have hrest : ∀ reply ∈ replies ⟨(m.outcome a).app, (m.outcome a).supply⟩ rest,
          reply.token? = none := by
        refine ih fun b hb i hknows => h b (by simp [hb]) i ?_
        unfold App.Knows at hknows ⊢
        rwa [← hsigner]
      simpa [replies, hfirst] using hrest

/-- The credential that is made for a subject when a request comes in. -/
def credential (m : Moment) (a : Arrival) (subject : Subject) : Credential :=
  m.app.signer.issueFor a.now.seconds m.supply.take.1 m.app.directory subject

/-- What becomes of a request for a credential whose sender is known. -/
theorem outcome_of_knows {caller : Identity} (hmethod : a.request.method = .post)
    (hpath : a.request.path = "/auth/token")
    (hguarded : Bearer.isPublic m.app.publicPaths "/auth/token" = false)
    (hknows : m.app.Knows a.now a.request caller) :
    m.outcome a = ⟨(m.app.issue a.now m.supply.take.1 caller a.request).value, m.app,
      m.supply.take.2⟩ := by
  have hcaller : m.app.callerOf a.now a.request = .ok caller :=
    (App.callerOf_of_guarded (by rw [hpath, hguarded])).mpr hknows
  rw [outcome, App.handle_credentials hmethod hpath, hcaller]

/-- A request for a credential succeeds when its sender is known as a super admin and asks for a
subject with a user, and only then. -/
theorem status_outcome_credentials (hmethod : a.request.method = .post)
    (hpath : a.request.path = "/auth/token")
    (hguarded : Bearer.isPublic m.app.publicPaths "/auth/token" = false)
    (hjson : a.request.SaysJson) :
    (m.outcome a).reply.status = 201 ↔
      ∃ caller subject, m.app.Knows a.now a.request caller ∧ caller.isSuperAdmin = true ∧
        a.request.AsksFor subject ∧ subject.user.isNil = false := by
  have hcaller (i : Identity) : m.app.callerOf a.now a.request = .ok i ↔
      m.app.Knows a.now a.request i := App.callerOf_of_guarded (by rw [hpath, hguarded])
  have hbody (subject : Subject) : a.request.decodeBody Subject.decode = .ok subject ↔
      a.request.AsksFor subject := Request.decodeBody_eq_ok_iff_asksFor hjson
  rw [outcome, App.handle_credentials hmethod hpath]
  constructor
  · intro h
    cases hc : m.app.callerOf a.now a.request with
    | error f =>
        rw [hc] at h
        have hstatus : f.reply.status = 401 := App.status_of_callerOf hc
        simp only [hstatus] at h
        cases h
    | ok caller =>
        rw [hc] at h
        obtain ⟨hadmin, subject, hsubject, huser⟩ | ⟨hstatus, -⟩ :=
          m.app.issue_cases a.now m.supply.take.1 caller a.request
        · exact ⟨caller, subject, (hcaller caller).mp hc, hadmin, (hbody subject).mp hsubject,
            huser⟩
        · exact absurd h hstatus
  · rintro ⟨caller, subject, hknows, hadmin, hasks, huser⟩
    rw [(hcaller caller).mpr hknows]
    simp only [App.issue_eq_issued ((hbody subject).mpr hasks) hadmin huser]
    rfl

theorem reply_outcome_credentials {subject : Subject}
    (hmethod : a.request.method = .post) (hpath : a.request.path = "/auth/token")
    (hguarded : Bearer.isPublic m.app.publicPaths "/auth/token" = false)
    (hjson : a.request.SaysJson) (hasks : a.request.AsksFor subject)
    (hstatus : (m.outcome a).reply.status = 201) :
    subject.user.isNil = false ∧ (m.outcome a).reply = App.issued (m.credential a subject) := by
  obtain ⟨caller, asked, hknows, hadmin, hasked, huser⟩ :=
    (status_outcome_credentials hmethod hpath hguarded hjson).mp hstatus
  obtain rfl : asked = subject := Except.ok.inj (hasked.2.symm.trans hasks.2)
  have hbody : a.request.decodeBody Subject.decode = .ok asked :=
    (Request.decodeBody_eq_ok_iff_asksFor hjson).mpr hasks
  rw [outcome_of_knows hmethod hpath hguarded hknows]
  exact ⟨huser, App.issue_eq_issued hbody hadmin huser⟩

/-- A request for a credential that is sent as JSON succeeds when its sender is known as a super
admin and asks for a subject with a user in a body that is not too long, and only then. Whoever is
known and sends a longer body is told so. The reply has a token which, at the times at which its
expiry is accepted, stands for exactly this subject with the access control list that the directory
gives at the time of the issue. These times are, past the leeway, those up to the expiry and the
leeway after it. As long as nobody who is known as a super admin sends a request, no reply has a
token. -/
theorem outcome_credentials (m : Moment) (a : Arrival)
    (hmethod : a.request.method = .post) (hpath : a.request.path = "/auth/token")
    (hguarded : Bearer.isPublic m.app.publicPaths "/auth/token" = false)
    (hjson : a.request.SaysJson) :
    ((m.outcome a).reply.status = 201 ↔
        ∃ caller subject, m.app.Knows a.now a.request caller ∧ caller.isSuperAdmin = true ∧
          a.request.AsksFor subject ∧ subject.user.isNil = false) ∧
      (¬ a.request.Fits → ∀ caller, m.app.Knows a.now a.request caller →
        (m.outcome a).reply = .unreadable 413) ∧
      (∀ subject, a.request.AsksFor subject → (m.outcome a).reply.status = 201 →
        (m.outcome a).reply.token? = some (.string (m.credential a subject).token) ∧
          (∀ later identity,
            m.app.signer.authenticate later (m.credential a subject).token = .ok identity ↔
              m.app.signer.earliest later ≤ (m.credential a subject).claims.exp.val ∧
                identity = ⟨some subject.user, some subject.tenant, subject.isSuperAdmin,
                  some (m.app.directory.resolve subject.tenant subject.user)⟩) ∧
          ∀ later : Int, m.app.signer.leeway ≤ later →
            later ≤ (m.credential a subject).claims.exp.val + m.app.signer.leeway →
              m.app.signer.earliest later ≤ (m.credential a subject).claims.exp.val) ∧
      ∀ arrivals : List Arrival,
        (∀ b ∈ arrivals, ∀ i, m.app.Knows b.now b.request i → i.isSuperAdmin = false) →
          ∀ reply ∈ m.replies arrivals, reply.token? = none := by
  refine ⟨status_outcome_credentials hmethod hpath hguarded hjson, ?_, ?_,
    fun arrivals hnone => token?_replies hnone⟩
  · intro hlong caller hknows
    rw [outcome_of_knows hmethod hpath hguarded hknows]
    simp [App.issue, Request.decodeBody_of_not_fits hjson hlong]
  · intro subject hasks hstatus
    obtain ⟨huser, hreply⟩ :=
      reply_outcome_credentials hmethod hpath hguarded hjson hasks hstatus
    refine ⟨by rw [hreply]; rfl, ?_, ?_⟩
    · intro later identity
      exact Signer.authenticate_issueFor_eq_ok_iff huser
    · intro later hclock hexp
      exact Signer.earliest_le hclock hexp

/-- A desk that makes credentials for a super admin alone. -/
def issuingDesk : Moment where
  app :=
    { signer := ⟨"issuing desk", by decide, some "desk", ⟨3600, 0⟩, 30⟩, publicPaths := ["/health"],
      directory := .empty, metrics := none, books := ⟨[]⟩, authors := ⟨[]⟩ }
  supply := ⟨.ofNat, 3⟩

/-- The super admin asks for a credential for a user, at the start of 2024. -/
def adminOrder : Arrival where
  now := ⟨⟨2024, 1, 1⟩, 0, 0⟩
  request :=
    { method := .post, path := "/auth/token", query := ""
      authorization := some ("Bearer " ++ (issuingDesk.app.signer.issue 1704067200 (.ofNat 2)
        ⟨⟨.ofNat 1⟩, ⟨.ofNat 2⟩, true⟩ none).token)
      contentType := some "application/json"
      body := "\x7b\"tenantId\": \"00000000-0000-0000-0000-000000000001\", " ++
        "\"userId\": \"00000000-0000-0000-0000-000000000005\"\x7d" }

theorem outcome_credentials_adminOrder :
    (issuingDesk.outcome adminOrder).reply.status = 201 ∧
      ∀ reply ∈ issuingDesk.replies [visit .post "/auth/token"], reply.token? = none := by
  obtain ⟨hstatus, -, -, hruns⟩ :=
    outcome_credentials issuingDesk adminOrder rfl rfl (by decide) ⟨_, rfl, by decide⟩
  have hknows : issuingDesk.app.Knows adminOrder.now adminOrder.request
      ⟨some ⟨.ofNat 2⟩, some ⟨.ofNat 1⟩, true, none⟩ :=
    ⟨_, ⟨_, rfl, Signer.token?_header _ _⟩, Signer.authenticate_issue _ _ _ _ _ _ (by decide)⟩
  have hasks : adminOrder.request.AsksFor ⟨⟨.ofNat 1⟩, ⟨.ofNat 5⟩, false⟩ := ⟨by decide, rfl⟩
  refine ⟨hstatus.mpr ⟨_, _, hknows, rfl, hasks, by decide⟩, ?_⟩
  refine hruns _ fun b hb i hknows => ?_
  obtain ⟨token, ⟨header, hheader, -⟩, -⟩ := hknows
  rw [List.mem_singleton.mp hb] at hheader
  cases hheader

end Moment

end RecordGate
