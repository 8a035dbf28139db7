import RecordGate.Proofs.Auth.Signed
import RecordGate.Proofs.Service.Replies
import RecordGate.Proofs.Service.Routes

/-!
# Who is refused

A request to the records of an entity is refused in two ways: its sender is not known, or is known
and denied the action of the route. Both are decided before the body, the query string or a store is
looked at. Whoever is allowed the action never gets the reply of a denial, although reading asks for
the decision a second time.
-/

namespace RecordGate

/-- The identity with which a request is admitted: anyone on a path that is open, and else the holder
of the token in the header. -/
inductive App.Admits (app : App) (now : Instant) (r : Request) : Identity → Prop
  | anyone : Bearer.isPublic app.publicPaths r.path = true → App.Admits app now r .anonymous
  | holder {header token : String} {i : Identity} :
      Bearer.isPublic app.publicPaths r.path = false → r.authorization = some header →
      Bearer.token? header = some token → app.signer.authenticate now.seconds token = .ok i →
      App.Admits app now r i

/-- A request is refused when nobody is admitted with it, or whoever is admitted is denied. -/
def App.Refuses (app : App) (now : Instant) (r : Request) (entity : String)
    (action : Entitlement) : Prop :=
  ∀ i, app.Admits now r i → (i.evaluate entity action).allowed = false

namespace App

variable {app : App} {now : Instant} {r : Request}

theorem callerOf_eq_ok_iff {i : Identity} : app.callerOf now r = .ok i ↔ app.Admits now r i := by
  unfold callerOf
  constructor
  · intro h
    split at h
    · rename_i hpublic
      obtain rfl : Identity.anonymous = i := by simpa using h
      exact .anyone hpublic
    · rename_i hpublic
      unfold identify at h
      split at h
      · rename_i token htoken
        obtain ⟨header, hheader, htoken⟩ := Option.bind_eq_some_iff.mp htoken
        exact .holder (by simpa using hpublic) hheader htoken h
      · cases h
  · intro h
    cases h with
    | anyone hpublic => simp [hpublic]
    | holder hpublic hheader htoken hi => simp [hpublic, identify, hheader, htoken, hi]

theorem status_of_callerOf {f : AuthFailure} (h : app.callerOf now r = .error f) :
    f.status = 401 := by
  unfold callerOf identify at h
  split at h
  · cases h
  · split at h
    · rename_i token _
      unfold Signer.authenticate at h
      cases hverify : app.signer.verify now.seconds token with
      | error g =>
          rw [hverify] at h
          cases h
          exact Signer.status_of_verify hverify
      | ok claims =>
          rw [hverify] at h
          cases h
    · cases h
      rfl

end App

namespace Resource

variable {ρ : Type} [Resource ρ] {now : Instant} {fresh : Uuid} {i : Identity} {r : Request}
  {store : Store ρ}

/-- The reply is that of a denial exactly when the action is denied. -/
theorem guarded_reply_eq_forbidden_iff {op : Operation} :
    (guarded now fresh i r store op).value.reply = Refusal.forbiddenReply ↔
      (i.evaluate (Store.entityName ρ) op.action).allowed = false := by
  constructor
  · intro h
    have answers := answers_guarded now fresh i r store op
    exact answers.denied (congrArg Reply.status h)
  · intro denied
    rw [guarded_of_denied denied]

end Resource

namespace App

variable {app : App} {now : Instant} {supply : Supply} {r : Request} {caller : Identity}
  {shelf : Shelf} {op : Operation} {action : Entitlement}

theorem operate_of_denied
    (denied : (caller.evaluate shelf.entityName op.action).allowed = false) :
    (app.operate now supply caller r shelf op).value =
      ⟨Refusal.forbiddenReply, app, supply.take.2⟩ := by
  cases shelf with
  | books =>
      have hturn : (Resource.guarded now supply.take.1 caller r app.books op).value =
          ⟨Refusal.forbiddenReply, app.books⟩ := Resource.guarded_of_denied denied
      simp [operate, hturn]
  | authors =>
      have hturn : (Resource.guarded now supply.take.1 caller r app.authors op).value =
          ⟨Refusal.forbiddenReply, app.authors⟩ := Resource.guarded_of_denied denied
      simp [operate, hturn]

theorem operate_reply_eq_forbidden_iff :
    (app.operate now supply caller r shelf op).value.reply = Refusal.forbiddenReply ↔
      (caller.evaluate shelf.entityName op.action).allowed = false := by
  cases shelf with
  | books => exact Resource.guarded_reply_eq_forbidden_iff (ρ := Book)
  | authors => exact Resource.guarded_reply_eq_forbidden_iff (ρ := Author)

/-- What the service does with a request on a route of an entity. -/
theorem exists_handle_eq (route : EntityRoute shelf r.method r.path action) :
    ∃ op : Operation, op.action = action ∧
      ∀ (now : Instant) (supply : Supply) (app : App) (query body : String),
        (app.handle now supply { r with query := query, body := body }).value =
          match app.callerOf now r with
          | .error f => ⟨f.reply, app, supply⟩
          | .ok caller =>
              (app.operate now supply caller { r with query := query, body := body } shelf
                op).value := by
  obtain ⟨place, op, hplace, hroute, haction, hhead, hoptions⟩ := Place.exists_operation route
  refine ⟨op, haction, ?_⟩
  intro now supply app query body
  have hserved : ({ r with query := query, body := body } : Request).served = r.method := by
    simp [Request.served, hhead]
  have hcaller :
      app.callerOf now { r with query := query, body := body } = app.callerOf now r := rfl
  cases hc : app.callerOf now r with
  | error f => simp [handle, hoptions, hcaller, hc, refuse, trimHead, hhead]
  | ok caller =>
      simp [handle, hoptions, hcaller, hc, trimHead, hhead, answer, hplace, hserved, hroute, follow]

/-- A request on a route of an entity is answered by 401 when nobody is admitted with it, and by the
reply of a denial exactly when the action of the route is denied. A request that is refused changes
nothing, and its reply does not depend on its query string, its body or the records. -/
theorem handle_entityRoute (route : EntityRoute shelf r.method r.path action) :
    ((∀ i, ¬ app.Admits now r i) → (app.handle now supply r).value.reply.status = 401) ∧
      (∀ i, app.Admits now r i →
        ((app.handle now supply r).value.reply = Refusal.forbiddenReply ↔
          (i.evaluate shelf.entityName action).allowed = false)) ∧
      (app.Refuses now r shelf.entityName action →
        (app.handle now supply r).value.app = app ∧
          ∀ (books : Store Book) (authors : Store Author) (query body : String),
            (App.handle { app with books := books, authors := authors } now supply
                { r with query := query, body := body }).value.reply =
              (app.handle now supply r).value.reply) := by
  obtain ⟨op, rfl, hhandle⟩ := exists_handle_eq route
  have hself : (app.handle now supply r).value = _ := hhandle now supply app r.query r.body
  have hother : ∀ (books : Store Book) (authors : Store Author),
      App.callerOf { app with books := books, authors := authors } now r = app.callerOf now r :=
    fun _ _ => rfl
  cases hc : app.callerOf now r with
  | error f =>
      have hnobody : ∀ i, ¬ app.Admits now r i := by
        intro i hi
        rw [← callerOf_eq_ok_iff, hc] at hi
        cases hi
      rw [hself, hc]
      refine ⟨fun _ => status_of_callerOf hc, fun i hi => absurd hi (hnobody i), fun _ => ⟨rfl, ?_⟩⟩
      intro books authors query body
      rw [hhandle, hother, hc]
  | ok caller =>
      have hadmits : app.Admits now r caller := callerOf_eq_ok_iff.mp hc
      rw [hself, hc]
      refine ⟨fun hnobody => absurd hadmits (hnobody caller), ?_, fun hrefuses => ?_⟩
      · intro i hi
        obtain rfl : caller = i := by
          rw [← callerOf_eq_ok_iff, hc] at hi
          exact Except.ok.inj hi
        exact operate_reply_eq_forbidden_iff
      · have denied := hrefuses caller hadmits
        refine ⟨by simp only [operate_of_denied denied], ?_⟩
        intro books authors query body
        simp only [hhandle, hother, hc, operate_of_denied denied]

/-- A service where whoever asks for records under `/api/` needs no credential. -/
def openApp : App where
  signer := ⟨"open", by decide, none, ⟨3600, 0⟩, 30⟩
  publicPaths := ["/api/*"]
  directory := .empty
  metrics := none
  books := ⟨[]⟩
  authors := ⟨[]⟩

/-- Where anyone is admitted, anyone is still denied the replacement of an author. -/
theorem handle_entityRoute_anonymous :
    EntityRoute .authors .put "/api/authors/7" .update ∧
      (openApp.handle ⟨⟨2024, 1, 1⟩, 0, 0⟩ ⟨fun _ => .nil, 0⟩
          ⟨.put, "/api/authors/7", "", none, none, "no author"⟩).value.reply =
        Refusal.forbiddenReply := by
  have part : IsRecordPart "7" := ⟨by decide, by decide, by decide⟩
  have route : EntityRoute .authors .put "/api/authors/7" .update := .replace part
  exact ⟨route, ((handle_entityRoute route).2.1 .anonymous (.anyone (by decide))).mpr (by decide)⟩

end App

end RecordGate
