import RecordGate.Service.Resource

/-!
# The replies of operations

Every reply of an operation on records has one of six forms. Which of them it can be tells what a
reply never says: the reply of a denial comes from a denial alone.
-/

namespace RecordGate

theorem ErrorCode.status_ne_forbidden (code : ErrorCode) : code.status ≠ 403 := by
  cases code <;> decide

/-- The status that tells what is wrong with a text in the body of a request. -/
def Json.Fault.status : Fault → Nat
  | mismatch => 422
  | _ => 400

namespace Request

variable {r : Request} {reply : Reply}

theorem reply_of_parameter {name : String} (h : r.parameter name = .error reply) :
    reply = .unreadable 400 := by
  unfold parameter at h
  split at h <;> cases h
  rfl

theorem reply_of_decodeBody {α : Type} {decode : Json.Decoder α}
    (h : r.decodeBody decode = .error reply) :
    ∃ status, (status = 400 ∨ status = 413 ∨ status = 415 ∨ status = 422) ∧
      reply = .unreadable status := by
  unfold decodeBody at h
  split at h
  · split at h
    · split at h <;> cases h
      · exact ⟨422, .inr (.inr (.inr rfl)), rfl⟩
      · exact ⟨400, .inl rfl, rfl⟩
    · cases h
      exact ⟨413, .inr (.inl rfl), rfl⟩
  · cases h
    exact ⟨415, .inr (.inr (.inl rfl)), rfl⟩

/-- The body of a request is said to be JSON. -/
def SaysJson (r : Request) : Prop :=
  ∃ type, r.contentType = some type ∧ MediaType.isJson type = true

variable {α : Type} {decode : Json.Decoder α} {a : α}

/-- A body that is too long is not read, whatever it holds. -/
theorem decodeBody_of_not_fits (hjson : r.SaysJson) (h : ¬ r.Fits) :
    r.decodeBody decode = .error (.unreadable 413) := by
  obtain ⟨type, htype, hjson⟩ := hjson
  simp [decodeBody, htype, hjson, h]

/-- A body that is said to be JSON and is not too long is decoded, whatever stands after the value
in it. -/
theorem decodeBody_of_fits (hjson : r.SaysJson) (hfits : r.Fits) :
    r.decodeBody decode =
      match decode Json.depthLimit (Json.document r.body.toList).root with
      | .ok a => .ok a
      | .error fault => .error (.unreadable fault.status) := by
  obtain ⟨type, htype, hjson⟩ := hjson
  simp only [decodeBody, htype, Option.map_some, Option.getD_some, hjson, hfits, if_true]
  cases decode Json.depthLimit (Json.document r.body.toList).root with
  | ok a => rfl
  | error fault => cases fault <;> rfl

theorem decodeBody_eq_ok_iff (hjson : r.SaysJson) :
    r.decodeBody decode = .ok a ↔
      r.Fits ∧ decode Json.depthLimit (Json.document r.body.toList).root = .ok a := by
  by_cases hfits : r.Fits
  · rw [decodeBody_of_fits hjson hfits]
    cases decode Json.depthLimit (Json.document r.body.toList).root with
    | ok b => simp [hfits]
    | error fault => simp
  · simp [decodeBody_of_not_fits hjson hfits, hfits]

end Request

namespace Resource

variable {ρ : Type} [Resource ρ] {now : Instant} {fresh : Uuid} {i : Identity} {r : Request}
  {store : Store ρ} {action : Entitlement} {reply : Reply}

theorem reply_of_keyOf {part : String} (h : keyOf part = .error reply) :
    reply = .unreadable 400 := by
  unfold keyOf at h
  split at h <;> cases h
  rfl

/-- The replies to a caller who asks for an action on records. -/
inductive Answers (ρ : Type) [Resource ρ] (now : Instant) (i : Identity) (action : Entitlement) :
    Reply → Prop
  | forbidden (denied : (i.evaluate (Store.entityName ρ) action).allowed = false) :
      Answers ρ now i action Refusal.forbiddenReply
  | unreadable {status : Nat} (h : status = 400 ∨ status = 413 ∨ status = 415 ∨ status = 422) :
      Answers ρ now i action (.unreadable status)
  | failed (report : ErrorReport) : Answers ρ now i action (report.reply now)
  | records (found : List ρ) : Answers ρ now i action (.success 200 (.array (found.map json)))
  | record {status : Nat} (h : status = 200 ∨ status = 201) (record : ρ) :
      Answers ρ now i action (.success status (json record))
  | removed : Answers ρ now i action (.bare 204)

/-- Only a denial is answered by the status 403. -/
theorem Answers.denied (h : Answers ρ now i action reply) (hstatus : reply.status = 403) :
    (i.evaluate (Store.entityName ρ) action).allowed = false := by
  cases h with
  | forbidden denied => exact denied
  | @unreadable status h =>
      have hsame : status = 403 := hstatus
      omega
  | failed report => exact absurd hstatus report.code.status_ne_forbidden
  | records found => cases hstatus
  | @record status h record =>
      have hsame : status = 403 := hstatus
      omega
  | removed => cases hstatus

theorem answers_of_parameter {name : String} (h : r.parameter name = .error reply) :
    Answers ρ now i action reply := by
  rw [Request.reply_of_parameter h]
  exact .unreadable (.inl rfl)

theorem answers_of_decodeBody {α : Type} {decode : Json.Decoder α}
    (h : r.decodeBody decode = .error reply) : Answers ρ now i action reply := by
  obtain ⟨status, hstatus, rfl⟩ := Request.reply_of_decodeBody h
  exact .unreadable hstatus

theorem answers_of_keyOf {part : String} (h : keyOf part = .error reply) :
    Answers ρ now i action reply := by
  rw [reply_of_keyOf h]
  exact .unreadable (.inl rfl)

theorem answers_settle {done : Reply} (hdone : Answers ρ now i action done)
    (result : Except StoreError (Store ρ)) :
    Answers ρ now i action (settle now store done result).value.reply := by
  cases result with
  | ok after => exact hdone
  | error e => exact .failed e.report

/-- What is allowed passes the gate. -/
theorem authorize_of_allowed {entity : String} {action : Entitlement}
    (allowed : (i.evaluate entity action).allowed = true) :
    (Gate.authorize i entity action).value = .ok (i.evaluate entity action) := by
  simp [Gate.authorize, Identity.authorize, allowed]

theorem authorize_of_denied {entity : String} {action : Entitlement}
    (denied : (i.evaluate entity action).allowed = false) :
    (Gate.authorize i entity action).value =
      .error (.forbidden (i.evaluate entity action)) := by
  simp [Gate.authorize, Identity.authorize, denied]

theorem answers_answer (q : FilterQuery) :
    Answers ρ now i .read (answer now i store q).value := by
  cases hallowed : (i.evaluate (Store.entityName ρ) .read).allowed with
  | false =>
      simp only [answer, Gate.query, Recorded.value_bind, authorize_of_denied hallowed]
      exact .forbidden hallowed
  | true =>
      simp only [answer, Gate.query, Recorded.value_bind, authorize_of_allowed hallowed,
        Schema.compileRecorded]
      cases (Entity.schema (ρ := ρ)).compileQuery q with
      | ok p => exact .records (store.find p)
      | error e => exact .failed (.ofFilterError e)

theorem answers_perform (op : Operation) :
    Answers ρ now i op.action (perform now fresh i r store op).value.reply := by
  cases op with
  | list =>
      simp only [perform, unchanged, list, Recorded.value_bind, Recorded.value_pure]
      cases hparam : r.parameter "search" with
      | ok term => exact answers_answer ⟨[], term⟩
      | error reply => exact answers_of_parameter hparam
  | query =>
      simp only [perform, unchanged, query, Recorded.value_bind, Recorded.value_pure]
      cases hbody : r.decodeBody FilterQuery.decode with
      | ok q => exact answers_answer q
      | error reply => exact answers_of_decodeBody hbody
  | create =>
      simp only [perform, create]
      cases hbody : r.decodeBody (decode fresh : Json.Decoder ρ) with
      | ok record => exact answers_settle (.record (.inr rfl) record) _
      | error reply => exact answers_of_decodeBody hbody
  | read part =>
      simp only [perform, unchanged, read, Recorded.value_bind, Recorded.value_pure]
      cases hkey : keyOf part with
      | error reply => exact answers_of_keyOf hkey
      | ok key =>
          cases hget : store.get key with
          | ok record => simpa only [hget] using .record (.inl rfl) record
          | error e => simpa only [hget] using .failed e.report
  | replace part =>
      simp only [perform, replace]
      cases hkey : keyOf part with
      | error reply => exact answers_of_keyOf hkey
      | ok key =>
          cases hbody : r.decodeBody (decode fresh : Json.Decoder ρ) with
          | error reply => exact answers_of_decodeBody hbody
          | ok record =>
              by_cases hsame : Entity.key record = key
              · simpa [hbody, hsame] using
                  answers_settle (.record (.inl rfl) record) (store.update record)
              · simpa [hbody, hsame] using
                  .failed (.validation "Record key does not match the request path")
  | remove part =>
      simp only [perform, remove]
      cases hkey : keyOf part with
      | error reply => exact answers_of_keyOf hkey
      | ok key => exact answers_settle .removed _

theorem guarded_of_allowed {op : Operation}
    (allowed : (i.evaluate (Store.entityName ρ) op.action).allowed = true) :
    (guarded now fresh i r store op).value = (perform now fresh i r store op).value := by
  simp only [guarded, Recorded.value_bind, authorize_of_allowed allowed]

theorem guarded_of_denied {op : Operation}
    (denied : (i.evaluate (Store.entityName ρ) op.action).allowed = false) :
    (guarded now fresh i r store op).value = ⟨Refusal.forbiddenReply, store⟩ := by
  simp only [guarded, Recorded.value_bind, authorize_of_denied denied, Recorded.value_pure]

theorem answers_guarded (now : Instant) (fresh : Uuid) (i : Identity) (r : Request)
    (store : Store ρ) (op : Operation) :
    Answers ρ now i op.action (guarded now fresh i r store op).value.reply := by
  cases hallowed : (i.evaluate (Store.entityName ρ) op.action).allowed with
  | false =>
      rw [guarded_of_denied hallowed]
      exact .forbidden hallowed
  | true =>
      rw [guarded_of_allowed hallowed]
      exact answers_perform op

end Resource

end RecordGate
