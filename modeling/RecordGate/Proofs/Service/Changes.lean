import RecordGate.Proofs.Service.Refusal
import RecordGate.Proofs.Store.Keys

/-!
# What requests change

A request to the records of an entity leaves every store as it was, or it succeeds and changes one
record of that entity: a new one comes last, one is exchanged in its place, or one is taken out. This
holds after any requests before it, since none of them gives a key to two records.
-/

namespace RecordGate

theorem ErrorCode.le_status (code : ErrorCode) : 400 ≤ code.status := by cases code <;> decide

theorem AuthFailure.le_status (f : AuthFailure) : 400 ≤ f.status := by
  cases f <;> simp [AuthFailure.status]

namespace Resource

variable {ρ : Type} [Resource ρ] {now : Instant} {fresh : Uuid} {r : Request} {store : Store ρ}
  {op : Operation} {reply : Reply} {before after : List ρ}

/-- How an operation that succeeds changes the records, and the reply that tells of it. -/
inductive Changes (r : Request) (fresh : Uuid) (before : List ρ) :
    Operation → Reply → List ρ → Prop
  | created {record : ρ} (body : r.decodeBody (decode fresh) = .ok record)
      (isNew : ∀ x ∈ before, Entity.key x ≠ Entity.key record) :
      Changes r fresh before .create (.success 201 (json record)) (before ++ [record])
  | replaced {part : String} {key : Uuid} {front back : List ρ} {old record : ρ}
      (named : keyOf part = .ok key) (body : r.decodeBody (decode fresh) = .ok record)
      (same : Entity.key record = key) (splits : Store.Splits key before front old back) :
      Changes r fresh before (.replace part) (.success 200 (json record))
        (front ++ record :: back)
  | removed {part : String} {key : Uuid} {front back : List ρ} {old : ρ}
      (named : keyOf part = .ok key) (splits : Store.Splits key before front old back) :
      Changes r fresh before (.remove part) (.bare 204) (front ++ back)

/-- A turn that changes nothing, with a reply that says that it failed. -/
structure Fails (store : Store ρ) (turn : Turn ρ) : Prop where
  store_eq : turn.store = store
  le_status : 400 ≤ turn.reply.status

theorem Changes.keysDistinct (h : Changes r fresh before op reply after)
    (distinct : Store.KeysDistinct ⟨before⟩) : Store.KeysDistinct ⟨after⟩ := by
  have hbefore : (before.map Entity.key).Nodup := distinct
  change (after.map Entity.key).Nodup
  cases h with
  | @created record body isNew =>
      rw [List.map_append, List.map_singleton, List.nodup_append]
      refine ⟨hbefore, List.nodup_singleton _, ?_⟩
      intro k hk l hl heq
      obtain ⟨x, hx, rfl⟩ := List.mem_map.mp hk
      exact isNew x hx (heq.trans (List.mem_singleton.mp hl))
  | replaced named body same splits => rwa [splits.keys_replace same]
  | removed named splits =>
      rw [splits.keys_remove]
      exact hbefore.erase _

theorem Changes.action_ne (h : Changes r fresh before op reply after) : op.action ≠ .read := by
  cases h <;> simp [Operation.action]

theorem Changes.status_lt (h : Changes r fresh before op reply after) : reply.status < 400 := by
  cases h <;> simp [Reply.success, Reply.bare]

omit [Resource ρ] in
theorem fails_pure (h : 400 ≤ reply.status) :
    Fails store (pure ⟨reply, store⟩ : Recorded (Turn ρ)).value := ⟨rfl, h⟩

omit [Resource ρ] in
theorem fails_settle {done : Reply} {e : StoreError} :
    Fails store (settle now store done (.error e)).value := ⟨rfl, e.report.code.le_status⟩

theorem le_status_of_keyOf {part : String} (h : keyOf part = .error reply) :
    400 ≤ reply.status := by
  rw [reply_of_keyOf h]
  exact Nat.le_refl 400

theorem le_status_of_decodeBody {α : Type} {decode : Json.Decoder α}
    (h : r.decodeBody decode = .error reply) : 400 ≤ reply.status := by
  obtain ⟨status, hstatus, rfl⟩ := Request.reply_of_decodeBody h
  change 400 ≤ status
  omega

theorem create_fails_or_changes :
    Fails store (create now fresh r store).value ∨
      Changes r fresh store.records .create (create now fresh r store).value.reply
        (create now fresh r store).value.store.records := by
  unfold create
  cases hbody : r.decodeBody (decode fresh : Json.Decoder ρ) with
  | error reply => exact .inl (fails_pure (le_status_of_decodeBody hbody))
  | ok record =>
      by_cases hmem : Entity.key record ∈ store.keys
      · simp only [Store.insert_of_mem hmem]
        exact .inl fails_settle
      · simp only [Store.insert_of_not_mem hmem]
        exact .inr (.created hbody (Store.key_ne_of_not_mem hmem))

theorem replace_fails_or_changes (distinct : store.KeysDistinct) (part : String) :
    Fails store (replace now fresh part r store).value ∨
      Changes r fresh store.records (.replace part) (replace now fresh part r store).value.reply
        (replace now fresh part r store).value.store.records := by
  unfold replace
  cases hkey : keyOf part with
  | error reply => exact .inl (fails_pure (le_status_of_keyOf hkey))
  | ok key =>
      cases hbody : r.decodeBody (decode fresh : Json.Decoder ρ) with
      | error reply => exact .inl (fails_pure (le_status_of_decodeBody hbody))
      | ok record =>
          by_cases hsame : Entity.key record = key
          · simp only [beq_iff_eq, hsame, if_true]
            by_cases hmem : Entity.key record ∈ store.keys
            · obtain ⟨front, old, back, hsplits⟩ := Store.exists_splits distinct hmem
              simp only [hsplits.update_eq rfl]
              exact .inr (.replaced hkey hbody hsame (hsame ▸ hsplits))
            · simp only [Store.update_of_not_mem hmem]
              exact .inl fails_settle
          · simp only [beq_iff_eq, hsame, if_false]
            exact .inl ⟨rfl, ErrorCode.validationError.le_status⟩

theorem remove_fails_or_changes (distinct : store.KeysDistinct) (part : String) :
    Fails store (remove now part store).value ∨
      Changes r fresh store.records (.remove part) (remove now part store).value.reply
        (remove now part store).value.store.records := by
  unfold remove
  cases hkey : keyOf part with
  | error reply => exact .inl (fails_pure (le_status_of_keyOf hkey))
  | ok key =>
      by_cases hmem : key ∈ store.keys
      · obtain ⟨front, old, back, hsplits⟩ := Store.exists_splits distinct hmem
        simp only [hsplits.delete_eq]
        exact .inr (.removed hkey hsplits)
      · simp only [Store.delete_of_not_mem hmem]
        exact .inl fails_settle

/-- What an operation does: it only reads, it fails, or it changes one record. -/
theorem guarded_cases (now : Instant) (fresh : Uuid) (i : Identity) (r : Request)
    (distinct : store.KeysDistinct) (op : Operation) :
    op.action = .read ∧ (guarded now fresh i r store op).value.store = store ∨
      Fails store (guarded now fresh i r store op).value ∨
      Changes r fresh store.records op (guarded now fresh i r store op).value.reply
        (guarded now fresh i r store op).value.store.records := by
  cases hallowed : (i.evaluate (Store.entityName ρ) op.action).allowed with
  | false =>
      rw [guarded_of_denied hallowed]
      exact .inr (.inl ⟨rfl, (by decide : 400 ≤ Refusal.forbiddenReply.status)⟩)
  | true =>
      rw [guarded_of_allowed hallowed]
      cases op with
      | list => exact .inl ⟨rfl, rfl⟩
      | query => exact .inl ⟨rfl, rfl⟩
      | create => exact .inr create_fails_or_changes
      | read part => exact .inl ⟨rfl, rfl⟩
      | replace part => exact .inr (replace_fails_or_changes distinct part)
      | remove part => exact .inr (remove_fails_or_changes distinct part)

end Resource

/-- The type of the records of an entity. -/
def Shelf.Record : Shelf → Type
  | .books => Book
  | .authors => Author

instance (shelf : Shelf) : Resource shelf.Record :=
  match shelf with
  | .books => inferInstanceAs (Resource Book)
  | .authors => inferInstanceAs (Resource Author)

/-- What a route leads to among the records of the entities. -/
def Route.operation? : Route → Option (Shelf × Operation)
  | .operate shelf op => some (shelf, op)
  | _ => none

/-- The entity and the operation that a request is led to. -/
def Request.operation? (r : Request) : Option (Shelf × Operation) :=
  ((Place.ofPath? r.path).bind (Place.route? r.served)).bind Route.operation?

theorem Request.operation?_eq_some_iff {r : Request} {shelf : Shelf} {op : Operation} :
    r.operation? = some (shelf, op) ↔
      ∃ place, Place.ofPath? r.path = some place ∧
        place.route? r.served = some (.operate shelf op) := by
  have hroute (route : Route) :
      route.operation? = some (shelf, op) ↔ route = .operate shelf op := by
    cases route <;> simp [Route.operation?]
  simp only [operation?, Option.bind_eq_some_iff, hroute]
  constructor
  · intro h
    obtain ⟨route, ⟨place, hplace, hplaceRoute⟩, rfl⟩ := h
    exact ⟨place, hplace, hplaceRoute⟩
  · intro h
    obtain ⟨place, hplace, hplaceRoute⟩ := h
    exact ⟨_, ⟨place, hplace, hplaceRoute⟩, rfl⟩

namespace Place

/-- A request for everything, or one to the path for queries, is led to no operation but reading. -/
theorem action_of_route? {place : Place} {method : Method} {shelf : Shelf} {op : Operation}
    (h : place.route? method = some (.operate shelf op))
    (hreads : method = .get ∨ ∃ other, place = .queries other) : op.action = .read := by
  rcases hreads with rfl | ⟨other, rfl⟩
  · cases place <;> simp [route?] at h <;> rw [← h.2] <;> rfl
  · simp only [route?, beq_iff_eq, Option.ite_none_right_eq_some, Option.some.injEq,
      Route.operate.injEq] at h
    rw [← h.2.2]
    rfl

theorem route?_options (place : Place) : place.route? .options = none := by cases place <;> rfl

end Place

namespace App

variable {app : App} {r : Request} {shelf : Shelf}

/-- The records of an entity. -/
def store (app : App) : (shelf : Shelf) → Store shelf.Record
  | .books => app.books
  | .authors => app.authors

/-- The service with other records of an entity. -/
def withStore (app : App) : (shelf : Shelf) → Store shelf.Record → App
  | .books, s => { app with books := s }
  | .authors, s => { app with authors := s }

/-- No two records of an entity have one key. -/
def KeysDistinct (app : App) : Prop := ∀ shelf, (app.store shelf).KeysDistinct

theorem withStore_store (app : App) (shelf : Shelf) :
    app.withStore shelf (app.store shelf) = app := by
  cases shelf <;> rfl

theorem keysDistinct_withStore {s : Store shelf.Record} (distinct : app.KeysDistinct)
    (h : s.KeysDistinct) : (app.withStore shelf s).KeysDistinct := by
  intro other
  cases shelf with
  | books =>
      cases other with
      | books => exact h
      | authors => exact distinct .authors
  | authors =>
      cases other with
      | books => exact distinct .books
      | authors => exact h

theorem operate_eq (app : App) (now : Instant) (supply : Supply) (caller : Identity) (r : Request)
    (shelf : Shelf) (op : Operation) :
    (app.operate now supply caller r shelf op).value =
      ⟨(Resource.guarded now supply.take.1 caller r (app.store shelf) op).value.reply,
        app.withStore shelf
          (Resource.guarded now supply.take.1 caller r (app.store shelf) op).value.store,
        supply.take.2⟩ := by
  cases shelf <;> rfl

theorem app_trimHead (r : Request) (o : Outcome) : (trimHead r o).app = o.app := by
  unfold trimHead
  split <;> rfl

theorem status_trimHead (r : Request) (o : Outcome) :
    (trimHead r o).reply.status = o.reply.status := by
  unfold trimHead
  split <;> rfl

theorem trimHead_of_ne (h : r.method ≠ .head) (o : Outcome) : trimHead r o = o := by
  simp [trimHead, h]

/-- A caller who is admitted is led to no operation and changes nothing, or gets an operation done. -/
theorem answer_cases (app : App) (now : Instant) (supply : Supply) (caller : Identity)
    (r : Request) :
    r.operation? = none ∧ (app.answer now supply caller r).value.app = app ∨
      ∃ shelf op, r.operation? = some (shelf, op) ∧
        app.answer now supply caller r = app.operate now supply caller r shelf op := by
  unfold answer Request.operation?
  cases Place.ofPath? r.path with
  | none => exact .inl ⟨rfl, rfl⟩
  | some place =>
      simp only [Option.bind_some]
      cases place.route? r.served with
      | none => exact .inl ⟨rfl, rfl⟩
      | some route =>
          cases route with
          | operate shelf op => exact .inr ⟨shelf, op, rfl, rfl⟩
          | _ => exact .inl ⟨rfl, rfl⟩

theorem operation?_of_options (h : r.method = .options) : r.operation? = none := by
  have hserved : r.served = .options := by simp [Request.served, h]
  unfold Request.operation?
  rw [hserved]
  cases Place.ofPath? r.path with
  | none => rfl
  | some place =>
      rw [Option.bind_some, place.route?_options]
      rfl

/-- What follows from a request: it is led to no operation and changes nothing, nobody is admitted
with it, or an operation is done for someone. -/
theorem handle_cases (app : App) (now : Instant) (supply : Supply) (r : Request) :
    r.operation? = none ∧ (app.handle now supply r).value.app = app ∨
      400 ≤ (app.handle now supply r).value.reply.status ∧
        (app.handle now supply r).value.app = app ∨
      ∃ caller shelf op, r.operation? = some (shelf, op) ∧
        (app.handle now supply r).value =
          trimHead r (app.operate now supply caller r shelf op).value := by
  unfold handle
  split
  · rename_i hoptions
    exact .inl ⟨operation?_of_options (by simpa using hoptions), rfl⟩
  · cases hcaller : app.callerOf now r with
    | error f =>
        refine .inr (.inl ⟨?_, app_trimHead r _⟩)
        have hstatus := status_trimHead r ⟨f.reply, app, supply⟩
        exact Nat.le_trans f.le_status (Nat.le_of_eq hstatus.symm)
    | ok caller =>
        simp only [Recorded.value_bind, Recorded.value_pure]
        obtain ⟨hnone, happ⟩ | ⟨shelf, op, hop, hanswer⟩ := app.answer_cases now supply caller r
        · exact .inl ⟨hnone, (app_trimHead r _).trans happ⟩
        · exact .inr (.inr ⟨caller, shelf, op, hop, by rw [hanswer]⟩)

end App

/-- A request, and when it comes in. -/
structure Arrival where
  now : Instant
  request : Request

/-- The service between two requests, with its source of identifiers. -/
structure Moment where
  app : App
  supply : Supply

namespace Moment

variable {m : Moment} {a : Arrival} {shelf : Shelf} {op : Operation}

def outcome (m : Moment) (a : Arrival) : Outcome :=
  (m.app.handle a.now m.supply a.request).value

/-- The service after requests that have come in one after another. -/
def after (m : Moment) (arrivals : List Arrival) : Moment :=
  arrivals.foldl (fun m a => ⟨(m.outcome a).app, (m.outcome a).supply⟩) m

/-- A request has one record of an entity changed by an operation, and nothing else. -/
def Changes (m : Moment) (a : Arrival) (shelf : Shelf) (op : Operation) : Prop :=
  ∃ records : List shelf.Record,
    Resource.Changes a.request m.supply.take.1 (m.app.store shelf).records op
        (m.outcome a).reply records ∧
      (m.outcome a).app = m.app.withStore shelf ⟨records⟩

/-- A request changes one record by the operation that it is led to, or it changes nothing: it fails,
or is led to no operation, or only to reading. -/
theorem changes_or_unchanged (distinct : m.app.KeysDistinct) (a : Arrival) :
    (∃ shelf op, a.request.operation? = some (shelf, op) ∧ m.Changes a shelf op) ∨
      (m.outcome a).app = m.app ∧
        (400 ≤ (m.outcome a).reply.status ∨
          ∀ shelf op, a.request.operation? = some (shelf, op) → op.action = .read) := by
  obtain ⟨hnone, happ⟩ | ⟨hstatus, happ⟩ | ⟨caller, shelf, op, hop, houtcome⟩ :=
    m.app.handle_cases a.now m.supply a.request
  · refine .inr ⟨happ, .inr fun shelf op hop => ?_⟩
    rw [hnone] at hop
    cases hop
  · exact .inr ⟨happ, .inl hstatus⟩
  · have happ : (m.outcome a).app = m.app.withStore shelf (Resource.guarded a.now m.supply.take.1
        caller a.request (m.app.store shelf) op).value.store := by
      rw [outcome, houtcome, App.app_trimHead, App.operate_eq]
    obtain ⟨hreads, hstore⟩ | hfails | hchanges :=
      Resource.guarded_cases a.now m.supply.take.1 caller a.request (distinct shelf) op
    · refine .inr ⟨by rw [happ, hstore, App.withStore_store], .inr fun other op' hop' => ?_⟩
      rw [hop, Option.some.injEq, Prod.mk.injEq] at hop'
      rwa [← hop'.2]
    · refine .inr ⟨by rw [happ, hfails.store_eq, App.withStore_store], .inl ?_⟩
      rw [outcome, houtcome, App.status_trimHead, App.operate_eq]
      exact hfails.le_status
    · -- A request for the head alone is led to what one for everything is led to, which only reads.
      have hhead : a.request.method ≠ .head := by
        intro hhead
        obtain ⟨place, -, hroute⟩ := Request.operation?_eq_some_iff.mp hop
        have hserved : a.request.served = .get := by simp [Request.served, hhead]
        rw [hserved] at hroute
        exact hchanges.action_ne (Place.action_of_route? hroute (.inl rfl))
      refine .inl ⟨shelf, op, hop, _, ?_, happ⟩
      rw [outcome, houtcome, App.trimHead_of_ne hhead, App.operate_eq]
      exact hchanges

theorem keysDistinct_outcome (distinct : m.app.KeysDistinct) (a : Arrival) :
    (m.outcome a).app.KeysDistinct := by
  obtain ⟨shelf, op, -, records, hchanges, happ⟩ | ⟨happ, -⟩ := changes_or_unchanged distinct a
  · rw [happ]
    exact App.keysDistinct_withStore distinct (hchanges.keysDistinct (distinct shelf))
  · rwa [happ]

theorem keysDistinct_after (distinct : m.app.KeysDistinct) (arrivals : List Arrival) :
    (m.after arrivals).app.KeysDistinct := by
  induction arrivals generalizing m with
  | nil => exact distinct
  | cons a arrivals ih => exact ih (m := ⟨_, _⟩) (keysDistinct_outcome distinct a)

/-- What is answered by an error changes nothing. -/
theorem app_outcome_of_le_status (distinct : m.app.KeysDistinct)
    (h : 400 ≤ (m.outcome a).reply.status) : (m.outcome a).app = m.app := by
  obtain ⟨shelf, op, -, records, hchanges, -⟩ | ⟨happ, -⟩ := changes_or_unchanged distinct a
  · have := hchanges.status_lt
    omega
  · exact happ

/-- What is led to no operation but reading changes nothing. -/
theorem app_outcome_of_reads (distinct : m.app.KeysDistinct)
    (h : ∀ shelf op, a.request.operation? = some (shelf, op) → op.action = .read) :
    (m.outcome a).app = m.app := by
  obtain ⟨shelf, op, hop, records, hchanges, -⟩ | ⟨happ, -⟩ := changes_or_unchanged distinct a
  · exact absurd (h shelf op hop) hchanges.action_ne
  · exact happ

/-- What is led to another operation changes one record by it, unless it is answered by an error. -/
theorem changes_of_operation? (distinct : m.app.KeysDistinct)
    (hop : a.request.operation? = some (shelf, op)) (haction : op.action ≠ .read)
    (hstatus : (m.outcome a).reply.status < 400) : m.Changes a shelf op := by
  obtain ⟨shelf', op', hop', hchanges⟩ | ⟨-, hle | hreads⟩ := changes_or_unchanged distinct a
  · rw [hop, Option.some.injEq, Prod.mk.injEq] at hop'
    obtain ⟨rfl, rfl⟩ := hop'
    exact hchanges
  · omega
  · exact absurd (hreads shelf op hop) haction

theorem operation?_of_route {method : Method} {place : Place}
    (hplace : Place.ofPath? a.request.path = some place) (hmethod : a.request.method = method)
    (hhead : method ≠ .head) (hroute : place.route? method = some (.operate shelf op)) :
    a.request.operation? = some (shelf, op) := by
  have hserved : a.request.served = method := by simp [Request.served, hmethod, hhead]
  exact Request.operation?_eq_some_iff.mpr ⟨place, hplace, by rw [hserved, hroute]⟩

/-- Whatever requests have come in before, a request that is answered by an error changes nothing, and
neither does one for everything or one with a query. Any other request on a route of an entity has
one record of this entity changed: the one that is sent comes last, or takes the place of the one
that the path names, or this one is taken out. No two records ever have one key. -/
theorem outcome_after_changes_one_record (start : Moment) (distinct : start.app.KeysDistinct)
    (earlier : List Arrival) (a : Arrival) {m : Moment} (hm : start.after earlier = m) :
    (400 ≤ (m.outcome a).reply.status → (m.outcome a).app = m.app) ∧
      (a.request.method = .get → (m.outcome a).app = m.app) ∧
      (∀ shelf : Shelf, a.request.path = shelf.base ++ "/query" → (m.outcome a).app = m.app) ∧
      ((m.outcome a).reply.status < 400 →
        (∀ shelf : Shelf, a.request.method = .post → a.request.path = shelf.base →
          m.Changes a shelf .create) ∧
        (∀ (shelf : Shelf) (part : String), IsRecordPart part →
          a.request.path = shelf.base ++ "/" ++ part →
            (a.request.method = .put → m.Changes a shelf (.replace part)) ∧
            (a.request.method = .delete → m.Changes a shelf (.remove part)))) ∧
      (m.outcome a).app.KeysDistinct := by
  have hdistinct : m.app.KeysDistinct := hm ▸ keysDistinct_after distinct earlier
  refine ⟨app_outcome_of_le_status hdistinct, ?_, ?_, ?_, keysDistinct_outcome hdistinct a⟩
  · intro hget
    refine app_outcome_of_reads hdistinct fun shelf op hop => ?_
    obtain ⟨place, -, hroute⟩ := Request.operation?_eq_some_iff.mp hop
    exact Place.action_of_route? hroute (.inl (by simp [Request.served, hget]))
  · intro shelf hpath
    refine app_outcome_of_reads hdistinct fun shelf' op hop => ?_
    obtain ⟨place, hplace, hroute⟩ := Request.operation?_eq_some_iff.mp hop
    rw [hpath, Place.ofPath?_query, Option.some.injEq] at hplace
    exact Place.action_of_route? hroute (.inr ⟨shelf, hplace.symm⟩)
  · intro hstatus
    constructor
    · intro shelf hmethod hpath
      have hplace : Place.ofPath? a.request.path = some (.records shelf) :=
        hpath ▸ Place.ofPath?_base shelf
      have hop := operation?_of_route hplace hmethod (by decide) rfl
      exact changes_of_operation? hdistinct hop (by decide) hstatus
    · intro shelf part hpart hpath
      have hplace : Place.ofPath? a.request.path = some (.record shelf part) :=
        hpath ▸ Place.ofPath?_record hpart
      constructor
      · intro hmethod
        have hop := operation?_of_route hplace hmethod (by decide) rfl
        exact changes_of_operation? hdistinct hop (by simp [Operation.action]) hstatus
      · intro hmethod
        have hop := operation?_of_route hplace hmethod (by decide) rfl
        exact changes_of_operation? hdistinct hop (by simp [Operation.action]) hstatus

/-- A reading room with two authors, whose records are open to everyone by path. -/
def readingRoom : Moment where
  app :=
    { signer := ⟨"lending desk", by decide, none, ⟨3600, 0⟩, 30⟩, publicPaths := ["/api/*"],
      directory := .empty, metrics := none, books := ⟨[]⟩,
      authors := ⟨[{ id := .ofNat 1 }, { id := .ofNat 2 }]⟩ }
  supply := ⟨.ofNat, 7⟩

/-- Anyone's request at the start of 2024. -/
def visit (method : Method) (path : String) : Arrival :=
  ⟨⟨⟨2024, 1, 1⟩, 0, 0⟩, ⟨method, path, "", none, none, ""⟩⟩

/-- After a look at the authors, a visitor cannot take one of them out. -/
theorem outcome_after_visit :
    readingRoom.app.KeysDistinct ∧
      400 ≤ ((readingRoom.after [visit .get "/api/authors"]).outcome (visit .delete
        "/api/authors/00000000-0000-0000-0000-000000000001")).reply.status ∧
      ((readingRoom.after [visit .get "/api/authors"]).outcome (visit .delete
        "/api/authors/00000000-0000-0000-0000-000000000001")).app =
        (readingRoom.after [visit .get "/api/authors"]).app := by
  have distinct : readingRoom.app.KeysDistinct := by
    intro shelf
    unfold Store.KeysDistinct
    cases shelf <;> decide
  have hstatus : 400 ≤ ((readingRoom.after [visit .get "/api/authors"]).outcome (visit .delete
      "/api/authors/00000000-0000-0000-0000-000000000001")).reply.status := by decide
  obtain ⟨hfails, -⟩ :=
    outcome_after_changes_one_record readingRoom distinct [visit .get "/api/authors"] (visit .delete
      "/api/authors/00000000-0000-0000-0000-000000000001") rfl
  exact ⟨distinct, hstatus, hfails hstatus⟩

end Moment

end RecordGate
