import RecordGate.Proofs.Auth.Header
import RecordGate.Proofs.Filter.QueryJson
import RecordGate.Proofs.Http.Escapes
import RecordGate.Proofs.Service.Changes

/-!
# Queries and searches

A query in the body of a request is answered with the records that it selects, in the order in which
they are kept, or with the fault that it has; a body that is too long is not read. A search in the
query string is answered like a query for the same term, however the term is written.
-/

namespace RecordGate

namespace Request

/-- A request sends a text of JSON to the queries for the records of an entity. -/
structure PostsQuery (r : Request) (shelf : Shelf) : Prop where
  method : r.method = .post
  path : r.path = shelf.base ++ "/query"
  json : r.SaysJson

/-- A request sends a query for the records of an entity in its body. -/
structure Queries (r : Request) (shelf : Shelf) (q : FilterQuery) : Prop where
  method : r.method = .post
  path : r.path = shelf.base ++ "/query"
  body : r.decodeBody FilterQuery.decode = .ok q

/-- A request searches the records of an entity for a text in its query string. -/
structure Searches (r : Request) (shelf : Shelf) (s : String) : Prop where
  method : r.method = .get
  path : r.path = shelf.base
  query : ∃ t, r.query = "search=" ++ String.ofList t ∧ Percent.Writes (Text.bytes s) t

variable {r : Request} {shelf : Shelf}

/-- A text that is not too long sends the query that it writes. -/
theorem PostsQuery.queries (h : r.PostsQuery shelf) (hfits : r.Fits) {q : FilterQuery}
    (hwrites : q.Writes r.body) : r.Queries shelf q :=
  ⟨h.method, h.path,
    (decodeBody_eq_ok_iff h.json).mpr ⟨hfits, FilterQuery.root_of_writes hwrites⟩⟩

/-- A text can be searched for with an escape for each of its bytes. -/
theorem searches_of_escaped {s : String} (hmethod : r.method = .get) (hpath : r.path = shelf.base)
    (hquery : r.query = "search=" ++ String.ofList (Percent.escaped (Text.bytes s))) :
    r.Searches shelf s :=
  ⟨hmethod, hpath, _, hquery, Percent.writes_escaped _⟩

theorem Searches.parameter_eq {s : String} (h : r.Searches shelf s) :
    r.parameter "search" = .ok (some s) := by
  obtain ⟨t, hquery, hwrites⟩ := h.query
  exact parameter_of_writes hquery (by simp) hwrites

end Request

/-- What stands for a code in a reply: the member `code` of its error. -/
def Reply.errorCode? (reply : Reply) : Option Json :=
  match reply.content with
  | .json value => (value.member? "error").bind (Json.member? "code")
  | _ => none

theorem ErrorReport.errorCode?_reply (report : ErrorReport) (now : Instant) :
    (report.reply now).errorCode? = some report.code.json := by
  cases h : report.details.isEmpty <;> simp [Reply.errorCode?, reply, body, h, Json.member?]

theorem ErrorReport.status_ofFilterError (e : FilterError) : (ofFilterError e).status = 400 := by
  cases e <;> rfl

namespace Schema

/-- A search without criteria always has a predicate. -/
theorem exists_compileQuery_search {ρ : Type} (schema : Schema ρ) (term : Option String) :
    ∃ p, schema.compileQuery ⟨[], term⟩ = .ok p := ⟨_, rfl⟩

end Schema

namespace Resource

variable {ρ : Type} [Resource ρ] {now : Instant} {fresh : Uuid} {i : Identity} {r : Request}
  {store : Store ρ} {q : FilterQuery}

theorem answer_of_compiles {p : Predicate}
    (allowed : (i.evaluate (Store.entityName ρ) .read).allowed = true)
    (h : (Entity.schema (ρ := ρ)).compileQuery q = .ok p) :
    (answer now i store q).value =
      .success 200 (.array ((store.records.filter (p.holds Entity.schema)).map json)) := by
  simp only [answer, Gate.query, Recorded.value_bind, authorize_of_allowed allowed,
    Schema.compileRecorded, h]
  rfl

theorem answer_of_fault {e : FilterError}
    (allowed : (i.evaluate (Store.entityName ρ) .read).allowed = true)
    (h : (Entity.schema (ρ := ρ)).compileQuery q = .error e) :
    (answer now i store q).value = (ErrorReport.ofFilterError e).reply now := by
  simp only [answer, Gate.query, Recorded.value_bind, authorize_of_allowed allowed,
    Schema.compileRecorded, h]
  rfl

/-- A query that is allowed is answered, and changes nothing. -/
theorem guarded_query (allowed : (i.evaluate (Store.entityName ρ) .read).allowed = true)
    (hbody : r.decodeBody FilterQuery.decode = .ok q) :
    (guarded now fresh i r store .query).value = ⟨(answer now i store q).value, store⟩ := by
  rw [guarded_of_allowed allowed]
  simp [perform, unchanged, query, hbody]

/-- A query that is allowed and cannot be read is answered by what is wrong with it, and changes
nothing. -/
theorem guarded_query_of_error {reply : Reply}
    (allowed : (i.evaluate (Store.entityName ρ) .read).allowed = true)
    (hbody : r.decodeBody FilterQuery.decode = .error reply) :
    (guarded now fresh i r store .query).value = ⟨reply, store⟩ := by
  rw [guarded_of_allowed allowed]
  simp [perform, unchanged, query, hbody]

/-- A search that is allowed is answered like a query without criteria, and changes nothing. -/
theorem guarded_list {term : Option String}
    (allowed : (i.evaluate (Store.entityName ρ) .read).allowed = true)
    (hterm : r.parameter "search" = .ok term) :
    (guarded now fresh i r store .list).value = ⟨(answer now i store ⟨[], term⟩).value, store⟩ := by
  rw [guarded_of_allowed allowed]
  simp [perform, unchanged, list, hterm]

end Resource

theorem Shelf.entityName_record (shelf : Shelf) :
    Store.entityName shelf.Record = shelf.entityName := by
  cases shelf <;> rfl

/-- An operation is done for whoever is admitted with a request that is led to it. -/
theorem App.handle_eq_operate {app : App} {now : Instant} {supply : Supply} {r : Request}
    {caller : Identity} {shelf : Shelf} {op : Operation} (hcaller : app.Admits now r caller)
    (hop : r.operation? = some (shelf, op)) :
    app.handle now supply r = do
      let o ← app.operate now supply caller r shelf op
      return trimHead r o := by
  have hoptions : r.method ≠ .options := by
    intro hoptions
    rw [operation?_of_options hoptions] at hop
    cases hop
  obtain ⟨hnone, -⟩ | ⟨shelf', op', hop', hanswer⟩ := app.answer_cases now supply caller r
  · rw [hop] at hnone
    cases hnone
  · rw [hop, Option.some.injEq, Prod.mk.injEq] at hop'
    obtain ⟨rfl, rfl⟩ := hop'
    simp [handle, hoptions, callerOf_eq_ok_iff.mpr hcaller, hanswer]

theorem App.handle_of_operation? {app : App} {now : Instant} {supply : Supply} {r : Request}
    {caller : Identity} {shelf : Shelf} {op : Operation} (hcaller : app.Admits now r caller)
    (hop : r.operation? = some (shelf, op)) (hhead : r.method ≠ .head) :
    (app.handle now supply r).value = (app.operate now supply caller r shelf op).value := by
  rw [handle_eq_operate hcaller hop]
  exact trimHead_of_ne hhead _

namespace Moment

variable {m : Moment} {a b : Arrival} {shelf : Shelf}

/-- Someone who may read the records of an entity is admitted with a request. -/
def MayRead (m : Moment) (a : Arrival) (shelf : Shelf) : Prop :=
  ∃ i, m.app.Admits a.now a.request i ∧ (i.evaluate shelf.entityName .read).allowed = true

/-- A request is answered by the status of what is wrong with its body. Nothing is changed. -/
def Declines (m : Moment) (a : Arrival) (status : Nat) : Prop :=
  (m.outcome a).reply = .unreadable status ∧ (m.outcome a).app = m.app

theorem MayRead.admits (h : m.MayRead a shelf) :
    ∃ i : Identity, m.app.Admits a.now a.request i ∧
      (i.evaluate (Store.entityName shelf.Record) .read).allowed = true := by
  rw [shelf.entityName_record]
  exact h

/-- What a request that is led to an operation has done with the records of an entity. -/
theorem outcome_of_operation? {i : Identity} {op : Operation} {reply : Reply}
    (hadmits : m.app.Admits a.now a.request i)
    (hop : a.request.operation? = some (shelf, op)) (hhead : a.request.method ≠ .head)
    (hturn : (Resource.guarded a.now m.supply.take.1 i a.request (m.app.store shelf) op).value =
      ⟨reply, m.app.store shelf⟩) :
    (m.outcome a).reply = reply ∧ (m.outcome a).app = m.app := by
  rw [outcome, App.handle_of_operation? hadmits hop hhead, App.operate_eq, hturn]
  exact ⟨rfl, App.withStore_store m.app shelf⟩

theorem operation?_of_query (hmethod : a.request.method = .post)
    (hpath : a.request.path = shelf.base ++ "/query") :
    a.request.operation? = some (shelf, .query) := by
  have hplace : Place.ofPath? a.request.path = some (.queries shelf) :=
    hpath ▸ Place.ofPath?_query shelf
  exact operation?_of_route hplace hmethod (by decide) rfl

theorem outcome_of_queries {q : FilterQuery} (hquery : a.request.Queries shelf q)
    (hread : m.MayRead a shelf) :
    ∃ i : Identity, (i.evaluate (Store.entityName shelf.Record) .read).allowed = true ∧
      (m.outcome a).reply = (Resource.answer a.now i (m.app.store shelf) q).value ∧
      (m.outcome a).app = m.app := by
  obtain ⟨i, hadmits, hallowed⟩ := hread.admits
  have hop := operation?_of_query hquery.method hquery.path
  exact ⟨i, hallowed, outcome_of_operation? hadmits hop (by simp [hquery.method])
    (Resource.guarded_query hallowed hquery.body)⟩

theorem outcome_of_searches {s : String} (hsearch : a.request.Searches shelf s)
    (hread : m.MayRead a shelf) :
    ∃ i : Identity, (i.evaluate (Store.entityName shelf.Record) .read).allowed = true ∧
      (m.outcome a).reply = (Resource.answer a.now i (m.app.store shelf) ⟨[], some s⟩).value ∧
      (m.outcome a).app = m.app := by
  obtain ⟨i, hadmits, hallowed⟩ := hread.admits
  have hplace : Place.ofPath? a.request.path = some (.records shelf) :=
    hsearch.path ▸ Place.ofPath?_base shelf
  have hop := operation?_of_route hplace hsearch.method (by decide) rfl
  exact ⟨i, hallowed, outcome_of_operation? hadmits hop (by simp [hsearch.method])
    (Resource.guarded_list hallowed hsearch.parameter_eq)⟩

theorem declines_of_postsQuery {status : Nat} (hposts : a.request.PostsQuery shelf)
    (hread : m.MayRead a shelf)
    (hbody : a.request.decodeBody FilterQuery.decode = .error (.unreadable status)) :
    m.Declines a status := by
  obtain ⟨i, hadmits, hallowed⟩ := hread.admits
  have hop := operation?_of_query hposts.method hposts.path
  exact outcome_of_operation? hadmits hop (by simp [hposts.method])
    (Resource.guarded_query_of_error hallowed hbody)

theorem declines_of_not_fits (hposts : a.request.PostsQuery shelf) (hread : m.MayRead a shelf)
    (hlong : ¬ a.request.Fits) : m.Declines a 413 :=
  declines_of_postsQuery hposts hread (Request.decodeBody_of_not_fits hposts.json hlong)

/-- A query of someone who may read is answered with the records that it selects, in the order of
the store, or with the code of the fault that it has, and changes nothing. A search for a text,
however the text is written, has the reply of a query without criteria for this text, whoever sends
the two and when. Every query can be sent, as the text in which it is written, if this text is not
too long; a longer text is declined. Every text can be searched for, with an escape for each of its
bytes. -/
theorem outcome_queries_searches (m : Moment) (shelf : Shelf) :
    (∀ (a : Arrival) (q : FilterQuery), a.request.Queries shelf q → m.MayRead a shelf →
        (m.outcome a).app = m.app ∧
          (∀ p, (Entity.schema (ρ := shelf.Record)).compileQuery q = .ok p →
            (m.outcome a).reply = .success 200 (.array
              (((m.app.store shelf).records.filter (p.holds Entity.schema)).map Resource.json))) ∧
          ∀ e, (Entity.schema (ρ := shelf.Record)).compileQuery q = .error e →
            (m.outcome a).reply.status = 400 ∧
              (m.outcome a).reply.errorCode? = some (ErrorReport.filterCode e).json) ∧
      (∀ (a b : Arrival) (s : String), a.request.Queries shelf ⟨[], some s⟩ →
        b.request.Searches shelf s → m.MayRead a shelf → m.MayRead b shelf →
          (m.outcome b).reply = (m.outcome a).reply ∧ (m.outcome b).app = m.app) ∧
      (∀ a : Arrival, a.request.PostsQuery shelf →
        (a.request.Fits → ∀ q : FilterQuery, a.request.body = q.json.compact →
          a.request.Queries shelf q) ∧
        (¬ a.request.Fits → m.MayRead a shelf → m.Declines a 413)) ∧
      ∀ (r : Request) (s : String), r.method = .get → r.path = shelf.base →
        r.query = "search=" ++ String.ofList (Percent.escaped (Text.bytes s)) →
          r.Searches shelf s := by
  refine ⟨?_, ?_, ?_, fun r s => Request.searches_of_escaped⟩
  · intro a q hquery hread
    obtain ⟨i, hallowed, hreply, happ⟩ := outcome_of_queries hquery hread
    refine ⟨happ, ?_, ?_⟩
    · intro p hp
      rw [hreply, Resource.answer_of_compiles hallowed hp]
    · intro e he
      rw [hreply, Resource.answer_of_fault hallowed he]
      exact ⟨ErrorReport.status_ofFilterError e, ErrorReport.errorCode?_reply _ _⟩
  · intro a b s hquery hsearch hreadQuery hreadSearch
    obtain ⟨i, hallowedQuery, hreplyQuery, -⟩ := outcome_of_queries hquery hreadQuery
    obtain ⟨j, hallowedSearch, hreplySearch, happ⟩ := outcome_of_searches hsearch hreadSearch
    obtain ⟨p, hp⟩ := (Entity.schema (ρ := shelf.Record)).exists_compileQuery_search (some s)
    rw [hreplyQuery, hreplySearch, Resource.answer_of_compiles hallowedQuery hp,
      Resource.answer_of_compiles hallowedSearch hp]
    exact ⟨rfl, happ⟩
  · intro a hposts
    refine ⟨fun hfits q hbody => hposts.queries hfits ?_, fun hlong hread => ?_⟩
    · rw [hbody]
      exact q.writes_compact
    · exact declines_of_not_fits hposts hread hlong

/-- A catalogue of two authors. -/
def catalogue : Moment where
  app :=
    { signer := ⟨"catalogue", by decide, none, ⟨3600, 0⟩, 30⟩, publicPaths := [],
      directory := .empty, metrics := none, books := ⟨[]⟩,
      authors := ⟨[{ id := .ofNat 1, name := some "Roman Letters" }, { id := .ofNat 2 }]⟩ }
  supply := ⟨.ofNat, 9⟩

/-- The credential of a user who may read authors and no more. -/
def readerCredential : Credential :=
  catalogue.app.signer.issue 1704067200 (.ofNat 4) ⟨⟨.ofNat 1⟩, ⟨.ofNat 5⟩, false⟩
    (some ⟨[⟨"authors", .single .read⟩]⟩)

/-- A request with this credential at the start of 2024. -/
def readerRequest (method : Method) (path query body : String) : Arrival where
  now := ⟨⟨2024, 1, 1⟩, 0, 0⟩
  request :=
    { method := method, path := path, query := query, body := body
      authorization := some ("Bearer " ++ readerCredential.token)
      contentType := some "application/json" }

/-- The user of this credential. -/
def reader : Identity :=
  ⟨some ⟨.ofNat 5⟩, some ⟨.ofNat 1⟩, false, some ⟨[⟨"authors", .single .read⟩]⟩⟩

theorem admits_reader (method : Method) (path query body : String) :
    catalogue.app.Admits (readerRequest method path query body).now
      (readerRequest method path query body).request reader := by
  have hlive : catalogue.app.signer.earliest (Instant.seconds ⟨⟨2024, 1, 1⟩, 0, 0⟩) ≤
      readerCredential.claims.exp.val := by decide
  exact .holder rfl rfl (Signer.token?_header _ _) (Signer.authenticate_issue _ _ _ _ _ _ hlive)

theorem mayRead_catalogue (method : Method) (path query body : String) :
    catalogue.MayRead (readerRequest method path query body) .authors :=
  ⟨reader, admits_reader method path query body, by decide⟩

/-- A search with a blank and an escape finds what the query for the same text finds. -/
theorem outcome_searches_catalogue :
    (catalogue.outcome (readerRequest .post "/api/authors/query" ""
        (FilterQuery.json ⟨[], some "an l"⟩).compact)).reply.status = 200 ∧
      (catalogue.outcome (readerRequest .get "/api/authors" "search=an+%6c" "")).reply =
        (catalogue.outcome (readerRequest .post "/api/authors/query" ""
          (FilterQuery.json ⟨[], some "an l"⟩).compact)).reply := by
  obtain ⟨hqueries, hsearches, hsent, -⟩ := outcome_queries_searches catalogue .authors
  have hquery : (readerRequest .post "/api/authors/query" ""
      (FilterQuery.json ⟨[], some "an l"⟩).compact).request.Queries .authors
        ⟨[], some "an l"⟩ :=
    (hsent _ ⟨rfl, rfl, _, rfl, by decide⟩).1 (by decide) _ rfl
  have hbytes : Text.bytes "an l" = Text.bytes (String.ofList ['a']) ++
      (Text.bytes (String.ofList ['n']) ++ [0x20, 0x6C]) := by decide
  have hwrites : Percent.Writes (Text.bytes "an l") ['a', 'n', '+', '%', '6', 'c'] := by
    rw [hbytes]
    exact .plain (by decide) (.plain (by decide) (.blank (.escape rfl .nil)))
  have hsearch : (readerRequest .get "/api/authors" "search=an+%6c" "").request.Searches .authors
      "an l" := ⟨rfl, rfl, _, rfl, hwrites⟩
  obtain ⟨-, hfound, -⟩ := hqueries _ _ hquery (mayRead_catalogue ..)
  refine ⟨by rw [hfound _ rfl]; rfl, ?_⟩
  exact (hsearches _ _ _ hquery hsearch (mayRead_catalogue ..) (mayRead_catalogue ..)).1

end Moment

end RecordGate
