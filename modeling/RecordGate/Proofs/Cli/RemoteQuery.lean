import RecordGate.Cli.Run
import RecordGate.Proofs.Service.Search

/-!
# Queries of the command line to a server

The command line sends its criteria as the text in which a query is written. A server that gets
this text, or any other text with an object for the same query, compiles the same criteria in the
same order; it declines a text that gives a part of the query under two names, and one that is too
long.
-/

namespace RecordGate

open Json (Decoder Node)

namespace Request

variable {r : Request} {shelf : Shelf}

/-- A text that gives a part of a query under two names is not read as a query. -/
theorem PostsQuery.exists_unreadable (h : r.PostsQuery shelf) (hfits : r.Fits)
    (hclashes : FilterQuery.Clashes r.body) :
    ∃ status, (status = 400 ∨ status = 422) ∧
      r.decodeBody FilterQuery.decode = .error (.unreadable status) := by
  rw [decodeBody_of_fits h.json hfits]
  cases hroot : FilterQuery.decode Json.depthLimit (Json.document r.body.toList).root with
  | ok d => exact absurd hroot (FilterQuery.root_ne_of_clashes hclashes d)
  | error fault => exact ⟨fault.status, by cases fault <;> decide, rfl⟩

end Request

namespace Moment

variable {m : Moment} {a : Arrival} {shelf : Shelf} {q : FilterQuery}

/-- A request is answered by what the criteria and the term of a query compile to: with the records
that the predicate selects, or with the fault. Nothing is changed. -/
structure Compiles (m : Moment) (a : Arrival) (shelf : Shelf) (q : FilterQuery) : Prop where
  selected : ∀ p, (Entity.schema (ρ := shelf.Record)).compile q.filters q.term = .ok p →
    (m.outcome a).reply = .success 200 (.array
      (((m.app.store shelf).records.filter (p.holds Entity.schema)).map Resource.json))
  fault : ∀ e, (Entity.schema (ρ := shelf.Record)).compile q.filters q.term = .error e →
    (m.outcome a).reply = (ErrorReport.ofFilterError e).reply a.now
  unchanged : (m.outcome a).app = m.app

theorem compiles_of_queries (hquery : a.request.Queries shelf q) (hread : m.MayRead a shelf) :
    m.Compiles a shelf q := by
  obtain ⟨i, hallowed, hreply, happ⟩ := outcome_of_queries hquery hread
  refine ⟨fun p hp => ?_, fun e he => ?_, happ⟩
  · rw [hreply, Resource.answer_of_compiles hallowed hp]
  · rw [hreply, Resource.answer_of_fault hallowed he]

theorem declines_of_clashes (hposts : a.request.PostsQuery shelf) (hread : m.MayRead a shelf)
    (hfits : a.request.Fits) (hclashes : FilterQuery.Clashes a.request.body) :
    ∃ status, (status = 400 ∨ status = 422) ∧ m.Declines a status := by
  obtain ⟨status, hstatus, hbody⟩ := hposts.exists_unreadable hfits hclashes
  exact ⟨status, hstatus, declines_of_postsQuery hposts hread hbody⟩

end Moment

namespace Cli

/-- The request that arrives at the server of an exchange. -/
def Exchange.request (e : Exchange) : Request where
  method := .ofName e.method
  path := String.ofList e.url.path
  query := String.ofList (e.url.query.getD [])
  authorization := e.token.map fun token => "Bearer " ++ token
  contentType := e.body.map fun _ => "application/json"
  body := e.body.elim "" Json.compact

/-- What is run on a network has one exchange there. Its result depends on the answer only, and
tells the causes when there is none. -/
def Exchange.Decides {α : Type} (e : Exchange) (run : Network → Except Failure α) : Prop :=
  ∃ (address reason : String) (read : Answer → Except Failure α), ∀ network,
    run network =
      match network e with
      | .ok answer => read answer
      | .error causes => .error (.unsent e.method address (reason :: causes))

/-- The exchange in which a query is sent. -/
def queryExchange (url : Url) (token : String) (q : FilterQuery) : Exchange :=
  ⟨"POST", url, some token, some q.json⟩

variable {url : Url} {token base path : String} {q : FilterQuery} {shelf : Shelf}

/-- What arrives of a query that is sent to the queries for the records of an entity. -/
theorem postsQuery_queryExchange (hpath : String.ofList url.path = shelf.base ++ "/query") :
    (queryExchange url token q).request.PostsQuery shelf where
  method := rfl
  path := hpath
  json := ⟨"application/json", rfl, by decide⟩

theorem decides_send {e : Exchange} (hurl : Url.read (base ++ path) = .ok e.url)
    (htoken : (e.token.map Client.isSendable).getD true = true) :
    e.Decides fun network => Client.send ⟨network, base⟩ e.method path e.token e.body := by
  refine ⟨base ++ path, "error sending request for url (" ++ e.url.text ++ ")", .ok, ?_⟩
  intro network
  obtain ⟨method, url, token, body⟩ := e
  cases hanswer : network ⟨method, url, token, body⟩ with
  | ok answer => simp only [Client.send, hurl, htoken, if_true, hanswer]
  | error causes => simp only [Client.send, hurl, htoken, if_true, hanswer]

/-- What goes on with the result of one exchange is decided by the exchange. -/
theorem Exchange.Decides.bind {α β : Type} {e : Exchange} {run : Network → Except Failure α}
    (h : e.Decides run) (next : α → Except Failure β) :
    e.Decides fun network => run network >>= next := by
  obtain ⟨address, reason, read, hread⟩ := h
  refine ⟨address, reason, fun answer => read answer >>= next, fun network => ?_⟩
  simp only [hread]
  cases network e <;> rfl

theorem exists_runQuery_eq {b : Builtin} {entity : String} {filters : List String}
    (hentity : resolveEntity entity = .ok b) (hfilters : readFilters filters = .ok q.filters)
    (format : OutputFormat) (token : String) :
    ∃ next : List Json → Except Failure Printed, ∀ client : Client,
      runQuery client format entity token filters q.searchTerm =
        client.post (Decoder.list Node.read) (b.route ++ "/query") q.json (some token) >>= next :=
  ⟨_, fun client => by
    simp only [runQuery, hentity, hfilters]
    rfl⟩

/-- A query of the command line is sent in one exchange. -/
theorem decides_runQuery {b : Builtin} {entity : String} {filters : List String}
    (hentity : resolveEntity entity = .ok b) (hfilters : readFilters filters = .ok q.filters)
    (hurl : Url.read (base ++ (b.route ++ "/query")) = .ok url)
    (htoken : Client.isSendable token = true) (format : OutputFormat) :
    (queryExchange url token q).Decides fun network =>
      runQuery ⟨network, base⟩ format entity token filters q.searchTerm := by
  obtain ⟨next, hnext⟩ := exists_runQuery_eq hentity hfilters format token
  simp only [hnext]
  have hsend : (queryExchange url token q).Decides fun network =>
      Client.send ⟨network, base⟩ "POST" (b.route ++ "/query") (some token) (some q.json) :=
    decides_send hurl htoken
  have hpost : (queryExchange url token q).Decides fun network =>
      Client.post ⟨network, base⟩ (Decoder.list Node.read) (b.route ++ "/query") q.json
        (some token) :=
    hsend.bind (Client.unwrap _ (base ++ (b.route ++ "/query")))
  exact hpost.bind next

end Cli

namespace FilterQuery

open Moment (catalogue readerRequest mayRead_catalogue)

/-- Every query is read back from the text in which it is written, and from every other text with
an object that stands for it. A text that gives a part of a query, or of one of its criteria, under
two names is not read. The criteria and the term that the command line reads from its arguments are
sent in one exchange, and what the server replies to it, as to every other text for the same query,
goes by what these criteria compile to in this order, unless the text is too long: then it is
declined. -/
theorem query_spellings (q : FilterQuery) :
    (Json.parseWith decode q.json.compact = .ok q ∧
      ∀ text, q.Writes text → Json.parseWith decode text = .ok q) ∧
    (∀ text, Clashes text → ∃ fault, Json.parseWith decode text = .error fault) ∧
    (∀ filters, Cli.readFilters filters = .ok q.filters →
      ∀ b entity base url token format, Cli.resolveEntity entity = .ok b →
        Url.read (base ++ (Cli.Builtin.route b ++ "/query")) = .ok url →
        Cli.Client.isSendable token = true →
          ((Cli.queryExchange url token q).Decides fun network =>
            Cli.runQuery ⟨network, base⟩ format entity token filters q.searchTerm) ∧
          ∀ (m : Moment) (now : Instant) (shelf : Shelf),
            String.ofList url.path = shelf.base ++ "/query" →
            m.MayRead ⟨now, (Cli.queryExchange url token q).request⟩ shelf →
              ((Cli.queryExchange url token q).request.Fits →
                m.Compiles ⟨now, (Cli.queryExchange url token q).request⟩ shelf q) ∧
              (¬ (Cli.queryExchange url token q).request.Fits →
                m.Declines ⟨now, (Cli.queryExchange url token q).request⟩ 413)) ∧
    ∀ (m : Moment) (a : Arrival) (shelf : Shelf), a.request.PostsQuery shelf → m.MayRead a shelf →
      (a.request.Fits →
        (q.Writes a.request.body → m.Compiles a shelf q) ∧
          (Clashes a.request.body →
            ∃ status, (status = 400 ∨ status = 422) ∧ m.Declines a status)) ∧
        (¬ a.request.Fits → m.Declines a 413) := by
  refine ⟨⟨parseWith_of_writes q.writes_compact, fun text => parseWith_of_writes⟩,
    fun text => exists_fault_of_clashes, ?_, ?_⟩
  · intro filters hfilters b entity base url token format hentity hurl htoken
    refine ⟨Cli.decides_runQuery hentity hfilters hurl htoken format, ?_⟩
    intro m now shelf hpath hread
    have hposts : (Cli.queryExchange url token q).request.PostsQuery shelf :=
      Cli.postsQuery_queryExchange hpath
    refine ⟨fun hfits => ?_, fun hlong => Moment.declines_of_not_fits hposts hread hlong⟩
    exact Moment.compiles_of_queries (hposts.queries hfits q.writes_compact) hread
  · intro m a shelf hposts hread
    refine ⟨fun hfits => ⟨fun hwrites => ?_, fun hclashes => ?_⟩, fun hlong => ?_⟩
    · exact Moment.compiles_of_queries (hposts.queries hfits hwrites) hread
    · exact Moment.declines_of_clashes hposts hread hfits hclashes
    · exact Moment.declines_of_not_fits hposts hread hlong

/-- Two criteria, the second one without a value. -/
def livingNames : FilterQuery := ⟨[⟨"isActive", "=", "true"⟩, ⟨"Name", "!=", ""⟩], none⟩

/-- The same query with older names, a member of another name, and a term that is null. -/
def livingNamesJson : Json :=
  .object [("x", .array [.int 1]), ("SearchTerm", .null),
    ("Filters", .array
      [ .object [("Value", .string "true"), ("PropertyName", .string "isActive"),
          ("operator", .string "=")],
        .object [("propertyName", .string "Name"), ("Operator", .string "!=")] ])]

theorem writes_livingNames : livingNames.Writes livingNamesJson.compact := by
  have hexact : livingNamesJson.Exact := by
    simp [livingNamesJson, Json.Exact.null, Json.Exact.int]
  have hfirst : (⟨"isActive", "=", "true"⟩ : FilterCriterion).Spelled
      [("Value", .string (some "true")), ("PropertyName", .string (some "isActive")),
        ("operator", .string (some "="))] :=
    ⟨rfl, rfl, .inl rfl, by simp [FilterCriterion.spellings]⟩
  have hsecond : (⟨"Name", "!=", ""⟩ : FilterCriterion).Spelled
      [("propertyName", .string (some "Name")), ("Operator", .string (some "!="))] :=
    ⟨rfl, rfl, .inr ⟨rfl, rfl⟩, by simp [FilterCriterion.spellings]⟩
  refine ⟨[("x", .array [.number (some (.int 1))] none), ("SearchTerm", .null),
      ("Filters", .array _ none)],
    hexact.document_compact,
    .inl ⟨_, rfl, .cons ⟨_, rfl, hfirst⟩ (.cons ⟨_, rfl, hsecond⟩ .nil)⟩, .inl rfl, ?_⟩
  exact List.forall_mem_cons.mpr ⟨fun _ => rfl, by simp [spellings]⟩

/-- The address `http://localhost/api/authors/query`. -/
def localAuthors : Url :=
  ⟨"http", "localhost".toList, none, "/api/authors/query".toList, none, none⟩

theorem query_spellings_livingNames :
    Json.parseWith decode livingNamesJson.compact = .ok livingNames ∧
      (∃ fault, Json.parseWith decode "\x7b\"filters\":[],\"Filters\":[]\x7d" = .error fault) ∧
      ((Cli.queryExchange localAuthors "t" livingNames).Decides fun network =>
        Cli.runQuery ⟨network, "http://localhost"⟩ .json "authors" "t"
          ["isActive:=:true", "Name:!=:"] none) ∧
      (catalogue.outcome (readerRequest .post "/api/authors/query" ""
        livingNamesJson.compact)).reply.status = 200 := by
  obtain ⟨⟨-, hread⟩, hrefused, hsent, hserved⟩ := query_spellings livingNames
  have hclashes : Clashes "\x7b\"filters\":[],\"Filters\":[]\x7d" := by
    refine ⟨[(some "filters", .array [] none), (some "Filters", .array [] none)], none, false, rfl,
      .inl ?_⟩
    refine ⟨["filters", "Filters"], .head _, "filters", .head _, "Filters", .tail _ (.head _),
      by simp, ?_⟩
    exact ⟨⟨_, .head _⟩, ⟨_, .tail _ (.head _)⟩⟩
  have hposts : (readerRequest .post "/api/authors/query" ""
      livingNamesJson.compact).request.PostsQuery .authors :=
    ⟨rfl, rfl, "application/json", rfl, by decide⟩
  have hfits : (readerRequest .post "/api/authors/query" ""
      livingNamesJson.compact).request.Fits := by decide +kernel
  obtain ⟨hcompiles, -⟩ := (hserved catalogue _ .authors hposts (mayRead_catalogue ..)).1 hfits
  refine ⟨hread _ writes_livingNames, hrefused _ hclashes, ?_, ?_⟩
  · exact (hsent _ rfl .authors _ _ localAuthors _ _ rfl rfl (by decide)).1
  · rw [(hcompiles writes_livingNames).selected _ rfl]
    rfl

end FilterQuery

end RecordGate
