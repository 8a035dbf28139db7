import RecordGate.Proofs.Auth.Header
import RecordGate.Proofs.Entity.Records
import RecordGate.Proofs.Http.Escapes
import RecordGate.Proofs.Service.Search

/-!
# Putting back what was read

A record that is read and sent back unchanged is answered with the same data and stays as it was:
its form holds all of it, it has the key of the path, and it takes its own place in the store.
-/

namespace RecordGate

/-- The data of a reply. -/
def Reply.data? (reply : Reply) : Option Json :=
  match reply.content with
  | .json value => value.member? "data"
  | _ => none

namespace Request

/-- A request reads the record of an entity that a part of the path names. -/
structure Reads (r : Request) (shelf : Shelf) (part : String) : Prop where
  method : r.method = .get
  path : r.path = shelf.base ++ "/" ++ part

/-- A request sends data for the record of an entity that a part of the path names. -/
structure Sends (r : Request) (shelf : Shelf) (part : String) (data : Json) : Prop where
  method : r.method = .put
  path : r.path = shelf.base ++ "/" ++ part
  json : r.SaysJson
  body : Json.parse r.body = .ok data

end Request

theorem Uuid.isRecordPart_text (u : Uuid) : IsRecordPart u.text := by
  have hlength := u.length_text
  refine ⟨?_, ?_, fun hslash => (ne_of_mem_text hslash).2 rfl⟩
  · intro h
    simp [h] at hlength
  · intro h
    simp [h] at hlength

namespace Resource

variable {ρ : Type} [Resource ρ] {now : Instant} {fresh : Uuid} {i : Identity} {r : Request}
  {store after : Store ρ} {record : ρ} {part : String} {key : Uuid}

theorem keyOf_text (u : Uuid) : keyOf u.text = .ok u := by
  have hdecode : Percent.decode? u.text = some u.text :=
    Percent.decode?_of_not_mem fun h => (Uuid.ne_of_mem_text h).1 rfl
  have hread : Uuid.parse? u.text = some u := Uuid.read?_text u
  simp only [keyOf, hdecode, Option.bind_some, hread]

/-- A record that is found is sent, and reading changes nothing. -/
theorem guarded_read (allowed : (i.evaluate (Store.entityName ρ) .read).allowed = true)
    (hkey : keyOf part = .ok key) (hget : store.get key = .ok record) :
    (guarded now fresh i r store (.read part)).value = ⟨.success 200 (json record), store⟩ := by
  rw [guarded_of_allowed allowed]
  simp [perform, unchanged, read, hkey, hget]

/-- A body that cannot be read is answered by what is wrong with it, and changes nothing. -/
theorem guarded_replace_of_error {reply : Reply}
    (allowed : (i.evaluate (Store.entityName ρ) .update).allowed = true)
    (hkey : keyOf part = .ok key)
    (hbody : r.decodeBody (decode fresh : Json.Decoder ρ) = .error reply) :
    (guarded now fresh i r store (.replace part)).value = ⟨reply, store⟩ := by
  rw [guarded_of_allowed allowed]
  simp [perform, replace, hkey, hbody]

/-- A record with the key of the path takes the place of the one with this key. -/
theorem guarded_replace (allowed : (i.evaluate (Store.entityName ρ) .update).allowed = true)
    (hkey : keyOf part = .ok (Entity.key record)) (hbody : r.decodeBody (decode fresh) = .ok record)
    (hupdate : store.update record = .ok after) :
    (guarded now fresh i r store (.replace part)).value =
      ⟨.success 200 (json record), after⟩ := by
  rw [guarded_of_allowed allowed]
  simp [perform, replace, hkey, hbody, hupdate, settle]

end Resource

namespace Shelf

variable {shelf : Shelf} {record : shelf.Record}

theorem parse_json_compact (record : shelf.Record) :
    Json.parse (Resource.json record).compact = .ok (Resource.json record) := by
  cases shelf with
  | books =>
      exact (Book.exact_json record).parse_compact
        (Nat.le_trans (Nat.le_of_eq (Book.height_json record)) (by decide))
  | authors =>
      exact (Author.exact_json record).parse_compact
        (Nat.le_trans (Nat.le_of_eq (Author.height_json record)) (by decide))

theorem decode_node (regular : (Entity.schema (ρ := shelf.Record)).Regular record) (fresh : Uuid) :
    Resource.decode fresh Json.depthLimit (Resource.json record).node = .ok record := by
  cases shelf with
  | books => exact Book.decode_node regular fresh 126
  | authors => exact Author.decode_node regular fresh 126

end Shelf

namespace Moment

variable {m : Moment} {a b : Arrival} {shelf : Shelf} {record : shelf.Record} {part : String}
  {key : Uuid}

/-- Someone who may do an action on the records of an entity is admitted with a request. -/
def May (m : Moment) (a : Arrival) (shelf : Shelf) (action : Entitlement) : Prop :=
  ∃ i, m.app.Admits a.now a.request i ∧ (i.evaluate shelf.entityName action).allowed = true

theorem May.admits {action : Entitlement} (h : m.May a shelf action) :
    ∃ i : Identity, m.app.Admits a.now a.request i ∧
      (i.evaluate (Store.entityName shelf.Record) action).allowed = true := by
  rw [shelf.entityName_record]
  exact h

theorem app_after (m : Moment) (a : Arrival) : (m.after [a]).app = (m.outcome a).app := rfl

theorem outcome_of_reads (distinct : (m.app.store shelf).KeysDistinct)
    (mem : record ∈ (m.app.store shelf).records) (hpart : IsRecordPart part)
    (hkey : Resource.keyOf part = .ok (Entity.key record)) (hreads : a.request.Reads shelf part)
    (hmay : m.May a shelf .read) :
    (m.outcome a).reply = .success 200 (Resource.json record) ∧ (m.outcome a).app = m.app := by
  obtain ⟨i, hadmits, hallowed⟩ := hmay.admits
  have hplace : Place.ofPath? a.request.path = some (.record shelf part) :=
    hreads.path ▸ Place.ofPath?_record hpart
  have hop := operation?_of_route hplace hreads.method (by decide) rfl
  exact outcome_of_operation? hadmits hop (by simp [hreads.method])
    (Resource.guarded_read hallowed hkey (Store.get_of_mem distinct mem))

theorem operation?_of_sends {data : Json} (hpart : IsRecordPart part)
    (hsends : a.request.Sends shelf part data) :
    a.request.operation? = some (shelf, .replace part) := by
  have hplace : Place.ofPath? a.request.path = some (.record shelf part) :=
    hsends.path ▸ Place.ofPath?_record hpart
  exact operation?_of_route hplace hsends.method (by decide) rfl

theorem outcome_of_sends (distinct : (m.app.store shelf).KeysDistinct)
    (mem : record ∈ (m.app.store shelf).records)
    (regular : (Entity.schema (ρ := shelf.Record)).Regular record) (hpart : IsRecordPart part)
    (hkey : Resource.keyOf part = .ok (Entity.key record))
    (hsends : a.request.Sends shelf part (Resource.json record)) (hmay : m.May a shelf .update)
    (hfits : a.request.Fits) :
    (m.outcome a).reply = .success 200 (Resource.json record) ∧ (m.outcome a).app = m.app := by
  obtain ⟨i, hadmits, hallowed⟩ := hmay.admits
  have hbody : a.request.decodeBody (Resource.decode m.supply.take.1) = .ok record := by
    refine (Request.decodeBody_eq_ok_iff hsends.json).mpr ⟨hfits, ?_⟩
    rw [(Json.root_of_parse hsends.body).1]
    exact Shelf.decode_node regular _
  exact outcome_of_operation? hadmits (operation?_of_sends hpart hsends) (by simp [hsends.method])
    (Resource.guarded_replace hallowed hkey hbody (Store.update_of_mem distinct mem))

/-- A record in a body that is too long is not put back. -/
theorem declines_of_sends {data : Json} (hpart : IsRecordPart part)
    (hkey : Resource.keyOf part = .ok key) (hsends : a.request.Sends shelf part data)
    (hmay : m.May a shelf .update) (hlong : ¬ a.request.Fits) : m.Declines a 413 := by
  obtain ⟨i, hadmits, hallowed⟩ := hmay.admits
  exact outcome_of_operation? hadmits (operation?_of_sends hpart hsends) (by simp [hsends.method])
    (Resource.guarded_replace_of_error hallowed hkey
      (Request.decodeBody_of_not_fits hsends.json hlong))

/-- The form of a record, in whatever text it is sent, is read as the record itself, and the record
is named by the text of its key in a path. Whoever may read it is sent this form as data, and
nothing changes. When the data is sent back without a change by someone who may update the record,
it is sent once more, and again nothing changes; in a body that is too long it is declined. -/
theorem outcome_putBack (m : Moment) (shelf : Shelf) (distinct : (m.app.store shelf).KeysDistinct)
    {record : shelf.Record} (mem : record ∈ (m.app.store shelf).records)
    (regular : (Entity.schema (ρ := shelf.Record)).Regular record) :
    (Json.parse (Resource.json record).compact = .ok (Resource.json record) ∧
      ∀ (fresh : Uuid) (text : String), Json.parse text = .ok (Resource.json record) →
        Json.parseWith (Resource.decode fresh) text = .ok record) ∧
    (IsRecordPart (Entity.key record).text ∧
      Resource.keyOf (Entity.key record).text = .ok (Entity.key record)) ∧
    ∀ part, IsRecordPart part → Resource.keyOf part = .ok (Entity.key record) →
      ∀ a : Arrival, a.request.Reads shelf part → m.May a shelf .read →
        (m.outcome a).reply.status = 200 ∧
        (m.outcome a).reply.data? = some (Resource.json record) ∧ (m.outcome a).app = m.app ∧
        ∀ (b : Arrival) (data : Json), (m.outcome a).reply.data? = some data →
          b.request.Sends shelf part data → (m.after [a]).May b shelf .update →
            (b.request.Fits →
              ((m.after [a]).outcome b).reply.status = 200 ∧
                ((m.after [a]).outcome b).reply.data? = some data ∧
                ((m.after [a]).outcome b).app = m.app) ∧
            (¬ b.request.Fits → (m.after [a]).Declines b 413 ∧
              ((m.after [a]).outcome b).app = m.app) := by
  refine ⟨⟨Shelf.parse_json_compact record, ?_⟩,
    ⟨(Entity.key record).isRecordPart_text, Resource.keyOf_text _⟩, ?_⟩
  · intro fresh text htext
    rw [Json.parseWith_of_parse htext]
    exact Shelf.decode_node regular fresh
  · intro part hpart hkey a hreads hmay
    obtain ⟨hreply, happ⟩ := outcome_of_reads distinct mem hpart hkey hreads hmay
    have hdata : (m.outcome a).reply.data? = some (Resource.json record) := by
      rw [hreply]
      rfl
    refine ⟨by rw [hreply]; rfl, hdata, happ, ?_⟩
    intro b data hread hsends hmayUpdate
    obtain rfl : Resource.json record = data := Option.some.inj (hdata.symm.trans hread)
    have hafter := (app_after m a).trans happ
    refine ⟨fun hfits => ?_, fun hlong => ?_⟩
    · obtain ⟨hreplyUpdate, happUpdate⟩ := outcome_of_sends (m := m.after [a])
        (by rw [hafter]; exact distinct) (by rw [hafter]; exact mem) regular hpart hkey hsends
        hmayUpdate hfits
      refine ⟨by rw [hreplyUpdate]; rfl, by rw [hreplyUpdate]; rfl, happUpdate.trans hafter⟩
    · have hdeclines := declines_of_sends hpart hkey hsends hmayUpdate hlong
      exact ⟨hdeclines, hdeclines.2.trans hafter⟩

/-- An author without a name, born long ago and not active any more. -/
def ancient : Author := { id := .ofNat 1, birthDate := some ⟨-43, 3, 20⟩, isActive := false }

theorem regular_ancient : Author.schema.Regular ancient := by
  have hvalid : Date.Valid ⟨-43, 3, 20⟩ := rfl
  simp [Schema.Regular, Author.schema, ancient, Value.ofOption, Value.Regular, hvalid]

def bindery : Moment where
  app :=
    { signer := ⟨"bindery", by decide, none, ⟨3600, 0⟩, 30⟩, publicPaths := [],
      directory := .empty, metrics := none, books := ⟨[]⟩,
      authors := ⟨[ancient, { id := .ofNat 2 }]⟩ }
  supply := ⟨.ofNat, 9⟩

/-- The actions that the binder may do. -/
def binderAcl : Acl := ⟨[⟨"authors", ⟨false, true, true, false⟩⟩]⟩

def binderCredential : Credential :=
  bindery.app.signer.issue 1704067200 (.ofNat 4) ⟨⟨.ofNat 1⟩, ⟨.ofNat 5⟩, false⟩ (some binderAcl)

/-- A request of the binder for the first author at the start of 2024. -/
def binderRequest (method : Method) (body : String) : Arrival where
  now := ⟨⟨2024, 1, 1⟩, 0, 0⟩
  request :=
    { method := method, path := "/api/authors/00000000000000000000000000000001", query := ""
      body := body, authorization := some ("Bearer " ++ binderCredential.token)
      contentType := some "application/json" }

/-- The first author, read and put back, stays the same. -/
theorem outcome_putBack_bindery :
    ∃ data, (bindery.outcome (binderRequest .get "")).reply.data? = some data ∧
      ((bindery.after [binderRequest .get ""]).outcome
        (binderRequest .put data.compact)).reply.data? = some data ∧
      ((bindery.after [binderRequest .get ""]).outcome
        (binderRequest .put data.compact)).app = bindery.app := by
  have hmay (m : Moment) (hm : m.app = bindery.app) (method : Method) (body : String)
      (action : Entitlement) (haction : action = .read ∨ action = .update) :
      m.May (binderRequest method body) .authors action := by
    refine ⟨⟨some ⟨.ofNat 5⟩, some ⟨.ofNat 1⟩, false, some binderAcl⟩, ?_, ?_⟩
    · have hlive : bindery.app.signer.earliest (Instant.seconds ⟨⟨2024, 1, 1⟩, 0, 0⟩) ≤
          binderCredential.claims.exp.val := by decide
      rw [hm]
      exact .holder rfl rfl (Signer.token?_header _ _)
        (Signer.authenticate_issue _ _ _ _ _ _ hlive)
    · rcases haction with rfl | rfl <;> decide
  have hdistinct : (bindery.app.store .authors).KeysDistinct := by
    unfold Store.KeysDistinct
    decide
  obtain ⟨⟨hcompact, -⟩, -, hread⟩ :=
    outcome_putBack bindery .authors hdistinct List.mem_cons_self regular_ancient
  let data : Json := Resource.json (ρ := Shelf.authors.Record) ancient
  have hpart : IsRecordPart "00000000000000000000000000000001" := by
    refine ⟨by decide, by decide, by decide⟩
  have hkey : Resource.keyOf "00000000000000000000000000000001" = .ok (.ofNat 1) := by
    have hdecode : Percent.decode? "00000000000000000000000000000001" =
        some "00000000000000000000000000000001" := Percent.decode?_of_not_mem (by decide)
    have hread : Uuid.parse? "00000000000000000000000000000001" = some (.ofNat 1) := by decide
    simp only [Resource.keyOf, hdecode, Option.bind_some, hread]
  obtain ⟨-, hdata, happ, hsend⟩ := hread _ hpart hkey (binderRequest .get "") ⟨rfl, rfl⟩
    (hmay _ rfl _ _ _ (.inl rfl))
  have hsends := hsend (binderRequest .put data.compact) data hdata
    ⟨rfl, rfl, ⟨_, rfl, by decide⟩, hcompact⟩
  have hfits : (binderRequest .put data.compact).request.Fits := by decide +kernel
  have hafter := (app_after bindery (binderRequest .get "")).trans happ
  have hmayUpdate : (bindery.after [binderRequest .get ""]).May (binderRequest .put data.compact)
      .authors .update := hmay _ hafter _ _ _ (.inr rfl)
  obtain ⟨-, hsent, hsame⟩ := (hsends hmayUpdate).1 hfits
  exact ⟨data, hdata, hsent, hsame⟩

end Moment

end RecordGate
