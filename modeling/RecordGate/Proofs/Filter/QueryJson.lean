import RecordGate.Filter.Query
import RecordGate.Proofs.Json.Accepted
import RecordGate.Proofs.Json.RoundTrip
import RecordGate.Proofs.Json.Spellings

/-!
# Queries through JSON

A query is read back from the text in which it is written, whatever its criteria and its search term
are. It is also read from every other object that gives its fields under either of their names, in any
order, with other members between them, and without the fields that are empty.
-/

namespace RecordGate

open Json (Break Decoder GivesOnce GivesTwice Lists Node Slot document under wholeMembers exists_of_bind_eq_ok)

namespace FilterCriterion

theorem exact_json (c : FilterCriterion) : c.json.Exact := by
  simp [json]

/-- The names of the fields of a criterion. -/
def spellings : List (List String) :=
  [["propertyName", "PropertyName"], ["operator", "Operator"], ["value", "Value"]]

/-- The members of an object that stands for a criterion. The value may be left out when it is empty,
and members of other names hold anything that can be passed over. -/
structure Spelled (c : FilterCriterion) (members : List (String × Node)) : Prop where
  property : under ["propertyName", "PropertyName"] members = [.string (some c.property)]
  operator : under ["operator", "Operator"] members = [.string (some c.operator)]
  value : under ["value", "Value"] members = [.string (some c.value)] ∨
    c.value = "" ∧ under ["value", "Value"] members = []
  others : ∀ m ∈ members, m.1 ∉ spellings.flatten → m.2.skip = .ok ()

/-- An object that stands for a criterion. -/
def Writes (c : FilterCriterion) (node : Node) : Prop :=
  ∃ members, node = .object (wholeMembers members) none ∧ c.Spelled members

/-- The value of a criterion stands for the criterion. -/
theorem writes_node (c : FilterCriterion) : c.Writes c.json.node :=
  ⟨[("propertyName", .string (some c.property)), ("operator", .string (some c.operator)),
    ("value", .string (some c.value))], rfl, rfl, rfl, .inl rfl, by simp [spellings]⟩

theorem spellings_nodup : (slots.map Slot.names).flatten.Nodup := by decide

variable {c : FilterCriterion} {members : List (String × Node)}

theorem Spelled.gives_value (h : c.Spelled members) (depth : Nat) :
    GivesOnce ["value", "Value"] members depth Decoder.string "" c.value := by
  rcases h.value with hgiven | habsent
  · exact .inl ⟨_, hgiven, rfl⟩
  · exact .inr habsent

theorem Spelled.offered (h : c.Spelled members) (depth : Nat) :
    ∀ slot ∈ slots, slot.Offered depth members := by
  have hproperty : Decoder.string depth (.string (some c.property)) = .ok c.property := rfl
  have hoperator : Decoder.string depth (.string (some c.operator)) = .ok c.operator := rfl
  simp only [slots, List.forall_mem_cons]
  exact ⟨Slot.offered_of_given h.property hproperty, Slot.offered_of_given h.operator hoperator,
    Slot.offered_of_givesOnce (h.gives_value depth) (by simp), by simp⟩

theorem fills_property :
    Slot.Fills slots FilterCriterion.property slots[0] Decoder.string :=
  Slot.fills_of (fun _ _ => rfl) (by simp [slots, Slot.keeps_of])

theorem fills_operator :
    Slot.Fills slots FilterCriterion.operator slots[1] Decoder.string :=
  Slot.fills_of (fun _ _ => rfl) (by simp [slots, Slot.keeps_of])

theorem fills_value :
    Slot.Fills slots FilterCriterion.value slots[2] Decoder.string :=
  Slot.fills_of (fun _ _ => rfl) (by simp [slots, Slot.keeps_of])

/-- What is decoded from the members of a criterion is this criterion. -/
theorem Spelled.eq_of_decode {depth : Nat} {d : FilterCriterion} (h : c.Spelled members)
    (hd : decode (depth + 1) (.object (wholeMembers members) none) = .ok d) : d = c := by
  have field {get : FilterCriterion → String} {slot : Slot FilterCriterion} {s : String}
      (mem : slot ∈ slots) (hfills : Slot.Fills slots get slot Decoder.string)
      (hgives : GivesOnce slot.names members depth Decoder.string (get ⟨"", "", ""⟩) s) : get d = s :=
    Slot.get_of_givesOnce spellings_nodup mem hfills hd hgives
  have hproperty := field (List.getElem_mem _) fills_property (.inl ⟨_, h.property, rfl⟩)
  have hoperator := field (List.getElem_mem _) fills_operator (.inl ⟨_, h.operator, rfl⟩)
  have hvalue := field (List.getElem_mem _) fills_value (h.gives_value depth)
  obtain ⟨property, operator, value⟩ := c
  obtain ⟨rfl, rfl, rfl⟩ : property = d.property ∧ operator = d.operator ∧ value = d.value :=
    ⟨hproperty.symm, hoperator.symm, hvalue.symm⟩
  rfl

/-- An object that stands for a criterion is decoded as the criterion. -/
theorem decode_of_writes {node : Node} (h : c.Writes node) (depth : Nat) :
    decode (depth + 1) node = .ok c := by
  obtain ⟨members, rfl, h⟩ := h
  obtain ⟨d, hd⟩ := (Slot.suits_of_offered spellings_nodup (h.offered depth) h.others).exists_record
    (Slot.names_nodup spellings_nodup) ⟨"", "", ""⟩
  rw [decode, hd, h.eq_of_decode hd]

/-- An object that gives a part of a criterion under both of its names is decoded as no criterion. -/
theorem decode_ne_of_givesTwice {raw : List (Option String × Node)} (h : GivesTwice spellings raw)
    (depth : Nat) (cut : Option Break) (d : FilterCriterion) :
    decode depth (.object raw cut) ≠ .ok d :=
  Slot.record_ne_of_givesTwice spellings_nodup h _ depth cut d

end FilterCriterion

namespace FilterQuery

theorem exact_json (q : FilterQuery) : q.json.Exact := by
  cases hterm : q.searchTerm <;> simp [json, hterm, FilterCriterion.exact_json]

/-- The names of the parts of a query. -/
def spellings : List (List String) := [["filters", "Filters"], ["searchTerm", "SearchTerm"]]

/-- Values of the member for the search term. An absent term is left out or null. -/
def TermNodes : Option String → List Node → Prop
  | some s, nodes => nodes = [.string (some s)]
  | none, nodes => nodes = [.null] ∨ nodes = []

/-- The members of an object that stands for a query: objects for its criteria in their order, which
may be left out when there are none, the search term, and members of other names that hold anything
that can be passed over. -/
structure Spelled (q : FilterQuery) (members : List (String × Node)) : Prop where
  filters : (∃ nodes, under ["filters", "Filters"] members = [.array nodes none] ∧
      List.Forall₂ FilterCriterion.Writes q.filters nodes) ∨
    q.filters = [] ∧ under ["filters", "Filters"] members = []
  term : TermNodes q.searchTerm (under ["searchTerm", "SearchTerm"] members)
  others : ∀ m ∈ members, m.1 ∉ spellings.flatten → m.2.skip = .ok ()

/-- An object gives a part of the query, or of one of its criteria, under both of its names. -/
def Ambiguous (raw : List (Option String × Node)) : Prop :=
  GivesTwice spellings raw ∨
    ∃ key ∈ ["filters", "Filters"], ∃ nodes cut, (some key, .array nodes cut) ∈ raw ∧
      ∃ criterion broken, .object criterion broken ∈ nodes ∧
        GivesTwice FilterCriterion.spellings criterion

theorem spellings_nodup : (slots.map Slot.names).flatten.Nodup := by decide

theorem fills_filters :
    Slot.Fills slots FilterQuery.filters slots[0] (Decoder.list FilterCriterion.decode) :=
  Slot.fills_of (fun _ _ => rfl) (by simp [slots, Slot.keeps_of])

theorem fills_searchTerm :
    Slot.Fills slots FilterQuery.searchTerm slots[1] (Decoder.option Decoder.string) :=
  Slot.fills_of (fun _ _ => rfl) (by simp [slots, Slot.keeps_of])

/-- Objects that stand for criteria are decoded as the list of the criteria. -/
theorem list_of_writes {criteria : List FilterCriterion} {nodes : List Node}
    (h : List.Forall₂ FilterCriterion.Writes criteria nodes) (depth : Nat) :
    Decoder.list FilterCriterion.decode (depth + 2) (.array nodes none) = .ok criteria := by
  have hitems : Decoder.items FilterCriterion.decode (depth + 1) nodes = .ok criteria :=
    Decoder.items_eq_ok_iff.mpr
      (h.imp fun _ _ hc => FilterCriterion.decode_of_writes hc depth).flip
  simp only [Decoder.list, Node.inside, hitems, Node.closed, bind, Except.bind, pure, Except.pure]

variable {q : FilterQuery} {members : List (String × Node)}

theorem Spelled.gives_filters (h : q.Spelled members) (depth : Nat) :
    GivesOnce ["filters", "Filters"] members (depth + 2) (Decoder.list FilterCriterion.decode) []
      q.filters := by
  rcases h.filters with ⟨nodes, hgiven, hwrites⟩ | habsent
  · exact .inl ⟨_, hgiven, list_of_writes hwrites depth⟩
  · exact .inr habsent

theorem Spelled.gives_term (h : q.Spelled members) (depth : Nat) :
    GivesOnce ["searchTerm", "SearchTerm"] members depth (Decoder.option Decoder.string) none
      q.searchTerm := by
  have hterm := h.term
  cases hsearch : q.searchTerm with
  | some s =>
      rw [hsearch] at hterm
      exact .inl ⟨_, hterm, rfl⟩
  | none =>
      rw [hsearch] at hterm
      rcases hterm with hnull | habsent
      · exact .inl ⟨_, hnull, rfl⟩
      · exact .inr ⟨rfl, habsent⟩

theorem Spelled.offered (h : q.Spelled members) (depth : Nat) :
    ∀ slot ∈ slots, slot.Offered (depth + 2) members := by
  simp only [slots, List.forall_mem_cons]
  exact ⟨Slot.offered_of_givesOnce (h.gives_filters depth) (by simp),
    Slot.offered_of_givesOnce (h.gives_term _) (by simp), by simp⟩

/-- What is decoded from the members of a query is this query. -/
theorem Spelled.eq_of_decode {depth : Nat} {d : FilterQuery} (h : q.Spelled members)
    (hd : decode (depth + 3) (.object (wholeMembers members) none) = .ok d) : d = q := by
  have hfilters : d.filters = q.filters :=
    Slot.get_of_givesOnce spellings_nodup (List.getElem_mem _) fills_filters hd (h.gives_filters depth)
  have hterm : d.searchTerm = q.searchTerm :=
    Slot.get_of_givesOnce spellings_nodup (List.getElem_mem _) fills_searchTerm hd (h.gives_term _)
  obtain ⟨filters, searchTerm⟩ := q
  obtain ⟨rfl, rfl⟩ : filters = d.filters ∧ searchTerm = d.searchTerm := ⟨hfilters.symm, hterm.symm⟩
  rfl

/-- An object that stands for a query is decoded as the query. -/
theorem decode_of_spelled (h : q.Spelled members) (depth : Nat) :
    decode (depth + 3) (.object (wholeMembers members) none) = .ok q := by
  obtain ⟨d, hd⟩ := (Slot.suits_of_offered spellings_nodup (h.offered depth) h.others).exists_record
    (Slot.names_nodup spellings_nodup) empty
  rw [decode, hd, h.eq_of_decode hd]

/-- An object that gives a part under both of its names is decoded as no query. -/
theorem decode_ne_of_ambiguous {raw : List (Option String × Node)} (h : Ambiguous raw)
    (depth : Nat) (cut : Option Break) (d : FilterQuery) : decode depth (.object raw cut) ≠ .ok d := by
  rcases h with htwice | ⟨key, hkey, nodes, broken, hlist, criterion, cut', hcriterion, htwice⟩
  · exact Slot.record_ne_of_givesTwice spellings_nodup htwice _ depth cut d
  · intro h
    obtain ⟨inner, -, h⟩ := exists_of_bind_eq_ok h
    obtain ⟨⟨seen, result⟩, hfill, -⟩ := exists_of_bind_eq_ok h
    obtain ⟨members, rfl⟩ := Slot.eq_wholeMembers_of_fillMembers hfill
    have hmem : (key, .array nodes broken) ∈ members := by simpa [wholeMembers] using hlist
    have hdecode := Slot.get_of_fillMembers (Slot.names_nodup spellings_nodup) (List.getElem_mem _)
      fills_filters hfill hmem
      (Slot.fieldOf?_of_mem_names spellings_nodup (List.getElem_mem _) hkey)
    obtain ⟨depth', -, hdecode⟩ := exists_of_bind_eq_ok hdecode
    obtain ⟨values, hitems, -⟩ := exists_of_bind_eq_ok hdecode
    obtain ⟨c, hc⟩ := Decoder.exists_of_mem_of_items hitems hcriterion
    exact FilterCriterion.decode_ne_of_givesTwice htwice depth' cut' c hc

/-- A text holds an object that stands for a query, and nothing else. -/
def Writes (q : FilterQuery) (text : String) : Prop :=
  ∃ members, Lists text members ∧ q.Spelled members

/-- A text holds an object that gives a part under both of its names. -/
def Clashes (text : String) : Prop :=
  ∃ raw cut trailing, document text.toList = ⟨.object raw cut, trailing⟩ ∧ Ambiguous raw

/-- The text in which a query is written holds an object that stands for the query. -/
theorem writes_compact (q : FilterQuery) : q.Writes q.json.compact := by
  have hcriteria : List.Forall₂ FilterCriterion.Writes q.filters
      (Json.nodeItems (q.filters.map FilterCriterion.json)) := by
    induction q.filters with
    | nil => exact .nil
    | cons c criteria ih => exact .cons c.writes_node ih
  have hdocument := q.exact_json.document_compact
  obtain ⟨filters, _ | s⟩ := q
  · refine ⟨[("filters", .array _ none)], hdocument, .inl ⟨_, rfl, hcriteria⟩, .inr rfl, ?_⟩
    simp [spellings]
  · refine ⟨[("filters", .array _ none), ("searchTerm", .string (some s))], hdocument,
      .inl ⟨_, rfl, hcriteria⟩, rfl, ?_⟩
    simp [spellings]

section Texts

variable {text : String}

theorem root_of_writes (h : q.Writes text) :
    decode Json.depthLimit (document text.toList).root = .ok q := by
  obtain ⟨members, hlists, hspelled⟩ := h
  rw [hlists]
  exact decode_of_spelled hspelled 124

/-- A text that holds an object for a query is read as the query. -/
theorem parseWith_of_writes (h : q.Writes text) : Json.parseWith decode text = .ok q := by
  obtain ⟨members, hlists, hspelled⟩ := h
  rw [hlists.parseWith_eq]
  exact decode_of_spelled hspelled 124

theorem root_ne_of_clashes (h : Clashes text) (d : FilterQuery) :
    decode Json.depthLimit (document text.toList).root ≠ .ok d := by
  obtain ⟨raw, cut, trailing, hdocument, hambiguous⟩ := h
  rw [hdocument]
  exact decode_ne_of_ambiguous hambiguous Json.depthLimit cut d

/-- A text with an object that gives a part under both of its names is not read. -/
theorem exists_fault_of_clashes (h : Clashes text) :
    ∃ fault, Json.parseWith decode text = .error fault := by
  cases hread : Json.parseWith decode text with
  | error fault => exact ⟨fault, rfl⟩
  | ok d =>
      obtain ⟨result, hdecode, -⟩ := exists_of_bind_eq_ok hread
      exact absurd hdecode (root_ne_of_clashes h result)

end Texts

end FilterQuery

end RecordGate
