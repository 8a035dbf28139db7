import RecordGate.Filter.Wire
import RecordGate.Proofs.Json.Contents

/-!
# Predicates through JSON

A predicate is read back from the text in which it is written, unless its containers are nested too
deep; then it is not read at all.
-/

namespace RecordGate

open Json (Decoder Slot)

namespace Value

/-- A value is no float, and its day or instant is one of the calendar. -/
def Regular : Value → Prop
  | .float _ => False
  | .dateTime t => t.Valid
  | .date d => d.Valid
  | _ => True

theorem exact_json {v : Value} (h : v.Regular) : v.json.Exact := by
  cases v with
  | integer n =>
      have hcontent : (Json.int n.val).Exact := Json.exact_int n (by decide) (by decide)
      simpa [json, type?, FieldType.json, contentJson] using hcontent
  | float x => exact h.elim
  | _ => simp [json, type?, FieldType.json, contentJson]

theorem height_json (v : Value) : v.json.height = 1 := by
  cases v <;> rfl

theorem content_node {v : Value} {t : FieldType} (h : v.Regular) (ht : v.type? = some t)
    (depth : Nat) : content (some t) depth v.contentJson.node = .ok v := by
  cases v with
  | null => cases ht
  | text s => cases ht; rfl
  | integer n =>
      cases ht
      simp [content, contentJson, Decoder.ranged_node, Except.map]
  | float x => exact h.elim
  | boolean b => cases ht; rfl
  | uuid u =>
      cases ht
      simp [content, contentJson, Decoder.uuid_node, Except.map]
  | dateTime i =>
      cases ht
      simp [content, contentJson, Decoder.dateTime_node h, Except.map]
  | date d =>
      cases ht
      simp [content, contentJson, Decoder.date_node h, Except.map]

theorem choice_kinds (t : FieldType) (depth : Nat) :
    Decoder.choice kinds depth t.json.node = .ok (some t) := by
  cases t <;> rfl

/-- A value is read back from an object of its type and its content. -/
theorem decode_node {v : Value} (h : v.Regular) (depth : Nat) :
    decode (depth + 1) v.json.node = .ok v := by
  cases ht : v.type? with
  | none =>
      cases v with
      | null => rfl
      | _ => cases ht
  | some t =>
      have hcontent := content_node h ht depth
      have hkind := choice_kinds t depth
      simp [decode, json, ht, Json.node, Json.nodeMembers, Json.Node.inside, Json.Node.closed,
        membersFrom, member, hkind, hcontent, Progress.value, bind, Except.bind, Except.map]

end Value

theorem ComparisonOp.decode_node (op : ComparisonOp) (depth : Nat) :
    decode depth op.json.node = .ok op := by
  cases op <;> rfl

namespace Predicate

/-- No operand is a float, and all days and instants are ones of the calendar. -/
def Regular : Predicate → Prop
  | .compare _ _ value => value.Regular
  | .and left right => left.Regular ∧ right.Regular
  | .or left right => left.Regular ∧ right.Regular
  | _ => True

/-- How deep the containers are nested in the form in which a predicate is written. -/
def nesting : Predicate → Nat
  | .matchAll => 1
  | .compare _ _ _ => 2
  | .contains _ _ => 1
  | .and left right => 1 + max left.nesting right.nesting
  | .or left right => 1 + max left.nesting right.nesting

theorem height_json (p : Predicate) : p.json.height = p.nesting := by
  induction p with
  | matchAll => rfl
  | compare field op value =>
      simp [json, ComparisonOp.json, Json.height, Json.heightMembers, value.height_json, nesting]
  | contains field term => rfl
  | and left right hleft hright =>
      simp [json, Json.height, Json.heightMembers, hleft, hright, nesting]
      omega
  | or left right hleft hright =>
      simp [json, Json.height, Json.heightMembers, hleft, hright, nesting]
      omega

theorem exact_json {p : Predicate} (h : p.Regular) : p.json.Exact := by
  induction p with
  | matchAll => simp [json]
  | compare field op value => simp [json, ComparisonOp.json, Value.exact_json h]
  | contains field term => simp [json]
  | and left right hleft hright => simp [json, hleft h.1, hright h.2]
  | or left right hleft hright => simp [json, hleft h.1, hright h.2]

theorem ofJson_json {p : Predicate} (h : p.Regular) : ofJson p.json = some p := by
  induction p with
  | matchAll => rfl
  | compare field op value =>
      have hop := op.decode_node 126
      have hvalue := Value.decode_node h 125
      simp [json, ofJson, ofMembers, only?, kind?, Kind.names, Decoder.named, ofParts,
        Json.decodeValue, Json.depthLimit, compareSlots, Slot.record, Slot.fillMembers, Slot.of,
        Slot.answersTo, Slot.complete, Json.node, Json.nodeMembers, Json.Node.inside,
        Json.Node.closed, Decoder.string, hop, hvalue, ofCompareParts, bind, Except.bind, Except.map]
  | contains field term =>
      simp [json, ofJson, ofMembers, only?, kind?, Kind.names, Decoder.named, ofParts,
        Json.decodeValue, Json.depthLimit, containsSlots, Slot.record, Slot.fillMembers, Slot.of,
        Slot.answersTo, Slot.complete, Json.node, Json.nodeMembers, Json.Node.inside,
        Json.Node.closed, Decoder.string, ofContainsParts, bind, Except.bind, Except.map]
  | and left right hleft hright =>
      simp [json, ofJson, ofMembers, memberBranches, only?, kind?, Kind.names, Decoder.named,
        joinNamed, hleft h.1, hright h.2]
  | or left right hleft hright =>
      simp [json, ofJson, ofMembers, memberBranches, only?, kind?, Kind.names, Decoder.named,
        joinNamed, hleft h.1, hright h.2]

/-- The members of the form of a predicate after the one for its kind. -/
def fields : Predicate → List (String × Json)
  | .matchAll => []
  | .compare field op value => [("field", .string field), ("op", op.json), ("value", value.json)]
  | .contains field term => [("field", .string field), ("term", .string term)]
  | .and left right => [("left", left.json), ("right", right.json)]
  | .or left right => [("left", left.json), ("right", right.json)]

theorem ne_kind_of_mem_fields (p : Predicate) : ∀ m ∈ p.fields, m.1 ≠ "kind" := by
  cases p <;> simp [fields]

theorem exists_json_eq (p : Predicate) :
    ∃ kind name, Decoder.named Kind.names name = some kind ∧
      p.json = .object (("kind", .string name) :: p.fields) := by
  cases p with
  | matchAll => exact ⟨.matchAll, _, rfl, rfl⟩
  | compare field op value => exact ⟨.compare, _, rfl, rfl⟩
  | contains field term => exact ⟨.contains, _, rfl, rfl⟩
  | and left right => exact ⟨.and, _, rfl, rfl⟩
  | or left right => exact ⟨.or, _, rfl, rfl⟩

/-- Members that do not tell a kind are read like those of any object. -/
theorem readMembers_of_ne_kind {members : List (String × Json)} (h : ∀ m ∈ members, m.1 ≠ "kind")
    (depth : Nat) (seen : Bool) :
    readMembers depth seen (Json.nodeMembers members) =
      Json.Node.readMembers depth (Json.nodeMembers members) := by
  induction members with
  | nil => rfl
  | cons m members ih =>
      obtain ⟨key, value⟩ := m
      have hkey : key ≠ "kind" := h (key, value) List.mem_cons_self
      have hmembers := ih fun m hm => h m (List.mem_cons_of_mem _ hm)
      simp only [Json.nodeMembers, readMembers, Json.Node.readMembers, beq_iff_eq, hkey, if_false,
        hmembers]

/-- The kind is judged first, and then all members are read before the predicate is made of them. -/
theorem decode_object {kind : Kind} {name : String} {members : List (String × Json)}
    (hkind : Decoder.named Kind.names name = some kind) (hmembers : ∀ m ∈ members, m.1 ≠ "kind")
    (depth : Nat) :
    decode (depth + 1) (Json.object (("kind", .string name) :: members)).node =
      (Json.Node.readMembers depth (Json.nodeMembers members)).bind fun ms =>
        Json.expect (ofJson (.object (("kind", .string name) :: ms))) := by
  have hname : decodeKind depth (.string (some name)) = .ok kind := by
    simp [decodeKind, Decoder.refine, Decoder.string, hkind, Json.expect, bind, Except.bind]
  have hothers := readMembers_of_ne_kind hmembers depth true
  simp only [decode, Json.node, Json.nodeMembers, readMembers, hname, hothers, Json.Node.inside,
    Json.Node.read, Json.Node.closed, beq_self_eq_true, if_true, bind, Except.bind, pure, Except.pure]
  cases Json.Node.readMembers depth (Json.nodeMembers members) <;> rfl

theorem heightMembers_fields (p : Predicate) : Json.heightMembers p.fields + 1 = p.nesting := by
  obtain ⟨kind, name, -, hjson⟩ := p.exists_json_eq
  have hheight := p.height_json
  simpa [hjson, Json.height, Json.heightMembers] using hheight

/-- A predicate is read back where its containers may be entered. -/
theorem decode_node {p : Predicate} (h : p.Regular) {depth : Nat} (hdeep : p.nesting ≤ depth) :
    decode depth p.json.node = .ok p := by
  obtain ⟨kind, name, hkind, hjson⟩ := p.exists_json_eq
  have hheight := p.heightMembers_fields
  have hmade := ofJson_json h
  cases depth with
  | zero => omega
  | succ depth =>
      have hread := Json.readMembers_nodeMembers depth p.fields (by omega)
      rw [hjson] at hmade
      rw [hjson, decode_object hkind p.ne_kind_of_mem_fields, hread, Except.bind, hmade, Json.expect]

/-- A predicate is not read where its containers are nested too deep. -/
theorem decode_node_of_lt {p : Predicate} {depth : Nat} (hdeep : depth < p.nesting) :
    decode depth p.json.node = .error .malformed := by
  obtain ⟨kind, name, hkind, hjson⟩ := p.exists_json_eq
  have hheight := p.heightMembers_fields
  cases depth with
  | zero =>
      rw [hjson]
      rfl
  | succ depth =>
      have hread := Json.readMembers_nodeMembers_of_lt depth p.fields (by omega)
      rw [hjson, decode_object hkind p.ne_kind_of_mem_fields, hread, Except.bind]

/-- A written predicate whose containers are nested up to 127 deep is read as that predicate, and one
whose containers are nested deeper is no JSON that can be read. -/
theorem parseWith_json_compact {p : Predicate} (h : p.Regular) :
    p.json.height = p.nesting ∧
      (p.nesting ≤ 127 → Json.parseWith decode p.json.compact = .ok p) ∧
      (127 < p.nesting → Json.parseWith decode p.json.compact = .error .malformed) := by
  have hparse := (exact_json h).parseWith_compact decode
  refine ⟨p.height_json, ?_, ?_⟩
  · intro hdeep
    rw [hparse]
    exact decode_node h hdeep
  · intro hdeep
    rw [hparse]
    exact decode_node_of_lt hdeep

/-- A comparison with an instant within a leap second, at the bottom of as many joins. -/
def tower : Nat → Predicate
  | 0 => .compare "PublishDate" .lessThan (.dateTime ⟨⟨-44, 3, 14⟩, 86399, 1500000000⟩)
  | joins + 1 => .and (tower joins) .matchAll

theorem regular_tower (joins : Nat) : (tower joins).Regular := by
  induction joins with
  | zero => exact ⟨rfl, by decide, by decide, by decide⟩
  | succ joins ih => exact ⟨ih, trivial⟩

theorem nesting_tower (joins : Nat) : (tower joins).nesting = joins + 2 := by
  induction joins with
  | zero => rfl
  | succ joins ih =>
      simp only [tower, nesting, ih]
      omega

/-- A tower of 125 joins is read back, and one of 126 joins is not read. -/
theorem parseWith_json_compact_tower :
    Json.parseWith decode (tower 125).json.compact = .ok (tower 125) ∧
      Json.parseWith decode (tower 126).json.compact = .error .malformed := by
  obtain ⟨-, hread, -⟩ := parseWith_json_compact (regular_tower 125)
  obtain ⟨-, -, hdeep⟩ := parseWith_json_compact (regular_tower 126)
  rw [nesting_tower] at hread hdeep
  exact ⟨hread (by decide), hdeep (by decide)⟩

end Predicate

end RecordGate
