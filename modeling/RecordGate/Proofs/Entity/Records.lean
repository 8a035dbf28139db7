import RecordGate.Proofs.Filter.PredicateJson
import RecordGate.Proofs.Json.Members
import RecordGate.Service.Resource

/-!
# Records through JSON

A record is read back from the form in which it is written: every field is written, also one that is
null, so nothing that an absent field would have comes in its place.
-/

namespace RecordGate

open Json (Decoder Slot)

/-- The days and instants of a record are ones of the calendar, and it has no floats. -/
def Schema.Regular {ρ : Type} (schema : Schema ρ) (record : ρ) : Prop :=
  ∀ f ∈ schema.fields, (f.read record).Regular

namespace Json.Decoder

variable (depth : Nat)

theorem option_string_node (o : Option String) :
    option string depth (Json.ofOption .string o).node = .ok o :=
  option_node (fun _ => by simp [node]) fun _ _ => rfl

theorem option_uuid_node (o : Option Uuid) :
    option uuid depth (Json.ofOption (fun u => .string u.text) o).node = .ok o :=
  option_node (fun _ => by simp [node]) fun u _ => uuid_node depth u

theorem option_ranged_node {low high : Int} (o : Option (Ranged low high)) :
    option (ranged low high) depth (Json.ofOption (fun n => Json.int n.val) o).node = .ok o :=
  option_node (fun _ => by simp [node, Json.int]) fun n _ => ranged_node depth n

theorem option_dateTime_node {o : Option Instant} (h : (Value.ofOption .dateTime o).Regular) :
    option dateTime depth (Json.ofOption (fun t => .string t.zuluText) o).node = .ok o := by
  refine option_node (fun _ => by simp [node]) fun t ht => dateTime_node ?_ depth
  subst ht
  exact h

theorem option_date_node {o : Option Date} (h : (Value.ofOption .date o).Regular) :
    option date depth (Json.ofOption (fun d => .string d.text) o).node = .ok o := by
  refine option_node (fun _ => by simp [node]) fun d hd => date_node ?_ depth
  subst hd
  exact h

end Json.Decoder

namespace Author

theorem exact_json (a : Author) : a.json.Exact := by
  simp [json, Json.exact_ofOption]

theorem height_json (a : Author) : a.json.height = 1 := by
  simp [json, Json.height, Json.heightMembers, Json.height_ofOption_text,
    Json.height_ofOption_string]

theorem decode_node {a : Author} (h : schema.Regular a) (fresh : Uuid) (depth : Nat) :
    decode fresh (depth + 1) a.json.node = .ok a := by
  have hbirth : (Value.ofOption .date a.birthDate).Regular :=
    h ⟨"BirthDate", .date, fun a => Value.ofOption .date a.birthDate⟩ (by simp [schema])
  have hzip := Slot.record_zip slots
    [(Json.string a.id.text).node, (Json.ofOption .string a.name).node,
      (Json.ofOption .string a.biography).node,
      (Json.ofOption (fun d => .string d.text) a.birthDate).node, (Json.bool a.isActive).node,
      (Json.ofOption (fun u => .string u.text) a.tenantId).node]
    (by decide) (by decide) rfl { id := fresh } (depth + 1)
  refine hzip.trans ?_
  have hactive : Decoder.bool depth (Json.bool a.isActive).node = .ok a.isActive := rfl
  simp only [Slot.record, Json.Node.inside, slots, Slot.fillItems, Slot.of, Decoder.uuid_node,
    Decoder.option_string_node, Decoder.option_date_node depth hbirth, hactive,
    Decoder.option_uuid_node, bind, Except.bind, Except.map, Json.Node.closed, pure, Except.pure]

end Author

namespace Book

theorem exact_json (b : Book) : b.json.Exact := by
  have hnumber (n : Integer32) : (Json.int n.val).Exact :=
    Json.exact_int n (by decide) (by decide)
  simp [json, Json.exact_ofOption, hnumber]

theorem height_json (b : Book) : b.json.height = 1 := by
  simp [json, Json.height, Json.heightMembers, Json.height_ofOption_text,
    Json.height_ofOption_string, Json.height_ofOption_int]

theorem decode_node {b : Book} (h : schema.Regular b) (fresh : Uuid) (depth : Nat) :
    decode fresh (depth + 1) b.json.node = .ok b := by
  have hpublish : (Value.ofOption .dateTime b.publishDate).Regular :=
    h ⟨"PublishDate", .dateTime, fun b => Value.ofOption .dateTime b.publishDate⟩ (by simp [schema])
  have hcreated : (Value.ofOption .dateTime b.createdOn).Regular :=
    h ⟨"CreatedOn", .dateTime, fun b => Value.ofOption .dateTime b.createdOn⟩ (by simp [schema])
  have hupdated : (Value.ofOption .dateTime b.updatedOn).Regular :=
    h ⟨"UpdatedOn", .dateTime, fun b => Value.ofOption .dateTime b.updatedOn⟩ (by simp [schema])
  have hzip := Slot.record_zip slots
    [(Json.string b.id.text).node, (Json.ofOption .string b.title).node,
      (Json.ofOption (fun u => .string u.text) b.authorId).node,
      (Json.ofOption .string b.genre).node, (Json.ofOption .string b.publication).node,
      (Json.ofOption (fun t => .string t.zuluText) b.publishDate).node,
      (Json.ofOption (fun n => Json.int n.val) b.price).node,
      (Json.ofOption (fun n => Json.int n.val) b.quantity).node,
      (Json.ofOption (fun u => .string u.text) b.tenantId).node,
      (Json.ofOption (fun t => .string t.zuluText) b.createdOn).node,
      (Json.ofOption (fun u => .string u.text) b.createdBy).node,
      (Json.ofOption (fun t => .string t.zuluText) b.updatedOn).node,
      (Json.ofOption (fun u => .string u.text) b.updatedBy).node]
    (by decide) (by decide) rfl { id := fresh } (depth + 1)
  refine hzip.trans ?_
  simp only [Slot.record, Json.Node.inside, slots, Slot.fillItems, Slot.of, Decoder.uuid_node,
    Decoder.option_string_node, Decoder.option_uuid_node, Decoder.option_ranged_node,
    Decoder.option_dateTime_node depth hpublish, Decoder.option_dateTime_node depth hcreated,
    Decoder.option_dateTime_node depth hupdated, bind, Except.bind, Except.map, Json.Node.closed,
    pure, Except.pure]

end Book

end RecordGate
