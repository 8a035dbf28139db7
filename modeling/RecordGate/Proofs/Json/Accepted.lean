import Mathlib.Data.List.Forall2
import RecordGate.Proofs.Json.Records

/-!
# What decoders accept

A node can be told from what is made of it: texts and truth values are read from themselves only, an
optional text from a text or null, and a list item by item.
-/

namespace RecordGate.Json

theorem Node.eq_none_of_closed {cut : Option Break} {u : Unit} (h : closed cut = .ok u) :
    cut = none := by
  cases cut with
  | none => rfl
  | some broken => cases h

mutual

/-- What is read from a node shows the node. -/
theorem Node.eq_of_read {depth : Nat} {node : Node} {v : Json} (h : node.read depth = .ok v) :
    node = v.node := by
  match node with
  | .null =>
      cases h
      rfl
  | .bool b =>
      cases h
      rfl
  | .number (some n) =>
      cases h
      rfl
  | .number none => cases h
  | .string (some s) =>
      cases h
      rfl
  | .string none => cases h
  | .array items cut =>
      obtain ⟨inner, -, h⟩ := exists_of_bind_eq_ok h
      obtain ⟨values, hvalues, h⟩ := exists_of_bind_eq_ok h
      obtain ⟨u, hclosed, h⟩ := exists_of_bind_eq_ok h
      cases h
      rw [eq_none_of_closed hclosed, eq_of_readItems hvalues, Json.node]
  | .object members cut =>
      obtain ⟨inner, -, h⟩ := exists_of_bind_eq_ok h
      obtain ⟨values, hvalues, h⟩ := exists_of_bind_eq_ok h
      obtain ⟨u, hclosed, h⟩ := exists_of_bind_eq_ok h
      cases h
      rw [eq_none_of_closed hclosed, eq_of_readMembers hvalues, Json.node]
  | .fault broken => cases h

theorem Node.eq_of_readItems {depth : Nat} {items : List Node} {values : List Json}
    (h : readItems depth items = .ok values) : items = nodeItems values := by
  match items with
  | [] =>
      cases h
      rfl
  | item :: rest =>
      obtain ⟨v, hv, h⟩ := exists_of_bind_eq_ok h
      obtain ⟨vs, hvs, h⟩ := exists_of_bind_eq_ok h
      cases h
      rw [eq_of_read hv, eq_of_readItems hvs, nodeItems]

theorem Node.eq_of_readMembers {depth : Nat} {members : List (Option String × Node)}
    {values : List (String × Json)} (h : readMembers depth members = .ok values) :
    members = nodeMembers values := by
  match members with
  | [] =>
      cases h
      rfl
  | (none, node) :: rest => cases h
  | (some key, node) :: rest =>
      obtain ⟨v, hv, h⟩ := exists_of_bind_eq_ok h
      obtain ⟨vs, hvs, h⟩ := exists_of_bind_eq_ok h
      cases h
      rw [eq_of_read hv, eq_of_readMembers hvs, nodeMembers]

end

theorem Node.read_eq_string_iff {depth : Nat} {node : Node} {s : String} :
    node.read depth = .ok (.string s) ↔ node = .string (some s) := by
  constructor
  · exact eq_of_read
  · rintro rfl
    rfl

theorem Node.read_eq_bool_iff {depth : Nat} {node : Node} {b : Bool} :
    node.read depth = .ok (.bool b) ↔ node = .bool b := by
  constructor
  · exact eq_of_read
  · rintro rfl
    rfl

/-- A text that is parsed as a value has the tree of the value. -/
theorem root_of_parse {text : String} {v : Json} (h : parse text = .ok v) :
    (document text.toList).root = v.node ∧ (document text.toList).trailing = false := by
  obtain ⟨value, hvalue, h⟩ := exists_of_bind_eq_ok h
  cases htrailing : (document text.toList).trailing with
  | true =>
      simp only [htrailing, if_true] at h
      cases h
  | false =>
      simp only [htrailing, Bool.false_eq_true, if_false, Except.ok.injEq] at h
      exact ⟨h ▸ Node.eq_of_read hvalue, rfl⟩

theorem parseWith_of_parse {α : Type} {text : String} {v : Json} (h : parse text = .ok v)
    (decode : Decoder α) : parseWith decode text = decode depthLimit v.node := by
  obtain ⟨hroot, htrailing⟩ := root_of_parse h
  rw [parseWith, hroot, htrailing]
  cases decode depthLimit v.node <;> rfl

namespace Decoder

section Texts

variable {depth : Nat} {node : Node} {s : String}

theorem string_eq_ok_iff : string depth node = .ok s ↔ node = .string (some s) := by
  cases node with
  | string content => cases content <;> simp [string]
  | null => simp [string]
  | bool b => simp [string]
  | number n => simp [string]
  | array items cut => simp [string]
  | object members cut => simp [string]
  | fault broken => simp [string]

theorem option_of_ne_null {α : Type} {decode : Decoder α} (h : node ≠ .null) :
    option decode depth node = (decode depth node).map some := by
  cases node with
  | null => exact absurd rfl h
  | _ => rfl

theorem option_string_iff : option string depth node = .ok (some s) ↔ node = .string (some s) := by
  by_cases hnull : node = .null
  · simp [hnull, option]
  · rw [option_of_ne_null hnull, ← string_eq_ok_iff]
    cases string depth node <;> simp [Except.map]

theorem exists_option_string_iff :
    (∃ value, option string depth node = .ok value) ↔
      node = .null ∨ ∃ s, node = .string (some s) := by
  by_cases hnull : node = .null
  · simp [hnull, option]
  · have hstring (s : String) : node = .string (some s) ↔ string depth node = .ok s :=
      string_eq_ok_iff.symm
    simp only [hnull, false_or, option_of_ne_null hnull, hstring]
    cases string depth node <;> simp [Except.map]

end Texts

/-- Items are decoded one by one. -/
theorem items_eq_ok_iff {α : Type} {decode : Decoder α} {depth : Nat} {nodes : List Node}
    {values : List α} :
    items decode depth nodes = .ok values ↔
      List.Forall₂ (fun node a => decode depth node = .ok a) nodes values := by
  induction nodes generalizing values with
  | nil => simp [items, eq_comm]
  | cons node nodes ih =>
      constructor
      · intro h
        obtain ⟨a, ha, h⟩ := exists_of_bind_eq_ok h
        obtain ⟨rest, hrest, h⟩ := exists_of_bind_eq_ok h
        cases h
        exact .cons ha (ih.mp hrest)
      · rintro (_ | ⟨ha, hrest⟩)
        simp only [items, ha, ih.mpr hrest, bind, Except.bind, pure, Except.pure]

/-- Every item of a list that is decoded is decoded. -/
theorem exists_of_mem_of_items {α : Type} {decode : Decoder α} {depth : Nat} {nodes : List Node}
    {values : List α} (h : items decode depth nodes = .ok values) {node : Node} (hnode : node ∈ nodes) :
    ∃ a, decode depth node = .ok a := by
  rw [items_eq_ok_iff] at h
  induction h with
  | nil => cases hnode
  | cons ha _ ih =>
      rcases List.mem_cons.mp hnode with rfl | hlater
      · exact ⟨_, ha⟩
      · exact ih hlater

end Decoder

end RecordGate.Json
