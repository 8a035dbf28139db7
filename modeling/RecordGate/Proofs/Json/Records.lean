import Mathlib.Data.List.Nodup
import Mathlib.Tactic.SplitIfs
import RecordGate.Json.Decode

/-!
# What a record was read from

A record that was read holds every field that must be there: in an object it is the first member of
its name, and in an array the element at its place.
-/

namespace RecordGate.Json

theorem exists_of_bind_eq_ok {ε α β : Type} {x : Except ε α} {f : α → Except ε β} {b : β}
    (h : x >>= f = .ok b) : ∃ a, x = .ok a ∧ f a = .ok b := by
  cases x with
  | error e => cases h
  | ok a => exact ⟨a, rfl, h⟩

theorem some_of_expect_eq_ok {α : Type} {o : Option α} {a : α} (h : expect o = .ok a) :
    o = some a := by
  cases o with
  | none => cases h
  | some b =>
      cases h
      rfl

/-- The field of a record with a name and a place in the order of the fields. -/
def Node.field? (name : String) (place : Nat) : Node → Option Node
  | .object members _ => (members.find? fun m => m.1 == some name).map (·.2)
  | .array items _ => items[place]?
  | _ => none

/-- The name that is chosen by a node: a string, or the only member of an object, which is null. -/
def Node.chosen? : Node → Option String
  | .string name => name
  | .object [(name, .null)] none => name
  | _ => none

namespace Decoder

theorem chosen?_of_choice {α : Type} {names : List (String × α)} {depth : Nat} {node : Node} {a : α}
    (h : choice names depth node = .ok a) :
    ∃ name, node.chosen? = some name ∧ named names name = some a := by
  unfold choice at h
  split at h
  case h_1 name => exact ⟨name, rfl, some_of_expect_eq_ok h⟩
  case h_2 cut =>
    obtain ⟨inner, -, h⟩ := exists_of_bind_eq_ok h
    cases cut <;> cases h
  case h_3 key value more cut =>
    obtain ⟨inner, -, h⟩ := exists_of_bind_eq_ok h
    cases key with
    | none => cases h
    | some name =>
        obtain ⟨a', hnamed, h⟩ := exists_of_bind_eq_ok h
        split at h
        · split_ifs at h with hmore
          obtain ⟨u, hclosed, h⟩ := exists_of_bind_eq_ok h
          cases h
          rw [List.isEmpty_iff] at hmore
          subst hmore
          cases cut with
          | some broken => cases hclosed
          | none => exact ⟨name, rfl, some_of_expect_eq_ok hnamed⟩
        · cases h
  case h_4 => cases h
  case h_5 => cases h

end Decoder

namespace Slot

variable {δ β : Type} {slots : List (Slot δ)} {slot : Slot δ} {depth : Nat} {d d' : δ}

theorem exists_decode_of_store {name : String} {aliases : List String} {absence : Absence}
    {decode : Decoder β} {set : β → δ → δ} {node : Node}
    (h : (Slot.of name aliases absence decode set).store depth node d = .ok d') :
    ∃ b, decode depth node = .ok b := by
  change (decode depth node).map _ = _ at h
  cases hdecode : decode depth node with
  | error e =>
      rw [hdecode] at h
      cases h
  | ok b => exact ⟨b, rfl⟩

theorem answersTo_iff {key : String} (h : slot.aliases = []) :
    slot.answersTo key = true ↔ slot.name = key := by
  simp [answersTo, h]

theorem ne_of_find?_answersTo_eq_none {key : String} (plain : ∀ s ∈ slots, s.aliases = [])
    (mem : slot ∈ slots) (h : slots.find? (·.answersTo key) = none) : key ≠ slot.name := by
  rintro rfl
  exact List.find?_eq_none.mp h slot mem ((answersTo_iff (plain slot mem)).mpr rfl)

theorem name_of_find?_answersTo {key : String} (plain : ∀ s ∈ slots, s.aliases = [])
    (h : slots.find? (·.answersTo key) = some slot) : slot.name = key := by
  have hanswers : slot.answersTo key = true := by simpa using List.find?_some h
  exact (answersTo_iff (plain slot (List.mem_of_find?_eq_some h))).mp hanswers

/-- A field that was not seen before the members and is seen after them was read from the first member
of its name. -/
theorem exists_member_of_fillMembers (plain : ∀ s ∈ slots, s.aliases = [])
    (distinct : (slots.map Slot.name).Nodup) (mem : slot ∈ slots)
    {members : List (Option String × Node)} {seen seen' : List String}
    (h : fillMembers slots depth members seen d = .ok (seen', d')) (hnew : slot.name ∉ seen)
    (hseen : slot.name ∈ seen') :
    ∃ node start result,
      (members.find? fun m => m.1 == some slot.name) = some (some slot.name, node) ∧
        slot.store depth node start = .ok result := by
  induction members generalizing seen d with
  | nil =>
      cases h
      exact absurd hseen hnew
  | cons m rest ih =>
      obtain ⟨key, node⟩ := m
      cases key with
      | none => cases h
      | some key =>
          rw [fillMembers] at h
          cases hfind : slots.find? (·.answersTo key) with
          | none =>
              rw [hfind] at h
              obtain ⟨u, -, h⟩ := exists_of_bind_eq_ok h
              have hkey : key ≠ slot.name := ne_of_find?_answersTo_eq_none plain mem hfind
              rw [List.find?_cons_of_neg (by simpa using hkey)]
              exact ih h hnew
          | some found =>
              have hfound : found.name = key := name_of_find?_answersTo plain hfind
              simp only [hfind] at h
              split_ifs at h
              obtain ⟨next, hstore, h⟩ := exists_of_bind_eq_ok h
              by_cases hkey : key = slot.name
              · subst hkey
                have hsame : found = slot :=
                  List.inj_on_of_nodup_map distinct (List.mem_of_find?_eq_some hfind) mem hfound
                subst hsame
                exact ⟨node, d, next, List.find?_cons_of_pos (by simp), hstore⟩
              · rw [List.find?_cons_of_neg (by simpa using hkey)]
                refine ih h ?_
                rw [List.mem_cons, not_or, hfound]
                exact ⟨Ne.symm hkey, hnew⟩

/-- A field that must be there was read from the element at its place. -/
theorem exists_item_of_fillItems {items : List Node} {cut : Option Break} {place : Nat}
    (h : fillItems depth slots items cut d = .ok d') (hslot : slots[place]? = some slot)
    (required : slot.absence = .required) :
    ∃ node start result, items[place]? = some node ∧ slot.store depth node start = .ok result := by
  induction slots generalizing items d place with
  | nil => cases hslot
  | cons first slots ih =>
      cases items with
      | nil =>
          cases cut with
          | some broken => cases h
          | none =>
              rw [fillItems] at h
              split_ifs at h with habsence
              cases place with
              | zero =>
                  cases hslot
                  rw [required] at habsence
                  cases habsence
              | succ place =>
                  obtain ⟨node, start, result, hnode, -⟩ := ih h hslot
                  cases hnode
      | cons node items =>
          obtain ⟨next, hstore, h⟩ := exists_of_bind_eq_ok h
          cases place with
          | zero =>
              cases hslot
              exact ⟨node, d, next, rfl, hstore⟩
          | succ place =>
              obtain ⟨item, start, result, hitem, hread⟩ := ih h hslot
              exact ⟨item, start, result, hitem, hread⟩

/-- A field that must be there was read from the field of the record with its name and its place. -/
theorem exists_field_of_record (plain : ∀ s ∈ slots, s.aliases = [])
    (distinct : (slots.map Slot.name).Nodup) {place : Nat} (hslot : slots[place]? = some slot)
    (required : slot.absence = .required) {node : Node} {start : δ}
    (h : record start slots depth node = .ok d) :
    ∃ field inner before after, node.field? slot.name place = some field ∧
      slot.store inner field before = .ok after := by
  have mem : slot ∈ slots := List.mem_of_getElem? hslot
  cases node with
  | object members cut =>
      obtain ⟨inner, -, h⟩ := exists_of_bind_eq_ok h
      obtain ⟨⟨seen, result⟩, hfill, h⟩ := exists_of_bind_eq_ok h
      obtain ⟨u, -, h⟩ := exists_of_bind_eq_ok h
      split_ifs at h with hcomplete
      have hseen : slot.name ∈ seen := by
        have := List.all_eq_true.mp hcomplete slot mem
        simpa [required] using this
      obtain ⟨field, before, after, hfield, hstore⟩ :=
        exists_member_of_fillMembers plain distinct mem hfill List.not_mem_nil hseen
      exact ⟨field, inner, before, after, by simp [Node.field?, hfield], hstore⟩
  | array items cut =>
      obtain ⟨inner, -, h⟩ := exists_of_bind_eq_ok h
      obtain ⟨field, before, after, hfield, hstore⟩ := exists_item_of_fillItems h hslot required
      exact ⟨field, inner, before, after, hfield, hstore⟩
  | null => cases h
  | bool b => cases h
  | number n => cases h
  | string content => cases h
  | fault broken => cases h

end Slot

end RecordGate.Json
