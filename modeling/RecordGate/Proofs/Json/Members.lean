import Mathlib.Data.List.Pairwise
import RecordGate.Proofs.Json.Records

/-!
# Records from the members of an object

What a record holds after reading an object follows member by member: a field is what was decoded
from the one member that it answers to, or has the value from the start when there is none. Such a
reading succeeds when no field is given twice, each member can be decoded or passed over, and every
field that must be there is.
-/

namespace RecordGate.Json

/-- Members whose names are whole, as they stand in a tree. -/
def wholeMembers (members : List (String × Node)) : List (Option String × Node) :=
  members.map fun m => (some m.1, m.2)

/-- A text holds an object with these members and nothing else. -/
def Lists (text : String) (members : List (String × Node)) : Prop :=
  document text.toList = ⟨.object (wholeMembers members) none, false⟩

theorem Lists.parseWith_eq {α : Type} {text : String} {members : List (String × Node)}
    (h : Lists text members) (decode : Decoder α) :
    parseWith decode text = decode depthLimit (.object (wholeMembers members) none) := by
  rw [parseWith, h]
  cases decode depthLimit (.object (wholeMembers members) none) <;> rfl

/-- A text holds one object at most. -/
theorem Lists.eq_of_lists {text : String} {members members' : List (String × Node)}
    (h : Lists text members) (h' : Lists text members') : members = members' := by
  have hwhole : wholeMembers members = wholeMembers members' := by
    rw [Lists, h', Document.mk.injEq, Node.object.injEq] at h
    exact h.1.1.symm
  refine List.map_injective_iff.mpr ?_ hwhole
  intro m n hmn
  simpa [Prod.ext_iff] using hmn

/-- A value was decoded from every member of a name, and is a given one when no member has the name. -/
def Gives {β : Type} (members : List (String × Node)) (depth : Nat) (name : String)
    (decode : Decoder β) (absent value : β) : Prop :=
  (∀ node, (name, node) ∈ members → decode depth node = .ok value) ∧
    ((∀ node, (name, node) ∉ members) → value = absent)

/-- A value other than the given one was decoded from a member. -/
theorem Gives.eq_iff {β : Type} {members : List (String × Node)} {depth : Nat} {name : String}
    {decode : Decoder β} {absent value b : β} (h : Gives members depth name decode absent value)
    (hne : b ≠ absent) :
    value = b ↔ ∃ node, (name, node) ∈ members ∧ decode depth node = .ok b := by
  constructor
  · rintro rfl
    by_contra hnone
    exact hne (h.2 fun node hnode => hnone ⟨node, hnode, h.1 node hnode⟩)
  · rintro ⟨node, hnode, hdecode⟩
    rw [h.1 node hnode, Except.ok.injEq] at hdecode
    exact hdecode

namespace Slot

section Fields

variable {δ β γ : Type} {get : δ → β} {set : γ → δ → δ} {name : String} {aliases : List String}
  {absence : Absence} {decode : Decoder γ} {depth : Nat} {node : Node} {d d' : δ}

/-- What a field stores leaves a part of the record alone. -/
def Keeps (get : δ → β) (slot : Slot δ) : Prop :=
  ∀ depth node d d', slot.store depth node d = .ok d' → get d' = get d

/-- A field stores what it decodes in a part of the record, which all other fields leave alone. -/
structure Fills (slots : List (Slot δ)) (get : δ → β) (slot : Slot δ) (decode : Decoder β) : Prop where
  stores : ∀ depth node d d', slot.store depth node d = .ok d' → decode depth node = .ok (get d')
  kept : ∀ other ∈ slots, other.name ≠ slot.name → Keeps get other

@[simp] theorem name_of : (Slot.of name aliases absence decode set).name = name := rfl

theorem store_of_eq_ok_iff :
    (Slot.of name aliases absence decode set).store depth node d = .ok d' ↔
      ∃ c, decode depth node = .ok c ∧ set c d = d' := by
  change (decode depth node).map _ = _ ↔ _
  cases decode depth node <;> simp [Except.map]

theorem exists_store_of (h : ∃ c, decode depth node = .ok c) (d : δ) :
    ∃ d', (Slot.of name aliases absence decode set).store depth node d = .ok d' := by
  obtain ⟨c, hc⟩ := h
  exact ⟨set c d, store_of_eq_ok_iff.mpr ⟨c, hc, rfl⟩⟩

theorem keeps_of (h : ∀ c d, get (set c d) = get d) :
    Keeps get (.of name aliases absence decode set) := by
  intro depth node d d' hstore
  obtain ⟨c, -, rfl⟩ := store_of_eq_ok_iff.mp hstore
  exact h c d

theorem fills_of {slots : List (Slot δ)} {get : δ → γ} (h : ∀ c d, get (set c d) = c)
    (hkept : ∀ other ∈ slots, other.name ≠ name → Keeps get other) :
    Fills slots get (.of name aliases absence decode set) decode where
  stores depth node d d' hstore := by
    obtain ⟨c, hdecode, rfl⟩ := store_of_eq_ok_iff.mp hstore
    rw [h, hdecode]
  kept := hkept

end Fields

variable {δ β : Type} {slots : List (Slot δ)} {slot : Slot δ} {depth : Nat} {d d' start : δ}
  {members : List (String × Node)} {seen seen' : List String}

/-- The field that answers to a name. -/
def fieldOf? (slots : List (Slot δ)) (key : String) : Option (Slot δ) :=
  slots.find? (·.answersTo key)

theorem fillMembers_of_unanswered {m : String × Node} (h : fieldOf? slots m.1 = none) :
    fillMembers slots depth (wholeMembers (m :: members)) seen d =
      m.2.skip >>= fun _ => fillMembers slots depth (wholeMembers members) seen d := by
  rw [fieldOf?] at h
  simp only [wholeMembers, List.map_cons, fillMembers, h]

theorem fillMembers_of_answered {m : String × Node} (h : fieldOf? slots m.1 = some slot) :
    fillMembers slots depth (wholeMembers (m :: members)) seen d =
      if slot.name ∈ seen then .error .mismatch
      else slot.store depth m.2 d >>= fun d =>
        fillMembers slots depth (wholeMembers members) (slot.name :: seen) d := by
  rw [fieldOf?] at h
  simp only [wholeMembers, List.map_cons, fillMembers, h, List.contains_iff_mem]

/-- What the first of several members does when a record is read from all of them. -/
theorem cases_of_fillMembers_cons {m : String × Node}
    (h : fillMembers slots depth (wholeMembers (m :: members)) seen d = .ok (seen', d')) :
    (fieldOf? slots m.1 = none ∧ m.2.skip = .ok () ∧
        fillMembers slots depth (wholeMembers members) seen d = .ok (seen', d')) ∨
      ∃ slot next, fieldOf? slots m.1 = some slot ∧ slot.name ∉ seen ∧
        slot.store depth m.2 d = .ok next ∧
        fillMembers slots depth (wholeMembers members) (slot.name :: seen) next = .ok (seen', d') := by
  cases hfield : fieldOf? slots m.1 with
  | none =>
      rw [fillMembers_of_unanswered hfield] at h
      obtain ⟨u, hskip, h⟩ := exists_of_bind_eq_ok h
      exact .inl ⟨rfl, hskip, h⟩
  | some slot =>
      rw [fillMembers_of_answered hfield] at h
      split_ifs at h with hseen
      obtain ⟨next, hstore, h⟩ := exists_of_bind_eq_ok h
      exact .inr ⟨slot, next, rfl, hseen, hstore, h⟩

theorem eq_wholeMembers_of_fillMembers {raw : List (Option String × Node)} {p : List String × δ}
    (h : fillMembers slots depth raw seen d = .ok p) : ∃ members, raw = wholeMembers members := by
  induction raw generalizing seen d with
  | nil => exact ⟨[], rfl⟩
  | cons m raw ih =>
      obtain ⟨key, node⟩ := m
      cases key with
      | none => cases h
      | some key =>
          have hrest : ∃ seen d, fillMembers slots depth raw seen d = .ok p := by
            rw [fillMembers] at h
            split at h
            · obtain ⟨u, -, h⟩ := exists_of_bind_eq_ok h
              exact ⟨_, _, h⟩
            · split_ifs at h
              obtain ⟨next, -, h⟩ := exists_of_bind_eq_ok h
              exact ⟨_, _, h⟩
          obtain ⟨seen, d, hrest⟩ := hrest
          obtain ⟨members, rfl⟩ := ih hrest
          exact ⟨(key, node) :: members, rfl⟩

/-- Only fields that have not been seen are read from later members. -/
theorem not_mem_seen_of_fillMembers
    (h : fillMembers slots depth (wholeMembers members) seen d = .ok (seen', d'))
    {m : String × Node} (hm : m ∈ members) (hfield : fieldOf? slots m.1 = some slot) :
    slot.name ∉ seen := by
  induction members generalizing seen d with
  | nil => cases hm
  | cons n members ih =>
      rcases cases_of_fillMembers_cons h with ⟨hnone, -, h⟩ | ⟨first, next, hfirst, hseen, -, h⟩
      · rcases List.mem_cons.mp hm with rfl | hm
        · rw [hnone] at hfield
          cases hfield
        · exact ih h hm
      · rcases List.mem_cons.mp hm with rfl | hm
        · rw [hfirst] at hfield
          cases hfield
          exact hseen
        · exact fun hslot => ih h hm (List.mem_cons_of_mem _ hslot)

theorem seen_subset_of_fillMembers
    (h : fillMembers slots depth (wholeMembers members) seen d = .ok (seen', d')) :
    seen ⊆ seen' := by
  induction members generalizing seen d with
  | nil =>
      cases h
      exact fun _ => id
  | cons m members ih =>
      rcases cases_of_fillMembers_cons h with ⟨-, -, h⟩ | ⟨slot, next, -, -, -, h⟩
      · exact ih h
      · exact fun name hname => ih h (List.mem_cons_of_mem _ hname)

/-- Every field that a member answers to has been seen in the end. -/
theorem mem_seen_of_fillMembers
    (h : fillMembers slots depth (wholeMembers members) seen d = .ok (seen', d'))
    {m : String × Node} (hm : m ∈ members) (hfield : fieldOf? slots m.1 = some slot) :
    slot.name ∈ seen' := by
  induction members generalizing seen d with
  | nil => cases hm
  | cons n members ih =>
      rcases cases_of_fillMembers_cons h with ⟨hnone, -, h⟩ | ⟨first, next, hfirst, -, -, h⟩
      · rcases List.mem_cons.mp hm with rfl | hm
        · rw [hnone] at hfield
          cases hfield
        · exact ih h hm
      · rcases List.mem_cons.mp hm with rfl | hm
        · rw [hfirst] at hfield
          cases hfield
          exact seen_subset_of_fillMembers h List.mem_cons_self
        · exact ih h hm

/-- No two members are read as one field. -/
theorem pairwise_of_fillMembers
    (h : fillMembers slots depth (wholeMembers members) seen d = .ok (seen', d')) :
    members.Pairwise fun m n =>
      ∀ slot, fieldOf? slots m.1 = some slot → fieldOf? slots n.1 ≠ some slot := by
  induction members generalizing seen d with
  | nil => exact .nil
  | cons m members ih =>
      rcases cases_of_fillMembers_cons h with ⟨hnone, -, h⟩ | ⟨first, next, hfirst, -, -, h⟩
      · refine .cons (fun n _ slot hslot => ?_) (ih h)
        rw [hnone] at hslot
        cases hslot
      · refine .cons (fun n hn slot hslot hlater => ?_) (ih h)
        rw [hfirst] at hslot
        cases hslot
        exact not_mem_seen_of_fillMembers h hn hlater List.mem_cons_self

/-- Different members are read as different fields. -/
theorem fieldOf?_ne_of_fillMembers
    (h : fillMembers slots depth (wholeMembers members) seen d = .ok (seen', d'))
    {m n : String × Node} (hm : m ∈ members) (hn : n ∈ members) (hne : m ≠ n)
    (hslot : fieldOf? slots m.1 = some slot) : fieldOf? slots n.1 ≠ some slot := by
  have : Std.Symm fun m n : String × Node =>
      ∀ slot, fieldOf? slots m.1 = some slot → fieldOf? slots n.1 ≠ some slot :=
    ⟨fun m n hmn slot hn hm => hmn slot hm hn⟩
  exact (pairwise_of_fillMembers h).forall hm hn hne slot hslot

section Parts

variable {get : δ → β} {decode : Decoder β}

theorem ne_name_of_ne (distinct : (slots.map Slot.name).Nodup) {key : String} {other : Slot δ}
    (mem : slot ∈ slots) (hother : fieldOf? slots key = some other) (hne : other ≠ slot) :
    other.name ≠ slot.name := fun hname =>
  hne (List.inj_on_of_nodup_map distinct (List.mem_of_find?_eq_some hother) mem hname)

/-- A part of a record that all the fields leave alone is as it was. -/
theorem get_of_fillMembers_of_keeps
    (h : fillMembers slots depth (wholeMembers members) seen d = .ok (seen', d'))
    (hkept : ∀ m ∈ members, ∀ other, fieldOf? slots m.1 = some other → Keeps get other) :
    get d' = get d := by
  induction members generalizing seen d with
  | nil =>
      cases h
      rfl
  | cons m members ih =>
      rw [List.forall_mem_cons] at hkept
      rcases cases_of_fillMembers_cons h with ⟨-, -, h⟩ | ⟨other, next, hother, -, hstore, h⟩
      · exact ih h hkept.2
      · exact (ih h hkept.2).trans (hkept.1 other hother depth m.2 d next hstore)

/-- A part of a record that no member is read into is as it was. -/
theorem get_of_fillMembers_of_absent (distinct : (slots.map Slot.name).Nodup) (mem : slot ∈ slots)
    (hfills : Fills slots get slot decode)
    (h : fillMembers slots depth (wholeMembers members) seen d = .ok (seen', d'))
    (habsent : ∀ m ∈ members, fieldOf? slots m.1 ≠ some slot) : get d' = get d := by
  refine get_of_fillMembers_of_keeps h fun m hm other hother => ?_
  have hne : other ≠ slot := by
    rintro rfl
    exact habsent m hm hother
  exact hfills.kept other (List.mem_of_find?_eq_some hother) (ne_name_of_ne distinct mem hother hne)

/-- A part of a record is what was decoded from the member that is read into it. -/
theorem get_of_fillMembers (distinct : (slots.map Slot.name).Nodup) (mem : slot ∈ slots)
    (hfills : Fills slots get slot decode)
    (h : fillMembers slots depth (wholeMembers members) seen d = .ok (seen', d'))
    {m : String × Node} (hm : m ∈ members) (hfield : fieldOf? slots m.1 = some slot) :
    decode depth m.2 = .ok (get d') := by
  induction members generalizing seen d with
  | nil => cases hm
  | cons n members ih =>
      rcases cases_of_fillMembers_cons h with ⟨hnone, -, h⟩ | ⟨first, next, hfirst, -, hstore, h⟩
      · rcases List.mem_cons.mp hm with rfl | hm
        · rw [hnone] at hfield
          cases hfield
        · exact ih h hm
      · rcases List.mem_cons.mp hm with rfl | hm
        · rw [hfirst] at hfield
          cases hfield
          -- The later members are read into other fields, because this one has been seen.
          have hlater : get d' = get next := get_of_fillMembers_of_absent distinct mem hfills h
            fun n hn hn' => not_mem_seen_of_fillMembers h hn hn' List.mem_cons_self
          rw [hlater]
          exact hfills.stores depth m.2 d next hstore
        · exact ih h hm

end Parts

/-- The members of an object can be read as a record: no field is given twice, other members can be
passed over, those of a field can be stored, and the fields that must be there are. -/
structure Suits (slots : List (Slot δ)) (depth : Nat) (members : List (String × Node)) : Prop where
  once : members.Pairwise fun m n =>
    ∀ slot, fieldOf? slots m.1 = some slot → fieldOf? slots n.1 ≠ some slot
  passed : ∀ m ∈ members, fieldOf? slots m.1 = none → m.2.skip = .ok ()
  stored : ∀ m ∈ members, ∀ slot, fieldOf? slots m.1 = some slot →
    ∀ d, ∃ d', slot.store depth m.2 d = .ok d'
  complete : ∀ slot ∈ slots, slot.absence = .required →
    ∃ m ∈ members, fieldOf? slots m.1 = some slot

theorem exists_fillMembers (distinct : (slots.map Slot.name).Nodup)
    (once : members.Pairwise fun m n =>
      ∀ slot, fieldOf? slots m.1 = some slot → fieldOf? slots n.1 ≠ some slot)
    (passed : ∀ m ∈ members, fieldOf? slots m.1 = none → m.2.skip = .ok ())
    (stored : ∀ m ∈ members, ∀ slot, fieldOf? slots m.1 = some slot →
      ∀ d, ∃ d', slot.store depth m.2 d = .ok d')
    (unseen : ∀ m ∈ members, ∀ slot, fieldOf? slots m.1 = some slot → slot.name ∉ seen) (d : δ) :
    ∃ seen' d', fillMembers slots depth (wholeMembers members) seen d = .ok (seen', d') := by
  induction members generalizing seen d with
  | nil => exact ⟨seen, d, rfl⟩
  | cons m members ih =>
      rw [List.pairwise_cons] at once
      rw [List.forall_mem_cons] at passed stored unseen
      cases hfield : fieldOf? slots m.1 with
      | none =>
          rw [fillMembers_of_unanswered hfield, passed.1 hfield]
          exact ih once.2 passed.2 stored.2 unseen.2 d
      | some slot =>
          obtain ⟨next, hstore⟩ := stored.1 slot hfield d
          have hlater : ∀ n ∈ members, ∀ other, fieldOf? slots n.1 = some other →
              other.name ∉ slot.name :: seen := by
            intro n hn other hother
            rw [List.mem_cons, not_or]
            refine ⟨?_, unseen.2 n hn other hother⟩
            refine ne_name_of_ne distinct (List.mem_of_find?_eq_some hfield) hother ?_
            rintro rfl
            exact once.1 n hn other hfield hother
          rw [fillMembers_of_answered hfield, if_neg (unseen.1 slot hfield), hstore]
          exact ih once.2 passed.2 stored.2 hlater next

section Objects

/-- A record is read from the members of an object. -/
theorem exists_fillMembers_of_record
    (h : record start slots (depth + 1) (.object (wholeMembers members) none) = .ok d) :
    ∃ seen, fillMembers slots depth (wholeMembers members) [] start = .ok (seen, d) := by
  obtain ⟨inner, hinner, h⟩ := exists_of_bind_eq_ok h
  cases hinner
  obtain ⟨⟨seen, result⟩, hfill, h⟩ := exists_of_bind_eq_ok h
  obtain ⟨u, -, h⟩ := exists_of_bind_eq_ok h
  split_ifs at h
  cases h
  exact ⟨seen, hfill⟩

/-- A text with an object that is read as a record lists whole members and nothing else. -/
theorem exists_lists_of_record {text : String} {raw : List (Option String × Node)}
    {cut : Option Break} {trailing : Bool} (hobject : document text.toList = ⟨.object raw cut, trailing⟩)
    (h : parseWith (record start slots) text = .ok d) : ∃ members, Lists text members := by
  rw [parseWith, hobject] at h
  obtain ⟨result, hread, h⟩ := exists_of_bind_eq_ok h
  obtain ⟨inner, -, hread⟩ := exists_of_bind_eq_ok hread
  obtain ⟨p, hfill, hread⟩ := exists_of_bind_eq_ok hread
  obtain ⟨u, hclosed, -⟩ := exists_of_bind_eq_ok hread
  obtain ⟨members, rfl⟩ := eq_wholeMembers_of_fillMembers hfill
  cases cut with
  | some broken => cases hclosed
  | none =>
      cases trailing with
      | true => cases h
      | false => exact ⟨members, hobject⟩
/-- An object with suitable members is read as a record. -/
theorem Suits.exists_record (distinct : (slots.map Slot.name).Nodup) (h : Suits slots depth members)
    (start : δ) :
    ∃ d, record start slots (depth + 1) (.object (wholeMembers members) none) = .ok d := by
  obtain ⟨seen, d, hfill⟩ := exists_fillMembers distinct h.once h.passed h.stored
    (fun _ _ _ _ => List.not_mem_nil) start
  have hcomplete : Slot.complete slots seen = true := by
    rw [Slot.complete, List.all_eq_true]
    intro slot hslot
    cases habsence : slot.absence with
    | optional => rfl
    | defaulted => rfl
    | required =>
        obtain ⟨m, hm, hfield⟩ := h.complete slot hslot habsence
        have hseen := mem_seen_of_fillMembers hfill hm hfield
        simpa using hseen
  refine ⟨d, ?_⟩
  simp only [record, Node.inside, hfill, Node.closed, hcomplete, bind, Except.bind, if_true]

variable {get : δ → β} {decode : Decoder β}

theorem fieldOf?_name (plain : ∀ s ∈ slots, s.aliases = []) (distinct : (slots.map Slot.name).Nodup)
    (mem : slot ∈ slots) : fieldOf? slots slot.name = some slot := by
  cases hfound : fieldOf? slots slot.name with
  | none => exact absurd rfl (ne_of_find?_answersTo_eq_none plain mem hfound)
  | some found =>
      have hname := name_of_find?_answersTo plain hfound
      rw [List.inj_on_of_nodup_map distinct (List.mem_of_find?_eq_some hfound) mem hname]

/-- Members suit fields with one name each when no name comes twice, the values that no field takes can
be passed over, and every field takes the value of its name. -/
theorem suits_of_plain (plain : ∀ s ∈ slots, s.aliases = [])
    (distinct : (slots.map Slot.name).Nodup) (nodup : (members.map Prod.fst).Nodup)
    (passed : ∀ m ∈ members, m.2.skip = .ok ())
    (stored : ∀ slot ∈ slots, ∀ node, (slot.name, node) ∈ members →
      ∀ d, ∃ d', slot.store depth node d = .ok d')
    (complete : ∀ slot ∈ slots, slot.absence = .required → ∃ node, (slot.name, node) ∈ members) :
    Suits slots depth members where
  once := by
    refine (List.pairwise_map.mp nodup).imp fun hne slot hm hn => hne ?_
    exact (name_of_find?_answersTo plain hm).symm.trans (name_of_find?_answersTo plain hn)
  passed m hm _ := passed m hm
  stored m hm slot hfield := by
    have hname : slot.name = m.1 := name_of_find?_answersTo plain hfield
    exact stored slot (List.mem_of_find?_eq_some hfield) m.2 (hname ▸ hm)
  complete slot hslot hrequired := by
    obtain ⟨node, hnode⟩ := complete slot hslot hrequired
    exact ⟨(slot.name, node), hnode, fieldOf?_name plain distinct hslot⟩

/-- A field with one name only is given by the members of that name, or by the start. -/
theorem gives_of_record (plain : ∀ s ∈ slots, s.aliases = []) (distinct : (slots.map Slot.name).Nodup)
    (mem : slot ∈ slots) (hfills : Fills slots get slot decode)
    (h : record start slots (depth + 1) (.object (wholeMembers members) none) = .ok d) :
    Gives members depth slot.name decode (get start) (get d) := by
  obtain ⟨seen, hfill⟩ := exists_fillMembers_of_record h
  constructor
  · intro node hnode
    exact get_of_fillMembers distinct mem hfills hfill hnode (fieldOf?_name plain distinct mem)
  · intro habsent
    refine get_of_fillMembers_of_absent distinct mem hfills hfill fun m hm hfield => ?_
    have hname : slot.name = m.1 := name_of_find?_answersTo plain hfield
    exact habsent m.2 (hname ▸ hm)

theorem fillMembers_zip (plain : ∀ s ∈ slots, s.aliases = [])
    (distinct : (slots.map Slot.name).Nodup) {rest : List (Slot δ)} {nodes : List Node}
    (mem : ∀ s ∈ rest, s ∈ slots) (nodup : (rest.map Slot.name).Nodup)
    (fresh : ∀ s ∈ rest, s.name ∉ seen) (hlength : nodes.length = rest.length) (d : δ) :
    fillMembers slots depth (wholeMembers ((rest.map Slot.name).zip nodes)) seen d =
      (fillItems depth rest nodes none d).map fun d =>
        ((rest.map Slot.name).reverse ++ seen, d) := by
  induction rest generalizing nodes seen d with
  | nil =>
      obtain rfl : nodes = [] := List.eq_nil_of_length_eq_zero hlength
      rfl
  | cons slot rest ih =>
      cases nodes with
      | nil => cases hlength
      | cons node nodes =>
          rw [List.map_cons, List.nodup_cons] at nodup
          have hfield := fieldOf?_name plain distinct (mem slot List.mem_cons_self)
          have hlater : ∀ s ∈ rest, s.name ∉ slot.name :: seen := by
            intro s hs hseen
            rcases List.mem_cons.mp hseen with hname | hseen
            · exact nodup.1 (hname ▸ List.mem_map_of_mem hs)
            · exact fresh s (List.mem_cons_of_mem _ hs) hseen
          rw [List.map_cons, List.zip_cons_cons, fillMembers_of_answered hfield,
            if_neg (fresh slot List.mem_cons_self)]
          cases hstore : slot.store depth node d with
          | error e => simp only [fillItems, hstore, bind, Except.bind, Except.map]
          | ok d' =>
              have hrest := ih (fun s hs => mem s (List.mem_cons_of_mem _ hs)) nodup.2 hlater
                (Nat.succ.inj hlength) d'
              simp only [fillItems, hstore, bind, Except.bind, hrest, List.reverse_cons,
                List.append_assoc, List.singleton_append]

/-- An object with all fields in their order is read like the array of their values. -/
theorem record_zip (slots : List (Slot δ)) (nodes : List Node)
    (plain : ∀ s ∈ slots, s.aliases = []) (distinct : (slots.map Slot.name).Nodup)
    (hlength : nodes.length = slots.length) (start : δ) (depth : Nat) :
    record start slots depth (.object (wholeMembers ((slots.map Slot.name).zip nodes)) none) =
      record start slots depth (.array nodes none) := by
  cases depth with
  | zero => rfl
  | succ depth =>
      have hfill : fillMembers slots depth (wholeMembers ((slots.map Slot.name).zip nodes)) [] start =
          (fillItems depth slots nodes none start).map fun d =>
            ((slots.map Slot.name).reverse ++ [], d) :=
        fillMembers_zip plain distinct (fun _ hs => hs) distinct (by simp) hlength start
      have hcomplete : complete slots ((slots.map Slot.name).reverse ++ []) = true := by
        simp only [complete, List.all_eq_true, Bool.or_eq_true, List.contains_iff_mem]
        intro slot hslot
        exact .inr (by simpa using ⟨slot, hslot, rfl⟩)
      simp only [record, Node.inside, hfill, bind, Except.bind]
      cases fillItems depth slots nodes none start with
      | error e => rfl
      | ok d => simp only [Except.map, Node.closed, hcomplete, if_true]

end Objects

end Slot

end RecordGate.Json
