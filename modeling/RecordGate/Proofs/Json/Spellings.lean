import RecordGate.Proofs.Json.Members

/-!
# Fields under several names

A record whose fields have several names is read from every object that gives each field at most once,
under whichever of its names, in any order and with other members between them. An object that gives a
field under two of its names is read as no record.
-/

namespace RecordGate.Json

/-- The values of the members that have one of some names. -/
def under (names : List String) (members : List (String × Node)) : List Node :=
  (members.filter fun m => names.contains m.1).map Prod.snd

section Under

variable {names : List String} {members : List (String × Node)} {m : String × Node} {node : Node}

theorem under_cons (names : List String) (m : String × Node) (members : List (String × Node)) :
    under names (m :: members) =
      if m.1 ∈ names then m.2 :: under names members else under names members := by
  by_cases h : m.1 ∈ names
  · simp [under, h]
  · simp [under, h]

theorem mem_under (hm : m ∈ members) (hkey : m.1 ∈ names) : m.2 ∈ under names members :=
  List.mem_map_of_mem (List.mem_filter.mpr ⟨hm, List.contains_iff_mem.mpr hkey⟩)

theorem eq_of_under (h : under names members = [node]) (hm : m ∈ members) (hkey : m.1 ∈ names) :
    m.2 = node :=
  List.mem_singleton.mp (h ▸ mem_under hm hkey)

theorem not_mem_of_under (h : under names members = []) (hm : m ∈ members) : m.1 ∉ names := by
  intro hkey
  have hmem := mem_under hm hkey
  rw [h] at hmem
  cases hmem

theorem exists_mem_of_under (h : under names members = [node]) :
    ∃ key ∈ names, (key, node) ∈ members := by
  have hmem : node ∈ under names members := h ▸ List.mem_cons_self
  obtain ⟨m, hm, rfl⟩ := List.mem_map.mp hmem
  obtain ⟨hm, hkey⟩ := List.mem_filter.mp hm
  exact ⟨m.1, List.contains_iff_mem.mp hkey, hm⟩

/-- No two members have names of which at most one is given. -/
theorem pairwise_of_under (h : (under names members).length ≤ 1) :
    members.Pairwise fun m n => m.1 ∈ names → n.1 ∉ names := by
  induction members with
  | nil => exact .nil
  | cons m members ih =>
      rw [under_cons] at h
      rw [List.pairwise_cons]
      split_ifs at h with hkey
      · have hnone : under names members = [] :=
          List.length_eq_zero_iff.mp (Nat.le_zero.mp (Nat.le_of_succ_le_succ h))
        refine ⟨fun n hn _ => not_mem_of_under hnone hn, ih ?_⟩
        rw [hnone]
        exact Nat.zero_le 1
      · exact ⟨fun n _ hm => absurd hm hkey, ih h⟩

end Under

/-- The members give a value once, under one of some names, or leave it out where it is the usual one. -/
def GivesOnce {β : Type} (names : List String) (members : List (String × Node)) (depth : Nat)
    (decode : Decoder β) (usual value : β) : Prop :=
  (∃ node, under names members = [node] ∧ decode depth node = .ok value) ∨
    value = usual ∧ under names members = []

/-- An object gives a field under two of its names. -/
def GivesTwice (spellings : List (List String)) (raw : List (Option String × Node)) : Prop :=
  ∃ names ∈ spellings, ∃ key ∈ names, ∃ key' ∈ names, key ≠ key' ∧
    (∃ node, (some key, node) ∈ raw) ∧ ∃ node, (some key', node) ∈ raw

namespace Slot

variable {δ β : Type} {slots : List (Slot δ)} {slot : Slot δ} {key : String} {depth : Nat}
  {members : List (String × Node)} {start d : δ}

/-- All names of a field. -/
def names (slot : Slot δ) : List String := slot.name :: slot.aliases

theorem answersTo_iff_mem_names : slot.answersTo key = true ↔ key ∈ slot.names := by
  rw [answersTo, Bool.or_eq_true, beq_iff_eq, List.contains_iff_mem, names, List.mem_cons]
  exact or_congr_left eq_comm

theorem mem_names_of_fieldOf? (h : fieldOf? slots key = some slot) : key ∈ slot.names := by
  have hanswers : slot.answersTo key = true := by simpa using List.find?_some h
  exact answersTo_iff_mem_names.mp hanswers

theorem not_mem_names_of_fieldOf? (h : fieldOf? slots key = none) : key ∉ (slots.map names).flatten := by
  rw [← List.flatMap_def]
  intro hkey
  obtain ⟨slot, mem, hslot⟩ := List.mem_flatMap.mp hkey
  exact List.find?_eq_none.mp h slot mem (answersTo_iff_mem_names.mpr hslot)

/-- A name leads to the field that has it, when no two fields share a name. -/
theorem fieldOf?_of_mem_names (apart : (slots.map names).flatten.Nodup) (mem : slot ∈ slots)
    (hkey : key ∈ slot.names) : fieldOf? slots key = some slot := by
  induction slots with
  | nil => cases mem
  | cons first slots ih =>
      rw [List.map_cons, List.flatten_cons, List.nodup_append] at apart
      obtain ⟨-, hrest, hdisjoint⟩ := apart
      rcases List.mem_cons.mp mem with rfl | mem
      · exact List.find?_cons_of_pos (answersTo_iff_mem_names.mpr hkey)
      · have hlater : key ∈ (slots.map names).flatten :=
          List.mem_flatten_of_mem (List.mem_map_of_mem mem) hkey
        have hfirst : ¬ first.answersTo key = true := fun h =>
          hdisjoint key (answersTo_iff_mem_names.mp h) key hlater rfl
        exact (List.find?_cons_of_neg (p := fun s : Slot δ => s.answersTo key) hfirst).trans
          (ih hrest mem)

/-- The members give a field once, as a value that it can store, or they may leave it out and do. -/
def Offered (slot : Slot δ) (depth : Nat) (members : List (String × Node)) : Prop :=
  (∃ node, under slot.names members = [node] ∧ ∀ d, ∃ d', slot.store depth node d = .ok d') ∨
    slot.absence ≠ .required ∧ under slot.names members = []

theorem offered_of_given {name : String} {aliases : List String} {absence : Absence}
    {decode : Decoder β} {set : β → δ → δ} {node : Node} {b : β}
    (hunder : under (name :: aliases) members = [node]) (hdecode : decode depth node = .ok b) :
    (Slot.of name aliases absence decode set).Offered depth members :=
  .inl ⟨node, hunder, exists_store_of ⟨b, hdecode⟩⟩

theorem offered_of_givesOnce {name : String} {aliases : List String} {absence : Absence}
    {decode : Decoder β} {set : β → δ → δ} {usual b : β}
    (h : GivesOnce (name :: aliases) members depth decode usual b) (hoptional : absence ≠ .required) :
    (Slot.of name aliases absence decode set).Offered depth members := by
  rcases h with ⟨node, hunder, hdecode⟩ | ⟨-, hunder⟩
  · exact offered_of_given hunder hdecode
  · exact .inr ⟨hoptional, hunder⟩

theorem suits_of_offered (apart : (slots.map names).flatten.Nodup)
    (offered : ∀ slot ∈ slots, slot.Offered depth members)
    (passed : ∀ m ∈ members, m.1 ∉ (slots.map names).flatten → m.2.skip = .ok ()) :
    Suits slots depth members where
  once := by
    rw [List.pairwise_iff_forall_sublist]
    intro m n hsub slot hm hn
    have hlength : (under slot.names members).length ≤ 1 := by
      obtain ⟨node, hunder, -⟩ | ⟨-, hunder⟩ := offered slot (List.mem_of_find?_eq_some hm)
      · rw [hunder]
        exact Nat.le_refl 1
      · rw [hunder]
        exact Nat.zero_le 1
    exact List.pairwise_iff_forall_sublist.mp (pairwise_of_under hlength) hsub
      (mem_names_of_fieldOf? hm) (mem_names_of_fieldOf? hn)
  passed m hm hnone := passed m hm (not_mem_names_of_fieldOf? hnone)
  stored m hm slot hfield d := by
    obtain ⟨node, hunder, hstore⟩ | ⟨-, hunder⟩ := offered slot (List.mem_of_find?_eq_some hfield)
    · rw [eq_of_under hunder hm (mem_names_of_fieldOf? hfield)]
      exact hstore d
    · exact absurd (mem_names_of_fieldOf? hfield) (not_mem_of_under hunder hm)
  complete slot mem hrequired := by
    obtain ⟨node, hunder, -⟩ | ⟨hoptional, -⟩ := offered slot mem
    · obtain ⟨key, hkey, hm⟩ := exists_mem_of_under hunder
      exact ⟨(key, node), hm, fieldOf?_of_mem_names apart mem hkey⟩
    · exact absurd hrequired hoptional

section Parts

variable {get : δ → β} {decode : Decoder β}

theorem names_nodup (apart : (slots.map names).flatten.Nodup) : (slots.map Slot.name).Nodup := by
  induction slots with
  | nil => exact .nil
  | cons slot slots ih =>
      rw [List.map_cons, List.flatten_cons, List.nodup_append] at apart
      obtain ⟨-, hrest, hdisjoint⟩ := apart
      rw [List.map_cons, List.nodup_cons]
      refine ⟨fun hmem => ?_, ih hrest⟩
      obtain ⟨other, mem, hname⟩ := List.mem_map.mp hmem
      have hlater : other.name ∈ (slots.map names).flatten :=
        List.mem_flatten_of_mem (List.mem_map_of_mem mem) List.mem_cons_self
      exact hdisjoint slot.name List.mem_cons_self other.name hlater hname.symm

/-- A part of a record is what the members give for its field, or what it was at the start when they
leave it out. -/
theorem get_of_givesOnce (apart : (slots.map names).flatten.Nodup) (mem : slot ∈ slots)
    (hfills : Fills slots get slot decode)
    (h : record start slots (depth + 1) (.object (wholeMembers members) none) = .ok d) {b : β}
    (hgives : GivesOnce slot.names members depth decode (get start) b) : get d = b := by
  obtain ⟨seen, hfill⟩ := exists_fillMembers_of_record h
  have distinct := names_nodup apart
  rcases hgives with ⟨node, hunder, hdecode⟩ | ⟨rfl, hunder⟩
  · obtain ⟨key, hkey, hm⟩ := exists_mem_of_under hunder
    have hget := get_of_fillMembers distinct mem hfills hfill hm (fieldOf?_of_mem_names apart mem hkey)
    exact Except.ok.inj (hget.symm.trans hdecode)
  · exact get_of_fillMembers_of_absent distinct mem hfills hfill fun m hm hfield =>
      not_mem_of_under hunder hm (mem_names_of_fieldOf? hfield)

end Parts

/-- An object that gives a field under two of its names is read as no record. -/
theorem record_ne_of_givesTwice (apart : (slots.map names).flatten.Nodup)
    {raw : List (Option String × Node)} (htwice : GivesTwice (slots.map names) raw) (start : δ)
    (depth : Nat) (cut : Option Break) (d : δ) :
    record start slots depth (.object raw cut) ≠ .ok d := by
  obtain ⟨_, hnames, key, hkey, key', hkey', hne, ⟨node, hnode⟩, ⟨node', hnode'⟩⟩ := htwice
  obtain ⟨slot, mem, rfl⟩ := List.mem_map.mp hnames
  intro h
  obtain ⟨inner, -, h⟩ := exists_of_bind_eq_ok h
  obtain ⟨⟨seen, result⟩, hfill, -⟩ := exists_of_bind_eq_ok h
  obtain ⟨members, rfl⟩ := eq_wholeMembers_of_fillMembers hfill
  have hmem : (key, node) ∈ members := by simpa [wholeMembers] using hnode
  have hmem' : (key', node') ∈ members := by simpa [wholeMembers] using hnode'
  exact fieldOf?_ne_of_fillMembers hfill hmem hmem' (by simp [hne])
    (fieldOf?_of_mem_names apart mem hkey) (fieldOf?_of_mem_names apart mem hkey')

end Slot

end RecordGate.Json
