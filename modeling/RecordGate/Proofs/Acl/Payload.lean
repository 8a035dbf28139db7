import Mathlib.Data.Nat.Bitwise
import RecordGate.Proofs.Acl.ActionTexts
import RecordGate.Proofs.Acl.Aggregate
import RecordGate.Proofs.Auth.Credential
import RecordGate.Proofs.Json.Accepted
import RecordGate.Proofs.Json.Spellings

/-!
# Spellings of a list

A text stands for a list of entries under either of the two names of a field, with other members
between them, and with the actions as one number or as several whose bits are put together. All such
texts are read as the one list. A field given under both of its names makes the text unreadable.
-/

namespace RecordGate

open Json (Break Decoder GivesTwice Lists Node Slot document exists_of_bind_eq_ok wholeMembers)

namespace EntitlementSet

/-- Numbers of one byte that, put together, have the bits of the actions of a set and of no other
action. -/
structure MadeOf (s : EntitlementSet) (values : List Nat) : Prop where
  bytes : ∀ n ∈ values, n ≤ 255
  actions : ∀ a, s.allows a = true ↔ values.foldr (· ||| ·) 0 &&& a.bit ≠ 0

def numberNode (n : Nat) : Node := .number (some (.int n))

/-- A node that stands for a set: a list of numbers, or one number. -/
inductive Writes (s : EntitlementSet) : Node → Prop
  | list {values : List Nat} : MadeOf s values → Writes s (.array (values.map numberNode) none)
  | mask {n : Nat} : MadeOf s [n] → Writes s (numberNode n)

theorem and_bit_ne_zero_iff {n : Nat} {a : Entitlement} : n &&& a.bit ≠ 0 ↔ n / a.bit % 2 = 1 := by
  have hbit (i : Nat) : n &&& 2 ^ i ≠ 0 ↔ n / 2 ^ i % 2 = 1 := by
    rw [Nat.and_two_pow, Nat.testBit_eq_decide_div_mod_eq]
    by_cases h : n / 2 ^ i % 2 = 1 <;> simp [h]
  cases a
  · exact hbit 0
  · exact hbit 1
  · exact hbit 2
  · exact hbit 3

theorem foldr_or_and_ne_zero_iff {values : List Nat} {b : Nat} :
    values.foldr (· ||| ·) 0 &&& b ≠ 0 ↔ ∃ n ∈ values, n &&& b ≠ 0 := by
  induction values with
  | nil => simp
  | cons n values ih =>
      rw [List.foldr_cons, Nat.and_or_distrib_right, ne_eq, Nat.or_eq_zero_iff, not_and_or,
        List.exists_mem_cons_iff]
      exact or_congr_right ih

/-- Numbers on the wire are read as the set that they make. -/
theorem MadeOf.ofWire_eq {s : EntitlementSet} {values : List Nat} (h : MadeOf s values) :
    ofWire (values.map Int.ofNat) = s := by
  refine ext_allows fun a => Bool.eq_iff_iff.mpr ?_
  rw [ofWire, List.foldl_map, allows_foldl_union_empty, h.actions, foldr_or_and_ne_zero_iff]
  refine exists_congr fun n => and_congr_right fun hn => ?_
  rw [allows_ofWireValue (h.bytes n hn), and_bit_ne_zero_iff]

theorem wireNumber?_nat {n : Nat} (h : n ≤ 255) : wireNumber? (Json.nat n) = some (Int.ofNat n) := by
  have hbounds : -9223372036854775808 ≤ (n : Int) ∧ (n : Int) ≤ 9223372036854775807 := by omega
  simp [wireNumber?, Json.nat, Ranged.ofInt?, hbounds]

theorem wireNumbers?_map_nat {values : List Nat} (h : ∀ n ∈ values, n ≤ 255) :
    wireNumbers? (values.map Json.nat) = some (values.map Int.ofNat) := by
  induction values with
  | nil => rfl
  | cons n values ih =>
      rw [List.forall_mem_cons] at h
      simp only [List.map_cons, wireNumbers?, wireNumber?_nat h.1, ih h.2, bind, Option.bind, pure]

theorem readItems_numbers (depth : Nat) (values : List Nat) :
    Node.readItems depth (values.map numberNode) = .ok (values.map Json.nat) := by
  induction values with
  | nil => rfl
  | cons n values ih =>
      simp only [List.map_cons, Node.readItems, numberNode, Node.read, ih, Json.nat, bind, Except.bind,
        pure, Except.pure]

/-- A node that stands for a set is decoded as the set. -/
theorem decode_of_writes {s : EntitlementSet} {node : Node} (h : s.Writes node) (depth : Nat) :
    decode (depth + 1) node = .ok s := by
  cases h with
  | @list values hmade =>
      have hread : Node.read (depth + 1) (.array (values.map numberNode) none) =
          .ok (.array (values.map Json.nat)) := by
        simp only [Node.read, Node.inside, readItems_numbers, Node.closed, bind, Except.bind, pure,
          Except.pure]
      simp only [decode, Decoder.refine, hread, ofJson?, wireNumbers?_map_nat hmade.bytes,
        Option.map_some, hmade.ofWire_eq, Json.expect, bind, Except.bind]
  | @mask n hmade =>
      have hread : Node.read (depth + 1) (numberNode n) = .ok (Json.nat n) := rfl
      have hbyte : n ≤ 255 := hmade.bytes n List.mem_cons_self
      have hone : ofWireValue (Int.ofNat n) = s := by
        have hset := hmade.ofWire_eq
        simpa [ofWire, union, empty] using hset
      have hjson : ofJson? (Json.nat n) = some s := by
        change (wireNumber? (Json.nat n)).map ofWireValue = some s
        rw [wireNumber?_nat hbyte, Option.map_some, hone]
      simp only [decode, Decoder.refine, hread, hjson, Json.expect, bind, Except.bind]

end EntitlementSet

namespace AclEntry

/-- The members of an object that give a name and a set, each at most once and under one of its two
names, with members of other names anywhere between them. -/
inductive Written : Option String → Option EntitlementSet → List (String × Node) → Prop
  | nil : Written none none []
  | name {key name : String} {bits : Option EntitlementSet} {members : List (String × Node)} :
      key ∈ ["entityName", "EntityName"] → Written none bits members →
        Written (some name) bits ((key, .string (some name)) :: members)
  | bits {key : String} {node : Node} {name : Option String} {bits : EntitlementSet}
      {members : List (String × Node)} :
      key ∈ ["entitlementBits", "Action"] → bits.Writes node → Written name none members →
        Written name (some bits) ((key, node) :: members)
  | other {key : String} {node : Node} {name : Option String} {bits : Option EntitlementSet}
      {members : List (String × Node)} :
      key ∉ ["entityName", "EntityName", "entitlementBits", "Action"] → node.skip = .ok () →
        Written name bits members → Written name bits ((key, node) :: members)

/-- An object that stands for an entry. The set may be left out when it is empty. -/
def Writes (e : AclEntry) (node : Node) : Prop :=
  ∃ members bits, node = .object (wholeMembers members) none ∧
    Written (some e.entityName) bits members ∧ bits.getD .empty = e.bits

def nameSlot : Slot AclEntry := slots[0]

def bitsSlot : Slot AclEntry := slots[1]

theorem fieldOf?_name {key : String} (h : key ∈ ["entityName", "EntityName"]) :
    Slot.fieldOf? slots key = some nameSlot := by
  simp only [List.mem_cons, List.not_mem_nil, or_false] at h
  rcases h with rfl | rfl <;> simp [Slot.fieldOf?, slots, Slot.answersTo, Slot.of, nameSlot]

theorem fieldOf?_bits {key : String} (h : key ∈ ["entitlementBits", "Action"]) :
    Slot.fieldOf? slots key = some bitsSlot := by
  simp only [List.mem_cons, List.not_mem_nil, or_false] at h
  rcases h with rfl | rfl <;> simp [Slot.fieldOf?, slots, Slot.answersTo, Slot.of, bitsSlot]

theorem fieldOf?_other {key : String}
    (h : key ∉ ["entityName", "EntityName", "entitlementBits", "Action"]) :
    Slot.fieldOf? slots key = none := by
  simp only [List.mem_cons, List.not_mem_nil, or_false, not_or] at h
  obtain ⟨h1, h2, h3, h4⟩ := h
  simp [Slot.fieldOf?, slots, Slot.answersTo, Slot.of, h2, h4, Ne.symm h1, Ne.symm h3]

variable {name : Option String} {bits : Option EntitlementSet} {members : List (String × Node)}
  {seen : List String}

/-- Written members are read into an entry: what they give is stored, and the rest is as it was. -/
theorem fillMembers_of_written (h : Written name bits members) (depth : Nat)
    (hname : name.isSome = true → "entityName" ∉ seen)
    (hbits : bits.isSome = true → "entitlementBits" ∉ seen) (e : AclEntry) :
    ∃ seen', Slot.fillMembers slots (depth + 1) (wholeMembers members) seen e =
        .ok (seen', ⟨name.getD e.entityName, bits.getD e.bits⟩) ∧
      (name.isSome = true → "entityName" ∈ seen') := by
  -- A field that is given has not been seen yet, because the later members do not give it again.
  induction h generalizing seen e with
  | nil => exact ⟨seen, rfl, by simp⟩
  | @name key name bits members hkey hrest ih =>
      have hunseen : nameSlot.name ∉ seen := hname rfl
      have hlater (hsome : bits.isSome = true) : "entitlementBits" ∉ "entityName" :: seen := by
        simp [hbits hsome]
      have hstore : nameSlot.store (depth + 1) (.string (some name)) e =
          .ok { e with entityName := name } := rfl
      obtain ⟨seen', hfill, -⟩ := ih (by simp) hlater { e with entityName := name }
      refine ⟨seen', ?_, fun _ => Slot.seen_subset_of_fillMembers hfill List.mem_cons_self⟩
      rw [Slot.fillMembers_of_answered (fieldOf?_name hkey), if_neg hunseen, hstore]
      exact hfill
  | @bits key node name bits members hkey hwrites hrest ih =>
      have hunseen : bitsSlot.name ∉ seen := hbits rfl
      have hlater (hsome : name.isSome = true) : "entityName" ∉ "entitlementBits" :: seen := by
        simp [hname hsome]
      have hstore : bitsSlot.store (depth + 1) node e = .ok { e with bits } :=
        Slot.store_of_eq_ok_iff.mpr ⟨bits, EntitlementSet.decode_of_writes hwrites depth, rfl⟩
      obtain ⟨seen', hfill, hseen⟩ := ih hlater (by simp) { e with bits }
      refine ⟨seen', ?_, hseen⟩
      rw [Slot.fillMembers_of_answered (fieldOf?_bits hkey), if_neg hunseen, hstore]
      exact hfill
  | @other key node name bits members hkey hskip hrest ih =>
      obtain ⟨seen', hfill, hseen⟩ := ih hname hbits e
      refine ⟨seen', ?_, hseen⟩
      rw [Slot.fillMembers_of_unanswered (fieldOf?_other hkey), hskip]
      exact hfill

/-- An object that stands for an entry is decoded as the entry. -/
theorem decode_of_writes {e : AclEntry} {node : Node} (h : e.Writes node) (depth : Nat) :
    decode (depth + 2) node = .ok e := by
  obtain ⟨members, bits, rfl, hwritten, hbits⟩ := h
  obtain ⟨seen, hfill, hseen⟩ := fillMembers_of_written hwritten depth (fun _ => List.not_mem_nil)
    (fun _ => List.not_mem_nil) ⟨"", .empty⟩
  have hcomplete : Slot.complete slots seen = true := by
    simp [Slot.complete, slots, Slot.of, hseen rfl]
  rw [Option.getD_some, hbits] at hfill
  simp only [decode, Slot.record, Node.inside, hfill, Node.closed, hcomplete, bind, Except.bind,
    if_true]

/-- Two names of one field. -/
def SameField (key key' : String) : Prop :=
  (key = "entityName" ∧ key' = "EntityName") ∨ (key = "entitlementBits" ∧ key' = "Action")

/-- An object in which a field is given under both of its names is not decoded. -/
theorem decode_ne_of_twice {raw : List (Option String × Node)} {cut : Option Break}
    {key key' : String} {node node' : Node} (hsame : SameField key key')
    (hnode : (some key, node) ∈ raw) (hnode' : (some key', node') ∈ raw) (depth : Nat)
    (e : AclEntry) : decode depth (.object raw cut) ≠ .ok e := by
  have htwice : GivesTwice (slots.map Slot.names) raw := by
    rcases hsame with ⟨rfl, rfl⟩ | ⟨rfl, rfl⟩
    · exact ⟨_, .head _, "entityName", .head _, "EntityName", .tail _ (.head _), by simp,
        ⟨node, hnode⟩, ⟨node', hnode'⟩⟩
    · exact ⟨_, .tail _ (.head _), "entitlementBits", .head _, "Action", .tail _ (.head _), by simp,
        ⟨node, hnode⟩, ⟨node', hnode'⟩⟩
  exact Slot.record_ne_of_givesTwice (by decide) htwice _ depth cut e

end AclEntry

namespace Acl

variable {text : String} {nodes : List Node} {cut : Option Break} {trailing : Bool} {acl : Acl}

/-- An array of objects that stand for the entries is read as the list of the entries. -/
theorem ofPayload_of_writes (hdocument : document text.toList = ⟨.array nodes none, false⟩)
    (h : List.Forall₂ AclEntry.Writes acl.entries nodes) : ofPayload text = .ok acl := by
  have hitems : Decoder.items AclEntry.decode 126 nodes = .ok acl.entries :=
    Decoder.items_eq_ok_iff.mpr (h.imp fun _ _ he => AclEntry.decode_of_writes he 124).flip
  have hdecode : decode Json.depthLimit (.array nodes none) = .ok acl := by
    simp only [decode, Decoder.list, Json.depthLimit, Node.inside, hitems, Node.closed, bind,
      Except.bind, pure, Except.pure, Except.map]
  rw [ofPayload, Json.parseWith, hdocument]
  simp only [hdecode, bind, Except.bind, Bool.false_eq_true, if_false]

/-- Every element of an array that is read as a list is decoded as an entry. -/
theorem exists_entry_of_ofPayload (hdocument : document text.toList = ⟨.array nodes cut, trailing⟩)
    (h : ofPayload text = .ok acl) {node : Node} (hnode : node ∈ nodes) :
    ∃ depth e, AclEntry.decode depth node = .ok e := by
  rw [ofPayload, Json.parseWith, hdocument] at h
  obtain ⟨result, hdecode, -⟩ := exists_of_bind_eq_ok h
  rw [decode] at hdecode
  cases hlist : Decoder.list AclEntry.decode Json.depthLimit (.array nodes cut) with
  | error f =>
      rw [hlist] at hdecode
      cases hdecode
  | ok entries =>
      obtain ⟨inner, -, hlist⟩ := exists_of_bind_eq_ok hlist
      obtain ⟨values, hitems, -⟩ := exists_of_bind_eq_ok hlist
      exact ⟨inner, Decoder.exists_of_mem_of_items hitems hnode⟩

/-- Every list is read back from its own text and from every other text that stands for it: an array
of objects, each with either name of a field, with other members, and with its set as numbers of one
byte, as one number, or left out when it is empty. An array with an object that gives a field under
both names is read as no list. -/
theorem ofPayload_spellings (acl : Acl) :
    ofPayload acl.payload = .ok acl ∧
      (∀ text nodes, document text.toList = ⟨.array nodes none, false⟩ →
        List.Forall₂ AclEntry.Writes acl.entries nodes → ofPayload text = .ok acl) ∧
      ∀ text nodes cut trailing, document text.toList = ⟨.array nodes cut, trailing⟩ →
        ∀ raw broken, .object raw broken ∈ nodes →
          ∀ key key' node node', AclEntry.SameField key key' → (some key, node) ∈ raw →
            (some key', node') ∈ raw → ofPayload text ≠ .ok acl := by
  refine ⟨ofPayload_payload acl, fun text nodes => ofPayload_of_writes, ?_⟩
  intro text nodes cut trailing hdocument raw broken hobject key key' node node' hsame hnode hnode' h
  obtain ⟨depth, e, hdecode⟩ := exists_entry_of_ofPayload hdocument h hobject
  exact AclEntry.decode_ne_of_twice hsame hnode hnode' depth e hdecode

def shelves : Acl := ⟨[⟨"Box", .ofBits 10⟩, ⟨"A", .empty⟩]⟩

/-- A text of `shelves` in older names, with an escape, a member of another name, a bit of no action and
a set that is left out. -/
def shelvesText : String :=
  "[ \x7b\"Action\":[2,26],\"x\":null, \"EntityName\":\"B\\u006fx\"\x7d, \x7b\"entityName\":\"A\"\x7d ]"

def shelvesNodes : List Node :=
  [.object (wholeMembers [("Action", .array [.number (some (.int 2)), .number (some (.int 26))] none),
      ("x", .null), ("EntityName", .string (some "Box"))]) none,
    .object (wholeMembers [("entityName", .string (some "A"))]) none]

theorem ofPayload_spellings_shelves :
    ofPayload shelvesText = .ok shelves ∧
      ofPayload "[\x7b\"entityName\":\"A\",\"EntityName\":\"A\"\x7d]" ≠ .ok shelves := by
  have hbits (a : Entitlement) :
      (EntitlementSet.ofBits 10).allows a = true ↔ [2, 26].foldr (· ||| ·) 0 &&& a.bit ≠ 0 := by
    cases a <;> decide
  have hmade : (EntitlementSet.ofBits 10).MadeOf [2, 26] := ⟨by decide, hbits⟩
  have hfirst : AclEntry.Writes ⟨"Box", .ofBits 10⟩ shelvesNodes[0] :=
    ⟨_, _, rfl, .bits (by decide) (.list hmade) (.other (by decide) rfl (.name (by decide) .nil)), rfl⟩
  have hsecond : AclEntry.Writes ⟨"A", .empty⟩ shelvesNodes[1] :=
    ⟨_, _, rfl, .name (by decide) .nil, rfl⟩
  obtain ⟨-, hread, hrefuse⟩ := ofPayload_spellings shelves
  constructor
  · exact hread shelvesText shelvesNodes rfl (.cons hfirst (.cons hsecond .nil))
  · exact hrefuse _ _ none false rfl _ none List.mem_cons_self "entityName" "EntityName"
      (.string (some "A")) (.string (some "A")) (.inl ⟨rfl, rfl⟩) List.mem_cons_self
      (List.mem_cons_of_mem _ List.mem_cons_self)

end Acl

end RecordGate
