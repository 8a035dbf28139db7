import RecordGate.Json.Decode
import RecordGate.Proofs.Json.Written

/-!
# Reading what was written

A value without blanks is read back as it was, when its numbers are whole numbers of 64 bits. The
tokens of a part of the text take a reader from waiting for a value to having read it, and leave the
open containers around it alone.
-/

namespace RecordGate

theorem Text.toList_join_cons (separator s : String) (rest : List String) :
    (Text.join separator (s :: rest)).toList =
      s.toList ++ rest.flatMap fun t => separator.toList ++ t.toList := by
  induction rest generalizing s with
  | nil => simp [Text.join]
  | cons t rest ih => simp [Text.join, ih]

namespace Json

/-- All numbers of a value are whole numbers of 64 bits, signed or not. -/
inductive Exact : Json → Prop
  | null : Exact .null
  | bool (b : Bool) : Exact (.bool b)
  | int (n : Int) : -9223372036854775808 ≤ n → n < 18446744073709551616 → Exact (.int n)
  | string (s : String) : Exact (.string s)
  | array (items : List Json) : (∀ v ∈ items, Exact v) → Exact (.array items)
  | object (members : List (String × Json)) : (∀ m ∈ members, Exact m.2) → Exact (.object members)

@[simp] theorem exact_string (s : String) : (string s).Exact := .string s

@[simp] theorem exact_bool (b : Bool) : (bool b).Exact := .bool b

@[simp] theorem exact_array_iff {items : List Json} :
    (array items).Exact ↔ ∀ v ∈ items, v.Exact := by
  constructor
  · intro h
    cases h
    assumption
  · exact .array items

@[simp] theorem exact_object_iff {members : List (String × Json)} :
    (object members).Exact ↔ ∀ m ∈ members, m.2.Exact := by
  constructor
  · intro h
    cases h
    assumption
  · exact .object members

theorem compactItems_eq (items : List Json) : compactItems items = items.map compact := by
  induction items with
  | nil => rfl
  | cons v rest ih => rw [compactItems, ih, List.map_cons]

theorem compactMembers_eq (members : List (String × Json)) :
    compactMembers members = members.map fun m => quote m.1 ++ ":" ++ compact m.2 := by
  induction members with
  | nil => rfl
  | cons m rest ih => rw [compactMembers, ih, List.map_cons]

namespace Expecting

/-- The state after a text. -/
def run (e : Expecting) (s : List Char) : Expecting := (tokens s).foldl step e

theorem run_of_tokens {e : Expecting} {s r : List Char} {token : Token}
    (h : tokens s = token :: tokens r) : e.run s = (e.step token).run r := by
  rw [run, h, List.foldl_cons, run]

/-- A value may come next inside the open containers. -/
def Awaits (e : Expecting) (stack : List Frame) : Prop :=
  ∀ token, token ≠ .closeArray → e.step token = startValue stack token

theorem awaits_value (stack : List Frame) : (Expecting.value stack).Awaits stack := by
  intro token _
  rfl

theorem awaits_item (done : List Node) (stack : List Frame) :
    (Expecting.item (.array done :: stack)).Awaits (.array done :: stack) := by
  intro token h
  cases token <;> first | rfl | exact absurd rfl h

end Expecting

open Expecting

/-- The text of a value takes a reader past that value. -/
def Passes (v : Json) : Prop :=
  ∀ e stack r, Awaits e stack → Ends r → e.run (v.compact.toList ++ r) = (rest v.node stack).run r

section Containers

variable {stack : List Frame} {r : List Char}

/-- The elements of an array after one that has been read. -/
def laterItems (items : List Json) : List Char := items.flatMap fun v => ',' :: v.compact.toList

/-- The members of an object after one that has been read. -/
def laterMembers (members : List (String × Json)) : List Char :=
  members.flatMap fun m => ',' :: ((quote m.1).toList ++ ':' :: m.2.compact.toList)

theorem toList_compact_array (v : Json) (items : List Json) :
    (compact (.array (v :: items))).toList =
      '[' :: (v.compact.toList ++ laterItems items ++ [']']) := by
  simp [compact, compactItems_eq, Text.toList_join_cons, laterItems, List.flatMap_map]

theorem toList_compact_object (m : String × Json) (members : List (String × Json)) :
    (compact (.object (m :: members))).toList =
      '\x7b' :: ((quote m.1).toList ++
        ':' :: (m.2.compact.toList ++ laterMembers members ++ ['\x7d'])) := by
  simp [compact, compactMembers_eq, Text.toList_join_cons, laterMembers, List.flatMap_map]

theorem ends_laterItems (items : List Json) : Ends (laterItems items ++ ']' :: r) := by
  cases items with
  | nil => exact ends_closeArray r
  | cons v items => exact ends_comma _

theorem ends_laterMembers (members : List (String × Json)) :
    Ends (laterMembers members ++ '\x7d' :: r) := by
  cases members with
  | nil => exact ends_closeObject r
  | cons m members => exact ends_comma _

theorem run_laterItems {items : List Json} (h : ∀ v ∈ items, Passes v) (w : Node)
    (done : List Node) :
    (rest w (.array done :: stack)).run (laterItems items ++ ']' :: r) =
      (rest (.array ((w :: done).reverse ++ nodeItems items) none) stack).run r := by
  induction items generalizing w done with
  | nil =>
      rw [nodeItems, List.append_nil]
      exact run_of_tokens (tokens_closeArray r)
  | cons v items ih =>
      have hv := h v List.mem_cons_self (.value (.array (w :: done) :: stack))
        (.array (w :: done) :: stack) (laterItems items ++ ']' :: r) (awaits_value _)
        (ends_laterItems items)
      have htext : laterItems (v :: items) ++ ']' :: r =
          ',' :: (v.compact.toList ++ (laterItems items ++ ']' :: r)) := by
        simp [laterItems]
      rw [htext, run_of_tokens (tokens_comma _)]
      simp only [step]
      rw [hv, ih fun u hu => h u (List.mem_cons_of_mem v hu)]
      simp [nodeItems]

theorem run_laterMembers {members : List (String × Json)} (h : ∀ m ∈ members, Passes m.2) (w : Node)
    (key : Option String) (done : List (Option String × Node)) :
    (rest w (.object done key :: stack)).run (laterMembers members ++ '\x7d' :: r) =
      (rest (.object (((key, w) :: done).reverse ++ nodeMembers members) none) stack).run r := by
  induction members generalizing w key done with
  | nil =>
      rw [nodeMembers, List.append_nil]
      exact run_of_tokens (tokens_closeObject r)
  | cons m members ih =>
      have hm := h m List.mem_cons_self (.value (.object ((key, w) :: done) (some m.1) :: stack))
        (.object ((key, w) :: done) (some m.1) :: stack) (laterMembers members ++ '\x7d' :: r)
        (awaits_value _) (ends_laterMembers members)
      have htext : laterMembers (m :: members) ++ '\x7d' :: r =
          ',' :: ((quote m.1).toList ++ ':' :: (m.2.compact.toList ++
            (laterMembers members ++ '\x7d' :: r))) := by
        simp [laterMembers]
      rw [htext, run_of_tokens (tokens_comma _), run_of_tokens (tokens_quote m.1 _),
        run_of_tokens (tokens_colon _)]
      simp only [step]
      rw [hm, ih fun u hu => h u (List.mem_cons_of_mem m hu)]
      simp [nodeMembers]

end Containers

theorem passes_of_token {v : Json} {token : Token} (htoken : token ≠ .closeArray)
    (hread : ∀ r, Ends r → tokens (v.compact.toList ++ r) = token :: tokens r)
    (hstart : ∀ stack, startValue stack token = .rest v.node stack) : Passes v := by
  intro e stack r he hr
  rw [run_of_tokens (hread r hr), he token htoken, hstart]

theorem passes_array {items : List Json} (h : ∀ v ∈ items, Passes v) : Passes (.array items) := by
  intro e stack r he hr
  cases items with
  | nil =>
      have htext : (compact (.array [])).toList ++ r = '[' :: ']' :: r := by
        simp [compact, compactItems, Text.join]
      rw [htext, run_of_tokens (tokens_openArray _), he .openArray (by decide),
        run_of_tokens (tokens_closeArray r)]
      rfl
  | cons v items =>
      have hv := h v List.mem_cons_self (.item (.array [] :: stack)) (.array [] :: stack)
        (laterItems items ++ ']' :: r) (awaits_item [] stack) (ends_laterItems items)
      have htext : (compact (.array (v :: items))).toList ++ r =
          '[' :: (v.compact.toList ++ (laterItems items ++ ']' :: r)) := by
        simp [toList_compact_array]
      rw [htext, run_of_tokens (tokens_openArray _), he .openArray (by decide), startValue, hv,
        run_laterItems fun u hu => h u (List.mem_cons_of_mem v hu)]
      rfl

theorem passes_object {members : List (String × Json)} (h : ∀ m ∈ members, Passes m.2) :
    Passes (.object members) := by
  intro e stack r he hr
  cases members with
  | nil =>
      have htext : (compact (.object [])).toList ++ r = '\x7b' :: '\x7d' :: r := by
        simp [compact, compactMembers, Text.join]
      rw [htext, run_of_tokens (tokens_openObject _), he .openObject (by decide),
        run_of_tokens (tokens_closeObject r)]
      rfl
  | cons m members =>
      have hm := h m List.mem_cons_self (.value (.object [] (some m.1) :: stack))
        (.object [] (some m.1) :: stack) (laterMembers members ++ '\x7d' :: r) (awaits_value _)
        (ends_laterMembers members)
      have htext : (compact (.object (m :: members))).toList ++ r =
          '\x7b' :: ((quote m.1).toList ++ ':' :: (m.2.compact.toList ++
            (laterMembers members ++ '\x7d' :: r))) := by
        simp [toList_compact_object]
      rw [htext, run_of_tokens (tokens_openObject _), he .openObject (by decide), startValue,
        run_of_tokens (tokens_quote m.1 _), run_of_tokens (tokens_colon _)]
      simp only [step]
      rw [hm, run_laterMembers fun u hu => h u (List.mem_cons_of_mem m hu)]
      rfl

theorem Exact.passes {v : Json} (h : Exact v) : Passes v := by
  induction h with
  | null => exact passes_of_token (by decide) (fun r _ => tokens_null r) fun _ => rfl
  | bool b => exact passes_of_token (by simp) (fun r _ => tokens_bool b r) fun _ => rfl
  | int n hlow hhigh =>
      exact passes_of_token (by simp) (fun r hr => tokens_toString hlow hhigh hr) fun _ => rfl
  | string s => exact passes_of_token (by simp) (fun r _ => tokens_quote s r) fun _ => rfl
  | array items _ ih => exact passes_array ih
  | object members _ ih => exact passes_object ih

/-- The tree of a written value is that of the value itself. -/
theorem Exact.document_compact {v : Json} (h : Exact v) :
    document v.compact.toList = ⟨v.node, false⟩ := by
  have hrun := h.passes (.value []) [] [] (awaits_value []) ends_nil
  rw [List.append_nil] at hrun
  rw [document]
  exact congrArg finish hrun

/-- A written value is decoded as the value itself. -/
theorem Exact.parseWith_compact {α : Type} {v : Json} (h : Exact v) (decode : Decoder α) :
    parseWith decode v.compact = decode depthLimit v.node := by
  rw [parseWith, h.document_compact]
  cases decode depthLimit v.node <;> rfl

/-- Elements that are decoded as what they were made of are decoded as the whole list. -/
theorem items_map_node {α : Type} {decode : Decoder α} {f : α → Json} {depth : Nat}
    (h : ∀ a, decode depth (f a).node = .ok a) (l : List α) :
    Decoder.items decode depth (nodeItems (l.map f)) = .ok l := by
  induction l with
  | nil => rfl
  | cons a l ih =>
      simp only [List.map_cons, nodeItems, Decoder.items, h, ih, bind, Except.bind, pure, Except.pure]

section Heights

mutual

/-- How deep the containers of a value are nested. -/
def height : Json → Nat
  | .array items => heightItems items + 1
  | .object members => heightMembers members + 1
  | _ => 0

def heightItems : List Json → Nat
  | [] => 0
  | v :: vs => max (height v) (heightItems vs)

def heightMembers : List (String × Json) → Nat
  | [] => 0
  | (_, v) :: ms => max (height v) (heightMembers ms)

end

mutual

/-- The tree of a value is read as the value, where it is not nested too deep. -/
theorem read_node (depth : Nat) (v : Json) (h : v.height ≤ depth) :
    Node.read depth v.node = .ok v := by
  match v, depth with
  | .null, _ => rfl
  | .bool b, _ => rfl
  | .number n, _ => rfl
  | .string s, _ => rfl
  | .array items, 0 => simp [height] at h
  | .object members, 0 => simp [height] at h
  | .array items, depth + 1 =>
      have hitems := readItems_nodeItems depth items (by simpa [height] using h)
      simp [node, Node.read, Node.inside, Node.closed, hitems, bind, Except.bind, pure, Except.pure]
  | .object members, depth + 1 =>
      have hmembers := readMembers_nodeMembers depth members (by simpa [height] using h)
      simp [node, Node.read, Node.inside, Node.closed, hmembers, bind, Except.bind, pure, Except.pure]

theorem readItems_nodeItems (depth : Nat) (items : List Json) (h : heightItems items ≤ depth) :
    Node.readItems depth (nodeItems items) = .ok items := by
  match items with
  | [] => rfl
  | v :: vs =>
      rw [heightItems, Nat.max_le] at h
      have hv := read_node depth v h.1
      have hvs := readItems_nodeItems depth vs h.2
      simp [nodeItems, Node.readItems, hv, hvs, bind, Except.bind, pure, Except.pure]

theorem readMembers_nodeMembers (depth : Nat) (members : List (String × Json))
    (h : heightMembers members ≤ depth) :
    Node.readMembers depth (nodeMembers members) = .ok members := by
  match members with
  | [] => rfl
  | (key, v) :: ms =>
      rw [heightMembers, Nat.max_le] at h
      have hv := read_node depth v h.1
      have hms := readMembers_nodeMembers depth ms h.2
      simp [nodeMembers, Node.readMembers, hv, hms, bind, Except.bind, pure, Except.pure]

end

mutual

/-- The tree of a value that is nested too deep is not read. -/
theorem read_node_of_lt (depth : Nat) (v : Json) (h : depth < v.height) :
    Node.read depth v.node = .error .malformed := by
  match v, depth with
  | .null, _ => simp [height] at h
  | .bool b, _ => simp [height] at h
  | .number n, _ => simp [height] at h
  | .string s, _ => simp [height] at h
  | .array items, 0 => rfl
  | .object members, 0 => rfl
  | .array items, depth + 1 =>
      have hitems := readItems_nodeItems_of_lt depth items (by simpa [height] using h)
      simp [node, Node.read, Node.inside, hitems, bind, Except.bind]
  | .object members, depth + 1 =>
      have hmembers := readMembers_nodeMembers_of_lt depth members (by simpa [height] using h)
      simp [node, Node.read, Node.inside, hmembers, bind, Except.bind]

theorem readItems_nodeItems_of_lt (depth : Nat) (items : List Json)
    (h : depth < heightItems items) :
    Node.readItems depth (nodeItems items) = .error .malformed := by
  match items with
  | [] => simp [heightItems] at h
  | v :: vs =>
      by_cases hfirst : v.height ≤ depth
      · have hv := read_node depth v hfirst
        have hrest : depth < heightItems vs := by
          rw [heightItems] at h
          omega
        have hvs := readItems_nodeItems_of_lt depth vs hrest
        simp [nodeItems, Node.readItems, hv, hvs, bind, Except.bind]
      · have hv := read_node_of_lt depth v (by omega)
        simp [nodeItems, Node.readItems, hv, bind, Except.bind]

theorem readMembers_nodeMembers_of_lt (depth : Nat) (members : List (String × Json))
    (h : depth < heightMembers members) :
    Node.readMembers depth (nodeMembers members) = .error .malformed := by
  match members with
  | [] => simp [heightMembers] at h
  | (key, v) :: ms =>
      by_cases hfirst : v.height ≤ depth
      · have hv := read_node depth v hfirst
        have hrest : depth < heightMembers ms := by
          rw [heightMembers] at h
          omega
        have hms := readMembers_nodeMembers_of_lt depth ms hrest
        simp [nodeMembers, Node.readMembers, hv, hms, bind, Except.bind]
      · have hv := read_node_of_lt depth v (by omega)
        simp [nodeMembers, Node.readMembers, hv, bind, Except.bind]

end

/-- A written value that is not nested too deep is parsed as itself. -/
theorem Exact.parse_compact {v : Json} (h : Exact v) (hdeep : v.height ≤ depthLimit) :
    parse v.compact = .ok v := by
  rw [parse, h.parseWith_compact]
  exact read_node depthLimit v hdeep

end Heights

end Json

end RecordGate
