import RecordGate.Proofs.Calendar.Written
import RecordGate.Proofs.Json.Accepted
import RecordGate.Proofs.Json.RoundTrip
import RecordGate.Proofs.Uuid

/-!
# Contents of fields

What is written into the fields of records is read back by the decoders of its kind: identifiers,
whole numbers, instants and days of the calendar, and whether there is a value at all.
-/

namespace RecordGate.Json

theorem exact_int {low high : Int} (n : Ranged low high) (hlow : -9223372036854775808 ≤ low)
    (hhigh : high < 18446744073709551616) : (int n.val).Exact :=
  .int n.val (Int.le_trans hlow n.low_le) (Int.lt_of_le_of_lt n.le_high hhigh)

theorem exact_ofOption {α : Type} {f : α → Json} (h : ∀ a, (f a).Exact) (o : Option α) :
    (ofOption f o).Exact := by
  cases o with
  | none => exact .null
  | some a => exact h a

theorem height_ofOption_text (o : Option String) : (ofOption .string o).height = 0 := by
  cases o <;> rfl

theorem height_ofOption_string {α : Type} (f : α → String) (o : Option α) :
    (ofOption (fun a => .string (f a)) o).height = 0 := by
  cases o <;> rfl

theorem height_ofOption_int {α : Type} (f : α → Int) (o : Option α) :
    (ofOption (fun a => int (f a)) o).height = 0 := by
  cases o <;> rfl

namespace Decoder

theorem uuid_node (depth : Nat) (u : Uuid) : uuid depth (Json.string u.text).node = .ok u := by
  have hread : Uuid.parse? u.text = some u := Uuid.read?_text u
  simp [uuid, refine, string, node, hread, expect, bind, Except.bind]

theorem ranged_node {low high : Int} (depth : Nat) (n : Ranged low high) :
    ranged low high depth (Json.int n.val).node = .ok n := by
  simp [ranged, Json.int, node, Ranged.ofInt?_val, expect]

theorem dateTime_node {t : Instant} (h : t.Valid) (depth : Nat) :
    dateTime depth (Json.string t.zuluText).node = .ok t := by
  simp [dateTime, refine, string, node, Calendar.loose?_zuluText h, expect, bind, Except.bind]

theorem date_node {d : Date} (h : d.Valid) (depth : Nat) :
    date depth (Json.string d.text).node = .ok d := by
  simp [date, refine, string, node, Calendar.looseDay?_text h, expect, bind, Except.bind]

/-- A value that is there is read as such, since it is not written as null. -/
theorem option_node {α : Type} {decode : Decoder α} {f : α → Json} {depth : Nat} {o : Option α}
    (hnull : ∀ a, (f a).node ≠ .null) (h : ∀ a, o = some a → decode depth (f a).node = .ok a) :
    option decode depth (Json.ofOption f o).node = .ok o := by
  cases o with
  | none => rfl
  | some a =>
      rw [Json.ofOption, option_of_ne_null (hnull a), h a rfl, Except.map]

end Decoder

end RecordGate.Json
