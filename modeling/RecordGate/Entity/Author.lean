import RecordGate.Entity.Book

/-!
# Authors

The records of the authors of books. In JSON every field may be absent: an author is active then,
the identifier is a fresh one, and anything else is null.
-/

namespace RecordGate

open Json (Decoder Slot)

structure Author where
  id : Uuid
  name : Option String := none
  biography : Option String := none
  birthDate : Option Date := none
  isActive : Bool := true
  tenantId : Option Uuid := none
deriving DecidableEq

namespace Author

def schema : Schema Author :=
  ⟨"Authors",
    [ ⟨"Id", .uuid, fun a => .uuid a.id⟩,
      ⟨"Name", .text, fun a => Value.ofOption .text a.name⟩,
      ⟨"Biography", .text, fun a => Value.ofOption .text a.biography⟩,
      ⟨"BirthDate", .date, fun a => Value.ofOption .date a.birthDate⟩,
      ⟨"IsActive", .boolean, fun a => .boolean a.isActive⟩,
      ⟨"TenantId", .uuid, fun a => Value.ofOption .uuid a.tenantId⟩ ]⟩

instance : Entity Author := ⟨schema, Author.id⟩

def slots : List (Slot Author) :=
  [ .of "id" [] .defaulted Decoder.uuid fun v a => { a with id := v },
    .of "name" [] .defaulted (Decoder.option Decoder.string) fun v a => { a with name := v },
    .of "biography" [] .defaulted (Decoder.option Decoder.string)
      fun v a => { a with biography := v },
    .of "birthDate" [] .defaulted (Decoder.option Decoder.date) fun v a => { a with birthDate := v },
    .of "isActive" [] .defaulted Decoder.bool fun v a => { a with isActive := v },
    .of "tenantId" [] .defaulted (Decoder.option Decoder.uuid) fun v a => { a with tenantId := v } ]

/-- Reads an author; one without an identifier gets the fresh one. -/
def decode (fresh : Uuid) : Decoder Author := Slot.record { id := fresh } slots

def json (a : Author) : Json :=
  .object
    [ ("id", .string a.id.text), ("name", Json.ofOption .string a.name),
      ("biography", Json.ofOption .string a.biography),
      ("birthDate", Json.ofOption (fun d => .string d.text) a.birthDate),
      ("isActive", .bool a.isActive),
      ("tenantId", Json.ofOption (fun u => .string u.text) a.tenantId) ]

end Author

end RecordGate
