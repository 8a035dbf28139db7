import RecordGate.Schema.Entity
import RecordGate.Schema.Wire

/-!
# Books

The records of a library's books. In JSON every field may be absent: the price is 100 then, the
quantity 1, the identifier a fresh one, and anything else null.
-/

namespace RecordGate

open Json (Decoder Slot)

structure Book where
  id : Uuid
  title : Option String := none
  authorId : Option Uuid := none
  genre : Option String := none
  publication : Option String := none
  publishDate : Option Instant := none
  price : Option Integer32 := some ⟨100, by decide, by decide⟩
  quantity : Option Integer32 := some ⟨1, by decide, by decide⟩
  tenantId : Option Uuid := none
  createdOn : Option Instant := none
  createdBy : Option Uuid := none
  updatedOn : Option Instant := none
  updatedBy : Option Uuid := none
deriving DecidableEq

def Value.ofOption {α : Type} (f : α → Value) : Option α → Value
  | none => .null
  | some a => f a

/-- A number of 32 bits is one of 64 bits. -/
def Integer32.wide (n : Integer32) : Integer64 :=
  ⟨n.val, Int.le_trans (by decide) n.low_le, Int.le_trans n.le_high (by decide)⟩

namespace Book

def schema : Schema Book :=
  ⟨"Books",
    [ ⟨"Id", .uuid, fun b => .uuid b.id⟩,
      ⟨"Title", .text, fun b => Value.ofOption .text b.title⟩,
      ⟨"AuthorId", .uuid, fun b => Value.ofOption .uuid b.authorId⟩,
      ⟨"Genre", .text, fun b => Value.ofOption .text b.genre⟩,
      ⟨"Publication", .text, fun b => Value.ofOption .text b.publication⟩,
      ⟨"PublishDate", .dateTime, fun b => Value.ofOption .dateTime b.publishDate⟩,
      ⟨"Price", .integer, fun b => Value.ofOption (fun n => .integer n.wide) b.price⟩,
      ⟨"Quantity", .integer, fun b => Value.ofOption (fun n => .integer n.wide) b.quantity⟩,
      ⟨"TenantId", .uuid, fun b => Value.ofOption .uuid b.tenantId⟩,
      ⟨"CreatedOn", .dateTime, fun b => Value.ofOption .dateTime b.createdOn⟩,
      ⟨"CreatedBy", .uuid, fun b => Value.ofOption .uuid b.createdBy⟩,
      ⟨"UpdatedOn", .dateTime, fun b => Value.ofOption .dateTime b.updatedOn⟩,
      ⟨"UpdatedBy", .uuid, fun b => Value.ofOption .uuid b.updatedBy⟩ ]⟩

instance : Entity Book := ⟨schema, Book.id⟩

def slots : List (Slot Book) :=
  [ .of "id" [] .defaulted Decoder.uuid fun v b => { b with id := v },
    .of "title" [] .defaulted (Decoder.option Decoder.string) fun v b => { b with title := v },
    .of "authorId" [] .defaulted (Decoder.option Decoder.uuid) fun v b => { b with authorId := v },
    .of "genre" [] .defaulted (Decoder.option Decoder.string) fun v b => { b with genre := v },
    .of "publication" [] .defaulted (Decoder.option Decoder.string)
      fun v b => { b with publication := v },
    .of "publishDate" [] .defaulted (Decoder.option Decoder.dateTime)
      fun v b => { b with publishDate := v },
    .of "price" [] .defaulted (Decoder.option (Decoder.ranged _ _)) fun v b => { b with price := v },
    .of "quantity" [] .defaulted (Decoder.option (Decoder.ranged _ _))
      fun v b => { b with quantity := v },
    .of "tenantId" [] .defaulted (Decoder.option Decoder.uuid) fun v b => { b with tenantId := v },
    .of "createdOn" [] .defaulted (Decoder.option Decoder.dateTime)
      fun v b => { b with createdOn := v },
    .of "createdBy" [] .defaulted (Decoder.option Decoder.uuid) fun v b => { b with createdBy := v },
    .of "updatedOn" [] .defaulted (Decoder.option Decoder.dateTime)
      fun v b => { b with updatedOn := v },
    .of "updatedBy" [] .defaulted (Decoder.option Decoder.uuid) fun v b => { b with updatedBy := v } ]

/-- Reads a book; one without an identifier gets the fresh one. -/
def decode (fresh : Uuid) : Decoder Book := Slot.record { id := fresh } slots

def json (b : Book) : Json :=
  let uuid (u : Option Uuid) : Json := Json.ofOption (fun u => .string u.text) u
  let text (s : Option String) : Json := Json.ofOption .string s
  let time (t : Option Instant) : Json := Json.ofOption (fun t => .string t.zuluText) t
  let number (n : Option Integer32) : Json := Json.ofOption (fun n => Json.int n.val) n
  .object
    [ ("id", .string b.id.text), ("title", text b.title), ("authorId", uuid b.authorId),
      ("genre", text b.genre), ("publication", text b.publication),
      ("publishDate", time b.publishDate), ("price", number b.price),
      ("quantity", number b.quantity), ("tenantId", uuid b.tenantId),
      ("createdOn", time b.createdOn), ("createdBy", uuid b.createdBy),
      ("updatedOn", time b.updatedOn), ("updatedBy", uuid b.updatedBy) ]

end Book

end RecordGate
