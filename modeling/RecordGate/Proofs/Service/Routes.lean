import RecordGate.Proofs.Text.Split
import RecordGate.Service.App

/-!
# The routes of the entities

Each entity has six routes, given here by method and path together with the action that they ask
for. A request on one of them is led to an operation that asks for this action.
-/

namespace RecordGate

namespace Shelf

/-- The path of all records of an entity. -/
def base : Shelf → String
  | .books => "/api/books"
  | .authors => "/api/authors"

/-- The name of an entity in access control lists. -/
def entityName : Shelf → String
  | .books => "Books"
  | .authors => "Authors"

end Shelf

/-- A text that names a record at the end of a path. -/
def IsRecordPart (part : String) : Prop := part ≠ "" ∧ part ≠ "query" ∧ '/' ∉ part.toList

/-- The routes of an entity with the actions that they ask for. -/
inductive EntityRoute (shelf : Shelf) : Method → String → Entitlement → Prop
  | list : EntityRoute shelf .get shelf.base .read
  | query : EntityRoute shelf .post (shelf.base ++ "/query") .read
  | create : EntityRoute shelf .post shelf.base .create
  | read {part : String} : IsRecordPart part →
      EntityRoute shelf .get (shelf.base ++ "/" ++ part) .read
  | replace {part : String} : IsRecordPart part →
      EntityRoute shelf .put (shelf.base ++ "/" ++ part) .update
  | remove {part : String} : IsRecordPart part →
      EntityRoute shelf .delete (shelf.base ++ "/" ++ part) .delete

namespace Place

theorem ofPath?_base (shelf : Shelf) : ofPath? shelf.base = some (.records shelf) := by
  cases shelf <;> rfl

theorem ofPath?_query (shelf : Shelf) :
    ofPath? (shelf.base ++ "/query") = some (.queries shelf) := by
  cases shelf <;> rfl

theorem split_base_append {shelf : Shelf} {part : String} (h : '/' ∉ part.toList) :
    Text.split '/' (shelf.base ++ "/" ++ part) = Text.split '/' shelf.base ++ [part] := by
  have htext : (shelf.base ++ "/" ++ part).toList = shelf.base.toList ++ '/' :: part.toList := by
    simp
  rw [Text.split, htext, Text.pieces_append, Text.pieces_of_not_mem h]
  simp [Text.split]

theorem ofPath?_record {shelf : Shelf} {part : String} (h : IsRecordPart part) :
    ofPath? (shelf.base ++ "/" ++ part) = some (.record shelf part) := by
  obtain ⟨hne, hquery, hslash⟩ := h
  have hunder : underShelf? shelf [part] = some (.record shelf part) := by
    unfold underShelf?
    split <;> simp_all
  unfold ofPath?
  rw [split_base_append hslash]
  cases shelf
  · exact hunder
  · exact hunder

/-- A request on a route of an entity is led to an operation that asks for the action of the route. -/
theorem exists_operation {shelf : Shelf} {method : Method} {path : String} {action : Entitlement}
    (h : EntityRoute shelf method path action) :
    ∃ place op, ofPath? path = some place ∧ place.route? method = some (.operate shelf op) ∧
      op.action = action ∧ method ≠ .head ∧ method ≠ .options := by
  cases h with
  | list => exact ⟨_, .list, ofPath?_base shelf, rfl, rfl, by decide, by decide⟩
  | query => exact ⟨_, .query, ofPath?_query shelf, rfl, rfl, by decide, by decide⟩
  | create => exact ⟨_, .create, ofPath?_base shelf, rfl, rfl, by decide, by decide⟩
  | @read part hp => exact ⟨_, .read part, ofPath?_record hp, rfl, rfl, by decide, by decide⟩
  | @replace part hp => exact ⟨_, .replace part, ofPath?_record hp, rfl, rfl, by decide, by decide⟩
  | @remove part hp => exact ⟨_, .remove part, ofPath?_record hp, rfl, rfl, by decide, by decide⟩

end Place

end RecordGate
