import RecordGate.Service.Resource

/-!
# Routes

What the paths of the service lead to. A path that leads nowhere and a method that a path does not
know are told apart.
-/

namespace RecordGate

/-- The entities whose records are served. -/
inductive Shelf
  | books
  | authors
deriving DecidableEq

/-- The part of a path that names an entity. -/
def Shelf.ofPart? (part : String) : Option Shelf :=
  if part == "books" then some .books else if part == "authors" then some .authors else none

inductive Place
  | health
  | metrics
  | schemas
  | schema (part : String)
  | credentials
  | records (shelf : Shelf)
  | queries (shelf : Shelf)
  | record (shelf : Shelf) (part : String)
deriving DecidableEq

inductive Route
  | health
  | metrics
  | schemas
  | schema (part : String)
  | issue
  | operate (shelf : Shelf) (op : Operation)
deriving DecidableEq

namespace Place

/-- The place under a path of an entity. -/
def underShelf? (shelf : Shelf) : List String → Option Place
  | [] => some (.records shelf)
  | ["query"] => some (.queries shelf)
  | [part] => if part.isEmpty then none else some (.record shelf part)
  | _ => none

/-- The place that a path leads to. -/
def ofPath? (path : String) : Option Place :=
  match Text.split '/' path with
  | ["", "health"] => some .health
  | ["", "metrics"] => some .metrics
  | ["", "auth", "token"] => some .credentials
  | ["", "api", "schema"] => some .schemas
  | ["", "api", "schema", part] => if part.isEmpty then none else some (.schema part)
  | "" :: "api" :: shelf :: rest => (Shelf.ofPart? shelf).bind fun s => underShelf? s rest
  | _ => none

def route? (method : Method) : Place → Option Route
  | .health => if method == .get then some .health else none
  | .metrics => if method == .get then some .metrics else none
  | .schemas => if method == .get then some .schemas else none
  | .schema part => if method == .get then some (.schema part) else none
  | .credentials => if method == .post then some .issue else none
  | .records shelf =>
      match method with
      | .get => some (.operate shelf .list)
      | .post => some (.operate shelf .create)
      | _ => none
  | .queries shelf => if method == .post then some (.operate shelf .query) else none
  | .record shelf part =>
      match method with
      | .get => some (.operate shelf (.read part))
      | .put => some (.operate shelf (.replace part))
      | .delete => some (.operate shelf (.remove part))
      | _ => none

end Place

end RecordGate
