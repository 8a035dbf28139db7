import RecordGate.Json.Value

/-!
# Replies

What is sent back for a request: a status and, for most of them, a content.
-/

namespace RecordGate

/-- The content of a reply. A request that cannot be read is answered by a notice in words that are
not fixed. -/
inductive Content
  | empty
  | json (value : Json)
  | text (words : String)
  | notice

structure Reply where
  status : Nat
  content : Content

namespace Reply

def bare (status : Nat) : Reply := ⟨status, .empty⟩

/-- A request that cannot be read. -/
def unreadable (status : Nat) : Reply := ⟨status, .notice⟩

def success (status : Nat) (data : Json) : Reply :=
  ⟨status, .json (.object [("success", .bool true), ("data", data)])⟩

end Reply

end RecordGate
