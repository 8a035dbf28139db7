import RecordGate.Auth.Decision

/-!
# Claims

What a credential says about its holder, and the identity that follows from it. Claims that cannot
be used are passed over: the identity then lacks what they would have given, and never has more.
-/

namespace RecordGate

open Json (Decoder Slot)

structure TokenClaims where
  userId : Option String
  tenantId : Option String
  isSuperAdmin : Bool
  userInRole : Option String
  jti : String
  iat : Integer64
  exp : Integer64
  iss : Option String
deriving DecidableEq

namespace TokenClaims

/-- A user id is a text; anything else is as if it were absent. -/
def subjectOf : Json → Option String
  | .string s => some s
  | _ => none

/-- A flag is a truth value or the text `true`; anything else is false. -/
def flagOf : Json → Bool
  | .bool b => b
  | .string s => Text.sameName (Text.trim s) "true"
  | _ => false

/-- Decodes a value of any kind and makes something of it. -/
def lenient {α : Type} (f : Json → α) : Decoder α := fun depth node =>
  (Json.Node.read depth node).map f

def slots : List (Slot TokenClaims) :=
  [ .of "userId" [] .defaulted (lenient subjectOf) fun s c => { c with userId := s },
    .of "tenantId" [] .defaulted (Decoder.option Decoder.string) fun s c => { c with tenantId := s },
    .of "isSuperAdmin" [] .defaulted (lenient flagOf) fun b c => { c with isSuperAdmin := b },
    .of "userInRole" [] .defaulted (Decoder.option Decoder.string)
      fun s c => { c with userInRole := s },
    .of "jti" [] .required Decoder.string fun s c => { c with jti := s },
    .of "iat" [] .required (Decoder.ranged _ _) fun n c => { c with iat := n },
    .of "exp" [] .required (Decoder.ranged _ _) fun n c => { c with exp := n },
    .of "iss" [] .defaulted (Decoder.option Decoder.string) fun s c => { c with iss := s } ]

/-- Claims that say nothing. -/
def blank : TokenClaims :=
  ⟨none, none, false, none, "", ⟨0, by decide, by decide⟩, ⟨0, by decide, by decide⟩, none⟩

def decode : Decoder TokenClaims := Slot.record blank slots

/-- A member for a text that is there. -/
def entry (name : String) (value : Option String) : List (String × Json) :=
  match value with
  | some s => [(name, .string s)]
  | none => []

/-- The members that do not depend on when the credential was issued. -/
def stableMembers (c : TokenClaims) : List (String × Json) :=
  entry "userId" c.userId ++ entry "tenantId" c.tenantId ++
    ("isSuperAdmin", .bool c.isSuperAdmin) :: entry "userInRole" c.userInRole

def json (c : TokenClaims) : Json :=
  .object (c.stableMembers ++
    [("jti", .string c.jti), ("iat", Json.int c.iat.val), ("exp", Json.int c.exp.val)] ++
    entry "iss" c.iss)

/-- The moment at which the credential expires, when the calendar has it. -/
def expiresAt? (c : TokenClaims) : Option Instant := Instant.ofSeconds? c.exp.val

/-- The credential has expired at a time given in seconds since the start of 1970. -/
def isExpiredAt (c : TokenClaims) (now : Int) : Bool := decide (c.exp.val < now)

def identity (c : TokenClaims) : Identity where
  user := (c.userId.bind UserId.parse?).bind Identity.subject?
  tenant := c.tenantId.bind TenantId.parse?
  isSuperAdmin := c.isSuperAdmin
  acl := c.userInRole.bind fun payload => (Acl.ofPayload payload).toOption

end TokenClaims

end RecordGate
