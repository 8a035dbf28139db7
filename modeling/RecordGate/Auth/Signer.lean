import RecordGate.Acl.Directory
import RecordGate.Auth.Claims
import RecordGate.Auth.Failure
import RecordGate.Auth.Settings
import RecordGate.Crypto.Base64Url
import RecordGate.Crypto.Hmac
import RecordGate.Text.Quoted
import RecordGate.Text.Utf8

/-!
# Signed credentials

A credential is a token of three parts in base64: a header, the claims, and a signature over the
two. Who holds the secret can make tokens and check them. The signature is checked before the claims
are read, and the claims before their time.
-/

namespace RecordGate

open Json (Decoder Slot)

structure Subject where
  tenant : TenantId
  user : UserId
  isSuperAdmin : Bool

namespace Subject

def slots : List (Slot Subject) :=
  [ .of "tenantId" [] .required Decoder.uuid fun u s => { s with tenant := ⟨u⟩ },
    .of "userId" [] .required Decoder.uuid fun u s => { s with user := ⟨u⟩ },
    .of "isSuperAdmin" [] .defaulted Decoder.bool fun b s => { s with isSuperAdmin := b } ]

def decode : Decoder Subject := Slot.record ⟨⟨.nil⟩, ⟨.nil⟩, false⟩ slots

end Subject

structure Credential where
  token : String
  claims : TokenClaims

/-- Makes and checks credentials under a secret. -/
structure Signer where
  secret : String
  secret_ne : secret ≠ ""
  issuer : Option String
  lifetime : Span
  leeway : Nat

namespace Signer

/-- There is no signer without a secret. -/
def ofSettings (a : AuthSettings) : Except AuthFailure Signer :=
  if h : a.secret ≠ "" then .ok ⟨a.secret, h, a.issuer, a.lifetime, a.leeway⟩
  else .error (.misconfigured "JWT secret is required")

/-- What may be shown of a signer. -/
def debugText (s : Signer) : String :=
  let issuer :=
    match s.issuer with
    | some name => "Some(" ++ Text.shown name ++ ")"
    | none => "None"
  "CredentialIssuer \x7b issuer: " ++ issuer ++ ", lifetime: " ++ s.lifetime.text ++ ", .. \x7d"

def signature (secret : String) (s : List Char) : List Char :=
  Base64Url.encode (Hmac.code (Text.bytes secret) (Text.bytes (String.ofList s)))

def header : Json := .object [("typ", .string "JWT"), ("alg", .string "HS256")]

def part (value : Json) : List Char := Base64Url.encode (Text.bytes value.compact)

def token (secret : String) (claims : TokenClaims) : String :=
  let body := part header ++ '.' :: part claims.json
  String.ofList (body ++ '.' :: signature secret body)

/-- The claims of a credential made at a time, which expires after the lifetime or at the last
second that can be told. -/
def claimsFor (s : Signer) (now : Int) (jti : Uuid) (subject : Subject) (acl : Option Acl) :
    TokenClaims :=
  let iat := Integer64.nearest now
  { userId := some subject.user.uuid.text
    tenantId := some subject.tenant.uuid.text
    isSuperAdmin := subject.isSuperAdmin
    userInRole := acl.map Acl.payload
    jti := jti.text
    iat := iat
    exp := Integer64.nearest (iat.val + (Integer64.nearest s.lifetime.seconds).val)
    iss := s.issuer }

def issue (s : Signer) (now : Int) (jti : Uuid) (subject : Subject) (acl : Option Acl) :
    Credential :=
  let claims := s.claimsFor now jti subject acl
  ⟨token s.secret claims, claims⟩

/-- Makes a credential with the access control list that a directory gives. -/
def issueFor (s : Signer) (now : Int) (jti : Uuid) (directory : Directory) (subject : Subject) :
    Credential :=
  s.issue now jti subject (some (directory.resolve subject.tenant subject.user))

/-- A text that holds two parts with a point between them is cut at the last point. -/
def cut (s : List Char) : Except AuthFailure (List Char × List Char) :=
  match Text.splitLast '.' s with
  | some parts => .ok parts
  | none => .error .invalidToken

def readPart {α : Type} (decode : Decoder α) (s : List Char) : Except AuthFailure α :=
  match ((Base64Url.decode? s).bind Text.ofBytes?).map (Json.parseWith decode) with
  | some (.ok a) => .ok a
  | _ => .error .invalidToken

/-- A field of a header that is a text or absent. -/
def headerText (name : String) : Slot Unit :=
  .of name [] .optional (Decoder.option Decoder.string) fun _ u => u

/-- The fields of a header, of which only the algorithm matters. -/
def headerSlots : List (Slot Unit) :=
  [ headerText "typ", .of "alg" [] .required (Decoder.choice [("HS256", ())]) fun _ u => u,
    headerText "cty", headerText "jku",
    .of "jwk" [] .optional (Decoder.option Json.Node.read) fun _ u => u, headerText "kid",
    headerText "x5u",
    .of "x5c" [] .optional (Decoder.option (Decoder.list Decoder.string)) fun _ u => u,
    headerText "x5t", headerText "x5t#S256" ]

/-- Says whether a value names those for whom a token is meant. -/
def isAudience : Json → Bool
  | .string _ => true
  | .array items => items.all fun item =>
      match item with
      | .string _ => true
      | _ => false
  | _ => false

/-- Passes over a value that is not looked at. A container may stand there only when it is empty and
`empty` says so. -/
def unread (empty : Bool) : Decoder Unit
  | _, .array items cut => if empty && items.isEmpty then Json.Node.closed cut else .error .malformed
  | _, .object members cut =>
      if empty && members.isEmpty then Json.Node.closed cut else .error .malformed
  | _, .fault broken => .error broken.read
  | _, .string none => .error .malformed
  | _, _ => .ok ()

/-- The claims with a fixed meaning: whether the token is meant for someone in particular. -/
def registeredSlots : List (Slot Bool) :=
  [ .of "exp" [] .defaulted (unread true) fun _ b => b,
    .of "nbf" [] .defaulted (unread true) fun _ b => b,
    .of "sub" [] .defaulted (unread false) fun _ b => b,
    .of "iss" [] .defaulted (unread false) fun _ b => b,
    .of "aud" [] .defaulted Json.Node.read fun v b => b || isAudience v ]

/-- Says whether an issuer may stand in the claims. A token without one is not refused. -/
def acceptsIssuer (s : Signer) (iss : Option String) : Bool :=
  match s.issuer, iss with
  | some expected, some given => given == expected
  | _, _ => true

/-- The earliest time of expiry that is accepted, in unsigned numbers of 64 bits. -/
def earliest (s : Signer) (now : Int) : Int := (now - s.leeway) % 18446744073709551616

/-- Judges the claims of a token whose signature is right. -/
def judge (s : Signer) (now : Int) (claims : TokenClaims) (hasAudience : Bool) :
    Except AuthFailure TokenClaims :=
  if claims.exp.val < 0 then .error .invalidToken
  else if claims.exp.val < s.earliest now then .error .tokenExpired
  else if !s.acceptsIssuer claims.iss || hasAudience then .error .invalidToken
  else .ok claims

def verify (s : Signer) (now : Int) (token : String) : Except AuthFailure TokenClaims := do
  let (body, sign) ← cut token.toList
  let (head, payload) ← cut body
  readPart (Slot.record () headerSlots) head
  if signature s.secret body != sign then .error .invalidToken
  else
    let claims ← readPart TokenClaims.decode payload
    let hasAudience ← readPart (Slot.record false registeredSlots) payload
    s.judge now claims hasAudience

def authenticate (s : Signer) (now : Int) (token : String) : Except AuthFailure Identity :=
  (s.verify now token).map TokenClaims.identity

end Signer

end RecordGate
