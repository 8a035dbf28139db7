import RecordGate.Acl.Model

/-!
# Decisions

Whether an identity may do something, and why. A super admin may do everything. Anyone else needs an
access control list, a user id, and an entry that grants the action.
-/

namespace RecordGate

inductive Reason
  | superAdmin
  | granted
  | missingEntitlementClaim
  | missingSubject
  | unknownEntity
  | actionNotGranted
  | superAdminRequired
deriving DecidableEq, Repr

def Reason.name : Reason → String
  | .superAdmin => "super_admin"
  | .granted => "granted"
  | .missingEntitlementClaim => "missing_entitlement_claim"
  | .missingSubject => "missing_subject"
  | .unknownEntity => "unknown_entity"
  | .actionNotGranted => "action_not_granted"
  | .superAdminRequired => "super_admin_required"

structure Decision where
  allowed : Bool
  reason : Reason
deriving DecidableEq

namespace Decision

def allow (reason : Reason) : Decision := ⟨true, reason⟩

def deny (reason : Reason) : Decision := ⟨false, reason⟩

def json (d : Decision) : Json :=
  .object [("allowed", .bool d.allowed), ("reason", .string d.reason.name)]

end Decision

structure Identity where
  user : Option UserId
  tenant : Option TenantId
  isSuperAdmin : Bool
  acl : Option Acl
deriving DecidableEq

namespace Identity

def anonymous : Identity := ⟨none, none, false, none⟩

/-- The user that an id stands for; the nil id stands for none. -/
def subject? (user : UserId) : Option UserId := if user.isNil then none else some user

def hasSubject (i : Identity) : Bool := i.user.isSome

def json (i : Identity) : Json :=
  .object
    [ ("userId", Json.ofOption (fun u => .string u.uuid.text) i.user),
      ("tenantId", Json.ofOption (fun t => .string t.uuid.text) i.tenant),
      ("isSuperAdmin", .bool i.isSuperAdmin), ("acl", Json.ofOption Acl.json i.acl) ]

/-- The decision whether the caller may do an action on the records of an entity. -/
def evaluate (i : Identity) (entity : String) (action : Entitlement) : Decision :=
  if i.isSuperAdmin then .allow .superAdmin
  else
    match i.acl with
    | none => .deny .missingEntitlementClaim
    | some acl =>
        if !i.hasSubject then .deny .missingSubject
        else
          match acl.lookup? entity with
          | none => .deny .unknownEntity
          | some bits => if bits.allows action then .allow .granted else .deny .actionNotGranted

end Identity

end RecordGate
