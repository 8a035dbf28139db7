import RecordGate.Auth.Claims
import RecordGate.Proofs.Auth.Judgement
import RecordGate.Proofs.Json.Accepted
import RecordGate.Proofs.Json.Members
import RecordGate.Proofs.Json.RoundTrip
import RecordGate.Proofs.Uuid.Forms

/-!
# What claims say

The claims that are read from an object follow from its members, and the identity from these. A right
comes only from a member that gives it in one of its forms. Everything else gives nothing.
-/

namespace RecordGate

open Json (Break Decoder Exact Gives Lists Node Slot)

theorem UserId.parse?_eq_some_iff {raw : String} {user : UserId} :
    parse? raw = some user ↔ user.uuid.HeldBy raw := by
  rw [parse?, ← Uuid.parseTrimmed?_eq_some_iff, Option.map_eq_some_iff]
  constructor
  · rintro ⟨uuid, huuid, rfl⟩
    exact huuid
  · intro huuid
    exact ⟨_, huuid, rfl⟩

theorem TenantId.parse?_eq_some_iff {raw : String} {tenant : TenantId} :
    parse? raw = some tenant ↔ tenant.uuid.HeldBy raw := by
  rw [parse?, ← Uuid.parseTrimmed?_eq_some_iff, Option.map_eq_some_iff]
  constructor
  · rintro ⟨uuid, huuid, rfl⟩
    exact huuid
  · intro huuid
    exact ⟨_, huuid, rfl⟩

theorem Identity.subject?_eq_some_iff {user subject : UserId} :
    subject? user = some subject ↔ user = subject ∧ subject.uuid ≠ .nil := by
  rw [subject?, UserId.isNil, Uuid.isNil]
  by_cases hnil : user.uuid = .nil
  · simp only [hnil, beq_self_eq_true, if_true, false_iff, reduceCtorEq]
    rintro ⟨rfl, hne⟩
    exact hne hnil
  · simp only [beq_iff_eq, hnil, if_false, Option.some.injEq]
    constructor
    · rintro rfl
      exact ⟨rfl, hnil⟩
    · exact And.left

namespace TokenClaims

section Forms

variable {depth : Nat} {node : Node} {s : String}

theorem lenient_eq_ok_iff {α : Type} {f : Json → α} {a : α} :
    lenient f depth node = .ok a ↔ ∃ v, node.read depth = .ok v ∧ f v = a := by
  rw [lenient]
  cases node.read depth <;> simp [Except.map]

theorem subjectOf_eq_some_iff {v : Json} : subjectOf v = some s ↔ v = .string s := by
  cases v <;> simp [subjectOf]

theorem flagOf_eq_true_iff {v : Json} :
    flagOf v = true ↔ v = .bool true ∨ ∃ s, v = .string s ∧ Text.Spells "true" s.toList := by
  cases v with
  | string s =>
      have hspells : Text.sameName (Text.trim s) "true" = true ↔ Text.Spells "true" s.toList :=
        ⟨fun h => Text.spells_of_sameName_trimmed (Text.sameName_symm h),
          fun h => Text.sameName_symm (h.sameName_trimmed (by decide))⟩
      simp [flagOf, hspells]
  | bool b => simp [flagOf]
  | null => simp [flagOf]
  | number n => simp [flagOf]
  | array items => simp [flagOf]
  | object members => simp [flagOf]

theorem lenient_subjectOf_iff :
    lenient subjectOf depth node = .ok (some s) ↔ node = .string (some s) := by
  simp only [lenient_eq_ok_iff, subjectOf_eq_some_iff, exists_eq_right, Node.read_eq_string_iff]

theorem lenient_flagOf_iff :
    lenient flagOf depth node = .ok true ↔
      node = .bool true ∨ ∃ s, node = .string (some s) ∧ Text.Spells "true" s.toList := by
  simp only [lenient_eq_ok_iff, flagOf_eq_true_iff, and_or_left, exists_or, exists_eq_right,
    Node.read_eq_bool_iff]
  refine or_congr_right ?_
  constructor
  · rintro ⟨v, hread, s, rfl, hs⟩
    exact ⟨s, Node.read_eq_string_iff.mp hread, hs⟩
  · rintro ⟨s, hnode, hs⟩
    exact ⟨_, Node.read_eq_string_iff.mpr hnode, s, rfl, hs⟩

end Forms

variable {body : String} {depth : Nat} {members : List (String × Node)} {claims : TokenClaims}

/-- Each of the claims is given by the member of its name. -/
theorem gives_of_lists (h : Lists body members) (hread : Json.parseWith decode body = .ok claims) :
    Gives members 126 "userId" (lenient subjectOf) none claims.userId ∧
      Gives members 126 "tenantId" (Decoder.option Decoder.string) none claims.tenantId ∧
      Gives members 126 "isSuperAdmin" (lenient flagOf) false claims.isSuperAdmin ∧
      Gives members 126 "userInRole" (Decoder.option Decoder.string) none claims.userInRole ∧
      Gives members 126 "exp" (Decoder.ranged _ _) blank.exp claims.exp ∧
      Gives members 126 "iss" (Decoder.option Decoder.string) none claims.iss := by
  rw [h.parseWith_eq] at hread
  have field {β : Type} {get : TokenClaims → β} {read : Decoder β} {slot : Slot TokenClaims}
      (place : Nat) (hslot : slots[place]? = some slot) (hfills : Slot.Fills slots get slot read) :
      Gives members 126 slot.name read (get blank) (get claims) :=
    Slot.gives_of_record (by decide) (by decide) (List.mem_of_getElem? hslot) hfills hread
  refine ⟨field 0 rfl (Slot.fills_of (fun _ _ => rfl) ?_), field 1 rfl (Slot.fills_of (fun _ _ => rfl) ?_),
    field 2 rfl (Slot.fills_of (fun _ _ => rfl) ?_), field 3 rfl (Slot.fills_of (fun _ _ => rfl) ?_),
    field 6 rfl (Slot.fills_of (fun _ _ => rfl) ?_), field 7 rfl (Slot.fills_of (fun _ _ => rfl) ?_)⟩
  all_goals simp [slots, Slot.keeps_of]

/-- The members say that their holder is a super admin, as a truth value or as a text. -/
def SaysSuperAdmin (members : List (String × Node)) : Prop :=
  ("isSuperAdmin", .bool true) ∈ members ∨
    ∃ s, ("isSuperAdmin", .string (some s)) ∈ members ∧ Text.Spells "true" s.toList

/-- The members name a user by a text with an identifier other than nil. -/
def NamesUser (members : List (String × Node)) (user : UserId) : Prop :=
  ∃ s, ("userId", .string (some s)) ∈ members ∧ user.uuid.HeldBy s ∧ user.uuid ≠ .nil

def NamesTenant (members : List (String × Node)) (tenant : TenantId) : Prop :=
  ∃ s, ("tenantId", .string (some s)) ∈ members ∧ tenant.uuid.HeldBy s

/-- The members carry a list in a text that can be read. -/
def CarriesAcl (members : List (String × Node)) (acl : Acl) : Prop :=
  ∃ s, ("userInRole", .string (some s)) ∈ members ∧ Acl.ofPayload s = .ok acl

theorem text_eq_some_iff {name : String} {value : Option String} {s : String}
    (h : Gives members depth name (Decoder.option Decoder.string) none value) :
    value = some s ↔ (name, .string (some s)) ∈ members := by
  rw [h.eq_iff (by simp)]
  simp only [Decoder.option_string_iff, exists_eq_right]

theorem isSuperAdmin_iff
    (h : Gives members depth "isSuperAdmin" (lenient flagOf) false claims.isSuperAdmin) :
    claims.isSuperAdmin = true ↔ SaysSuperAdmin members := by
  rw [h.eq_iff (by decide), SaysSuperAdmin]
  simp only [lenient_flagOf_iff]
  constructor
  · rintro ⟨node, hnode, rfl | ⟨s, rfl, hs⟩⟩
    · exact .inl hnode
    · exact .inr ⟨s, hnode, hs⟩
  · rintro (hnode | ⟨s, hnode, hs⟩)
    · exact ⟨_, hnode, .inl rfl⟩
    · exact ⟨_, hnode, .inr ⟨s, rfl, hs⟩⟩

theorem user_identity_iff {user : UserId}
    (h : Gives members depth "userId" (lenient subjectOf) none claims.userId) :
    claims.identity.user = some user ↔ NamesUser members user := by
  have htext (s : String) : claims.userId = some s ↔ ("userId", .string (some s)) ∈ members := by
    rw [h.eq_iff (by simp)]
    simp only [lenient_subjectOf_iff, exists_eq_right]
  simp only [identity, Option.bind_eq_some_iff, htext, UserId.parse?_eq_some_iff,
    Identity.subject?_eq_some_iff, NamesUser]
  constructor
  · rintro ⟨u, ⟨s, hmem, hheld⟩, rfl, hne⟩
    exact ⟨s, hmem, hheld, hne⟩
  · rintro ⟨s, hmem, hheld, hne⟩
    exact ⟨user, ⟨s, hmem, hheld⟩, rfl, hne⟩

theorem tenant_identity_iff {tenant : TenantId}
    (h : Gives members depth "tenantId" (Decoder.option Decoder.string) none claims.tenantId) :
    claims.identity.tenant = some tenant ↔ NamesTenant members tenant := by
  simp only [identity, Option.bind_eq_some_iff, text_eq_some_iff h, TenantId.parse?_eq_some_iff,
    NamesTenant]

theorem acl_identity_iff {acl : Acl}
    (h : Gives members depth "userInRole" (Decoder.option Decoder.string) none claims.userInRole) :
    claims.identity.acl = some acl ↔ CarriesAcl members acl := by
  have hpayload (s : String) : (Acl.ofPayload s).toOption = some acl ↔ Acl.ofPayload s = .ok acl := by
    cases Acl.ofPayload s <;> simp [Except.toOption]
  simp only [identity, Option.bind_eq_some_iff, text_eq_some_iff h, hpayload, CarriesAcl]

/-- The identity from the claims of an object has what the members give in their forms, and nothing
else: it is a super admin, has a user, a list or a tenant exactly when they say so. So a right comes
from the members that say a super admin, or from those that name a user and carry a list with it. -/
theorem identity_of_object {raw : List (Option String × Node)} {cut : Option Break} {trailing : Bool}
    (hobject : Json.document body.toList = ⟨.object raw cut, trailing⟩)
    (hread : Json.parseWith decode body = .ok claims) :
    ∃ members, Lists body members ∧
      (claims.identity.isSuperAdmin = true ↔ SaysSuperAdmin members) ∧
      (∀ user, claims.identity.user = some user ↔ NamesUser members user) ∧
      (∀ acl, claims.identity.acl = some acl ↔ CarriesAcl members acl) ∧
      (∀ tenant, claims.identity.tenant = some tenant ↔ NamesTenant members tenant) ∧
      ∀ entity action, (claims.identity.evaluate entity action).allowed = true ↔
        SaysSuperAdmin members ∨
          ∃ acl user, CarriesAcl members acl ∧ NamesUser members user ∧ acl.Grants entity action := by
  obtain ⟨members, hlists⟩ := Slot.exists_lists_of_record hobject hread
  obtain ⟨huser, htenant, hadmin, hacl, -, -⟩ := gives_of_lists hlists hread
  have hsuper : claims.identity.isSuperAdmin = true ↔ SaysSuperAdmin members :=
    isSuperAdmin_iff hadmin
  refine ⟨members, hlists, hsuper, fun user => user_identity_iff huser,
    fun acl => acl_identity_iff hacl, fun tenant => tenant_identity_iff htenant, ?_⟩
  intro entity action
  simp only [Identity.allowed_iff_grants, hsuper, user_identity_iff huser, acl_identity_iff hacl]

/-- Claims whose user stands between blanks and braces, and whose list is in an older spelling. -/
def noteBody : Json :=
  .object [("userId", .string " \x7b00000000-0000-0000-0000-00000000000A\x7d "), ("note", .array []),
    ("isSuperAdmin", .string "yes"), ("jti", .string "n"), ("iat", .int 0), ("exp", .int 60),
    ("userInRole", .string "[\x7b\"EntityName\":\"Books\",\"Action\":2\x7d]")]

def noteMembers : List (String × Node) :=
  [("userId", .string (some " \x7b00000000-0000-0000-0000-00000000000A\x7d ")), ("note", .array [] none),
    ("isSuperAdmin", .string (some "yes")), ("jti", .string (some "n")),
    ("iat", .number (some (.int 0))), ("exp", .number (some (.int 60))),
    ("userInRole", .string (some "[\x7b\"EntityName\":\"Books\",\"Action\":2\x7d]"))]

def noteClaims : TokenClaims :=
  { blank with
    userId := some " \x7b00000000-0000-0000-0000-00000000000A\x7d "
    userInRole := some "[\x7b\"EntityName\":\"Books\",\"Action\":2\x7d]"
    jti := "n"
    exp := Integer64.nearest 60 }

/-- The holder may read books, as the list says, and is no super admin. -/
theorem identity_of_object_note :
    Lists noteBody.compact noteMembers ∧ Json.parseWith decode noteBody.compact = .ok noteClaims ∧
      noteClaims.identity.user = some ⟨.ofNat 10⟩ ∧ ¬ SaysSuperAdmin noteMembers ∧
      (noteClaims.identity.evaluate "books" .read).allowed = true := by
  have hlists : Lists noteBody.compact noteMembers :=
    Exact.document_compact (by simp [noteBody, Exact.int])
  have hread : Json.parseWith decode noteBody.compact = .ok noteClaims := by
    rw [hlists.parseWith_eq]
    decide +kernel
  obtain ⟨members, hmembers, hadmin, huser, -, -, hallowed⟩ := identity_of_object hlists hread
  obtain rfl : members = noteMembers := hmembers.eq_of_lists hlists
  have hnamed : NamesUser noteMembers ⟨.ofNat 10⟩ :=
    ⟨_, List.mem_cons_self, Uuid.parseTrimmed?_eq_some_iff.mp (by decide), by decide⟩
  have hcarried : CarriesAcl noteMembers ⟨[⟨"Books", .single .read⟩]⟩ :=
    ⟨_, List.mem_of_getElem? (i := 6) rfl, by decide +kernel⟩
  refine ⟨hlists, hread, (huser _).mpr hnamed, ?_, (hallowed _ _).mpr (.inr ?_)⟩
  · rw [← hadmin]
    decide
  · exact ⟨_, _, hcarried, hnamed, _, List.mem_cons_self, by decide, by decide⟩

end TokenClaims

end RecordGate
