import RecordGate.Proofs.Auth.Claims
import RecordGate.Proofs.Auth.Issuer
import RecordGate.Proofs.Auth.Verdict

/-!
# Claims that cannot be used

Any value may stand for the user and for the flag of a super admin, and one that cannot be used is as
if it were absent. The list is a text or null: a text without a list is passed over, but any other
value there makes the credential invalid, as if its signature were wrong.
-/

namespace RecordGate

open Json (Decoder Exact Gives Lists Node Slot)

namespace TokenClaims

/-- Members with what a credential must have: no name comes twice, the values keep to the grammar, and
the token has a name and its times. Anything may stand for the user, the flag and the list. -/
structure Loose (members : List (String × Node)) : Prop where
  distinct : (members.map Prod.fst).Nodup
  valid : ∀ m ∈ members, m.2.skip = .ok ()
  jti : ∃ s, ("jti", .string (some s)) ∈ members
  iat : ∃ n : Integer64, ("iat", .number (some (.int n.val))) ∈ members
  exp : ∃ n : Integer64, ("exp", .number (some (.int n.val))) ∈ members
  texts : ∀ name ∈ ["tenantId", "iss"], ∀ node, (name, node) ∈ members →
    ∃ s, node = .string (some s)

/-- A text or null stands for the list. -/
def TextualList (members : List (String × Node)) : Prop :=
  ∀ node, ("userInRole", node) ∈ members → node = .null ∨ ∃ s, node = .string (some s)

section Decoding

variable {members : List (String × Node)} {body : String} {claims : TokenClaims} {depth : Nat}

theorem Loose.eq_of_mem (h : Loose members) {name : String} {node other : Node}
    (hnode : (name, node) ∈ members) (hother : (name, other) ∈ members) : node = other := by
  have := List.inj_on_of_nodup_map h.distinct hnode hother rfl
  exact congrArg Prod.snd this

theorem exists_lenient {α : Type} {f : Json → α} {node : Node} (h : ∃ v, node.read depth = .ok v) :
    ∃ value, lenient f depth node = .ok value := by
  obtain ⟨v, hv⟩ := h
  exact ⟨f v, lenient_eq_ok_iff.mpr ⟨v, hv, rfl⟩⟩

/-- Claims are read when the user and the flag are values and the list is a text or null. -/
theorem exists_decode_iff (hlists : Lists body members) (hloose : Loose members) :
    (∃ claims, Json.parseWith decode body = .ok claims) ↔
      (∀ name ∈ ["userId", "isSuperAdmin"], ∀ node, (name, node) ∈ members →
        ∃ v, node.read 126 = .ok v) ∧ TextualList members := by
  constructor
  · rintro ⟨claims, hread⟩
    obtain ⟨huser, -, hadmin, hlist, -, -⟩ := gives_of_lists hlists hread
    constructor
    · simp only [List.forall_mem_cons, List.not_mem_nil, false_implies, implies_true, and_true]
      constructor
      · intro node hnode
        obtain ⟨v, hv, -⟩ := lenient_eq_ok_iff.mp (huser.1 node hnode)
        exact ⟨v, hv⟩
      · intro node hnode
        obtain ⟨v, hv, -⟩ := lenient_eq_ok_iff.mp (hadmin.1 node hnode)
        exact ⟨v, hv⟩
    · intro node hnode
      exact Decoder.exists_option_string_iff.mp ⟨_, hlist.1 node hnode⟩
  · rintro ⟨hread, hlist⟩
    rw [hlists.parseWith_eq]
    refine Slot.Suits.exists_record (by decide) ?_ blank
    obtain ⟨jti, hjti⟩ := hloose.jti
    obtain ⟨iat, hiat⟩ := hloose.iat
    obtain ⟨exp, hexp⟩ := hloose.exp
    have htext (name : String) (hname : name ∈ ["tenantId", "iss"]) (node : Node)
        (hnode : (name, node) ∈ members) : ∃ c, Decoder.option Decoder.string 126 node = .ok c := by
      obtain ⟨s, rfl⟩ := hloose.texts name hname node hnode
      exact ⟨_, Decoder.option_string_iff.mpr rfl⟩
    refine Slot.suits_of_plain (by decide) (by decide) hloose.distinct hloose.valid ?_ ?_
    · simp only [slots, List.forall_mem_cons, List.not_mem_nil, false_implies, implies_true, and_true,
        Slot.name_of]
      refine ⟨?_, ?_, ?_, ?_, ?_, ?_, ?_, ?_⟩ <;> intro node hnode <;>
        apply Slot.exists_store_of
      · exact exists_lenient (hread "userId" (by simp) node hnode)
      · exact htext "tenantId" (by simp) node hnode
      · exact exists_lenient (hread "isSuperAdmin" (by simp) node hnode)
      · exact Decoder.exists_option_string_iff.mpr (hlist node hnode)
      · rw [hloose.eq_of_mem hnode hjti]
        exact ⟨jti, rfl⟩
      · rw [hloose.eq_of_mem hnode hiat]
        exact ⟨iat, by simp [Decoder.ranged, Json.expect, Ranged.ofInt?_val]⟩
      · rw [hloose.eq_of_mem hnode hexp]
        exact ⟨exp, by simp [Decoder.ranged, Json.expect, Ranged.ofInt?_val]⟩
      · exact htext "iss" (by simp) node hnode
    · simpa [slots, Slot.of] using ⟨⟨_, hjti⟩, ⟨_, hiat⟩, _, hexp⟩

end Decoding

/-- The time of expiry is the one that the members give. -/
theorem exp_eq_of_mem {members : List (String × Node)} {depth : Nat} {claims : TokenClaims} {exp : Int}
    (h : Gives members depth "exp" (Decoder.ranged _ _) blank.exp claims.exp)
    (hexp : ("exp", .number (some (.int exp))) ∈ members) : claims.exp.val = exp := by
  have hdecode := h.1 _ hexp
  rw [Decoder.ranged] at hdecode
  cases hint : (Ranged.ofInt? exp : Option Integer64) with
  | none =>
      rw [hint] at hdecode
      cases hdecode
  | some r =>
      rw [hint] at hdecode
      cases hdecode
      exact Ranged.val_of_ofInt? hint

/-- The members name no one for whom the claims are meant, and no list or object stands for their start
or their subject. -/
structure Unaddressed (members : List (String × Node)) : Prop where
  audience : ∀ node, ("aud", node) ∉ members
  start : ∀ node, ("nbf", node) ∈ members → Signer.unread true 126 node = .ok ()
  subject : ∀ node, ("sub", node) ∈ members → Signer.unread false 126 node = .ok ()

theorem keeps_of_ne_aud :
    ∀ slot ∈ Signer.registeredSlots, slot.name ≠ "aud" → Slot.Keeps id slot := by
  simp [Signer.registeredSlots, Slot.keeps_of]

/-- Unaddressed claims are meant for no one in particular. -/
theorem registered_of_loose {members : List (String × Node)} {body : String}
    (hlists : Lists body members) (hloose : Loose members) (hopen : Unaddressed members) :
    Json.parseWith (Slot.record false Signer.registeredSlots) body = .ok false := by
  obtain ⟨exp, hexp⟩ := hloose.exp
  have hsuits : Slot.Suits Signer.registeredSlots 126 members := by
    refine Slot.suits_of_plain (by decide) (by decide) hloose.distinct hloose.valid ?_
      (by simp [Signer.registeredSlots, Slot.of])
    simp only [Signer.registeredSlots, List.forall_mem_cons, List.not_mem_nil, false_implies,
      implies_true, and_true, Slot.name_of]
    refine ⟨?_, ?_, ?_, ?_, ?_⟩ <;> intro node hnode <;> apply Slot.exists_store_of
    · rw [hloose.eq_of_mem hnode hexp]
      exact ⟨(), rfl⟩
    · exact ⟨(), hopen.start node hnode⟩
    · exact ⟨(), hopen.subject node hnode⟩
    · obtain ⟨s, rfl⟩ := hloose.texts "iss" (by simp) node hnode
      exact ⟨(), rfl⟩
    · exact absurd hnode (hopen.audience node)
  obtain ⟨hasAudience, hrecord⟩ := hsuits.exists_record (by decide) false
  obtain ⟨seen, hfill⟩ := Slot.exists_fillMembers_of_record hrecord
  -- Only a member `aud` could have changed the flag from the start.
  have hsame : id hasAudience = id false := by
    refine Slot.get_of_fillMembers_of_keeps hfill fun m hm other hother => ?_
    have hname : other.name = m.1 := Slot.name_of_find?_answersTo (by decide) hother
    have hne : other.name ≠ "aud" := fun haud => hopen.audience m.2 (haud ▸ hname ▸ hm)
    exact keeps_of_ne_aud other (List.mem_of_find?_eq_some hother) hne
  rw [hlists.parseWith_eq, show Json.depthLimit = 126 + 1 from rfl, hrecord]
  exact congrArg Except.ok hsame

end TokenClaims

namespace Signer

open TokenClaims (CarriesAcl Loose NamesUser SaysSuperAdmin TextualList Unaddressed)

variable {s : Signer} {secret token body : String} {claims : TokenClaims} {now : Int}

/-- A token of three parts: a header that can be read, a payload that stands for a text, and the
signature of the two under a secret. -/
def Seals (secret token body : String) : Prop :=
  ∃ head payload,
    token.toList = head ++ '.' :: payload ++ '.' :: signature secret (head ++ '.' :: payload) ∧
      readPart (Slot.record () headerSlots) head = .ok () ∧ plain? payload = some body

/-- The token with a text for its payload. -/
def sealed (secret body : String) : String :=
  let parts := part header ++ '.' :: Base64Url.encode (Text.bytes body)
  String.ofList (parts ++ '.' :: signature secret parts)

theorem seals_sealed (secret body : String) : Seals secret (sealed secret body) body := by
  refine ⟨part header, Base64Url.encode (Text.bytes body), ?_, readPart_header, ?_⟩
  · rw [sealed, String.toList_ofList]
  · simp only [plain?, Base64Url.decode?_encode, Option.bind_some, Text.ofBytes?_bytes]

theorem Seals.signed (h : Seals secret token body)
    (hread : Json.parseWith TokenClaims.decode body = .ok claims) {hasAudience : Bool}
    (haudience : Json.parseWith (Slot.record false registeredSlots) body = .ok hasAudience) :
    Signed secret token claims hasAudience := by
  obtain ⟨head, payload, htoken, hhead, hbody⟩ := h
  exact ⟨head, payload, point_not_mem_of_plain? hbody, htoken, Base64Url.point_not_mem_encode _, hhead,
    readPart_eq_ok_iff.mpr ⟨body, hbody, hread⟩, readPart_eq_ok_iff.mpr ⟨body, hbody, haudience⟩⟩

/-- The claims of a sealed token are those that its text is read as. -/
theorem Seals.parseWith_of_signed (h : Seals secret token body) {hasAudience : Bool}
    (hsigned : Signed secret token claims hasAudience) :
    Json.parseWith TokenClaims.decode body = .ok claims := by
  obtain ⟨head, payload, htoken, -, hbody⟩ := h
  obtain ⟨head', payload', hpayload', htoken', hsign', -, hclaims, -⟩ := hsigned
  -- Both ways of taking the token apart cut it at the same points.
  have hparts := cut_eq_ok_iff.mpr ⟨Base64Url.point_not_mem_encode _, htoken⟩
  rw [cut_eq_ok_iff.mpr ⟨hsign', htoken'⟩, Except.ok.injEq, Prod.mk.injEq] at hparts
  have hinner := cut_eq_ok_iff.mpr ⟨point_not_mem_of_plain? hbody, hparts.1⟩
  rw [cut_eq_ok_iff.mpr ⟨hpayload', rfl⟩, Except.ok.injEq, Prod.mk.injEq] at hinner
  obtain ⟨text, htext, hread⟩ := readPart_eq_ok_iff.mp hclaims
  rw [hinner.2, hbody, Option.some.injEq] at htext
  rw [htext, hread]

/-- A sealed token whose text is no claims is refused at all times. -/
theorem verify_of_seals_of_unread (h : Seals s.secret token body)
    (hread : ∀ claims, Json.parseWith TokenClaims.decode body ≠ .ok claims) :
    s.verify now token = .error .invalidToken := by
  rcases verify_cases s now token with ⟨claims, hasAudience, hsigned, -⟩ | hinvalid
  · exact absurd (h.parseWith_of_signed hsigned) (hread claims)
  · exact hinvalid

theorem acceptsIssuer_iff {iss : Option String} :
    s.acceptsIssuer iss = true ↔ ∀ name, iss = some name → s.issuer = none ∨ s.issuer = some name := by
  cases hissuer : s.issuer with
  | none => simp [acceptsIssuer, hissuer]
  | some expected =>
      rw [acceptsIssuer_eq_true_iff hissuer]
      cases iss with
      | none => simp
      | some given => simp [Eq.comm (a := expected)]

/-- A sealed token with unaddressed claims gives their identity from any values for the user, the flag
and the list that were read, until it expires. -/
theorem authenticate_of_seals_iff {members : List (String × Node)} (h : Seals s.secret token body)
    (hlists : Lists body members) (hloose : Loose members) (hopen : Unaddressed members)
    (hread : Json.parseWith TokenClaims.decode body = .ok claims) {exp : Int}
    (hexp : ("exp", .number (some (.int exp))) ∈ members) :
    s.authenticate now token = .ok claims.identity ↔
      0 ≤ exp ∧ s.earliest now ≤ exp ∧
        ∀ name, ("iss", .string (some name)) ∈ members → s.issuer = none ∨ s.issuer = some name := by
  obtain ⟨-, -, -, -, hgives, hiss⟩ := TokenClaims.gives_of_lists hlists hread
  have hsigned := h.signed hread (TokenClaims.registered_of_loose hlists hloose hopen)
  have hissuer : s.acceptsIssuer claims.iss = true ↔
      ∀ name, ("iss", .string (some name)) ∈ members → s.issuer = none ∨ s.issuer = some name := by
    simp only [acceptsIssuer_iff, TokenClaims.text_eq_some_iff hiss]
  rw [← TokenClaims.exp_eq_of_mem hgives hexp, ← hissuer, authenticate_eq_ok_iff]
  simp only [verify_of_signed hsigned, judge_eq_ok_iff, true_and]
  constructor
  · rintro ⟨given, ⟨rfl, hjudged⟩, -⟩
    exact hjudged
  · intro hjudged
    exact ⟨claims, ⟨rfl, hjudged⟩, rfl⟩

/-- Any values may stand for the user and for the flag, and what cannot be used there, or in the text of
the list, gives nothing: a sealed token still gives an identity. But the list must be a text or null.
With any other value no claims are read, and the token is refused at all times. -/
theorem authenticate_of_loose {members : List (String × Node)} (hlists : Lists body members)
    (hloose : Loose members) :
    ((∃ claims, Json.parseWith TokenClaims.decode body = .ok claims) ↔
        (∀ name ∈ ["userId", "isSuperAdmin"], ∀ node, (name, node) ∈ members →
          ∃ v, node.read 126 = .ok v) ∧ TextualList members) ∧
      (∀ claims, Json.parseWith TokenClaims.decode body = .ok claims →
        ((∀ user, ¬ NamesUser members user) → claims.identity.user = none) ∧
          (¬ SaysSuperAdmin members → claims.identity.isSuperAdmin = false) ∧
          ((∀ acl, ¬ CarriesAcl members acl) → claims.identity.acl = none)) ∧
      ∀ (s : Signer) token, Seals s.secret token body →
        (∀ claims exp now, Json.parseWith TokenClaims.decode body = .ok claims →
          Unaddressed members → ("exp", .number (some (.int exp))) ∈ members →
            (s.authenticate now token = .ok claims.identity ↔
              0 ≤ exp ∧ s.earliest now ≤ exp ∧ ∀ name, ("iss", .string (some name)) ∈ members →
                s.issuer = none ∨ s.issuer = some name)) ∧
          (¬ TextualList members →
            ∀ now, s.authenticate now token = .error .invalidToken) := by
  have hdecode := TokenClaims.exists_decode_iff hlists hloose
  refine ⟨hdecode, ?_, ?_⟩
  · intro claims hread
    obtain ⟨huser, -, hadmin, hlist, -, -⟩ := TokenClaims.gives_of_lists hlists hread
    refine ⟨?_, ?_, ?_⟩
    · intro hnone
      rw [Option.eq_none_iff_forall_ne_some]
      exact fun user h => hnone user ((TokenClaims.user_identity_iff huser).mp h)
    · intro hnone
      rw [← Bool.not_eq_true]
      exact fun h => hnone ((TokenClaims.isSuperAdmin_iff hadmin).mp h)
    · intro hnone
      rw [Option.eq_none_iff_forall_ne_some]
      exact fun acl h => hnone acl ((TokenClaims.acl_identity_iff hlist).mp h)
  · intro s token hseals
    refine ⟨?_, ?_⟩
    · intro claims exp now hread hopen hexp
      exact authenticate_of_seals_iff hseals hlists hloose hopen hread hexp
    · intro hlist now
      rw [authenticate, verify_of_seals_of_unread hseals]
      · rfl
      · intro claims hread
        exact hlist (hdecode.mp ⟨claims, hread⟩).2

/-- Claims with a list for the user, an object for the flag, and some value for the list. -/
def muddle (list : Json) : Json :=
  .object [("userId", .array [.int 7]), ("isSuperAdmin", .object [("is", .bool true)]),
    ("userInRole", list), ("jti", .string "m"), ("iat", .int 0), ("exp", .int 60)]

def muddleMembers (list : Json) : List (String × Node) :=
  [("userId", .array [.number (some (.int 7))] none),
    ("isSuperAdmin", .object [(some "is", .bool true)] none), ("userInRole", list.node),
    ("jti", .string (some "m")), ("iat", .number (some (.int 0))),
    ("exp", .number (some (.int 60)))]

theorem lists_muddle {list : Json} (h : list.Exact) :
    Lists (muddle list).compact (muddleMembers list) :=
  Exact.document_compact (by simp [muddle, Exact.int, h])

theorem loose_muddle {list : Json} (h : list.node.skip = .ok ()) : Loose (muddleMembers list) where
  distinct := by simp [muddleMembers]
  valid := by
    simp [muddleMembers, h, Node.skip, Node.skipItems, Node.skipMembers, Node.closedSkipped, bind,
      Except.bind]
  jti := ⟨"m", by simp [muddleMembers]⟩
  iat := ⟨⟨0, by decide, by decide⟩, by simp [muddleMembers]⟩
  exp := ⟨⟨60, by decide, by decide⟩, by simp [muddleMembers]⟩
  texts := by simp [muddleMembers]

theorem read_muddle {list : Json} (h : ∃ v, list.node.read 126 = .ok v) :
    ∀ m ∈ muddleMembers list, ∃ v, m.2.read 126 = .ok v := by
  simp only [muddleMembers, List.forall_mem_cons, List.not_mem_nil, false_implies, implies_true,
    and_true]
  exact ⟨⟨_, rfl⟩, ⟨_, rfl⟩, h, ⟨_, rfl⟩, ⟨_, rfl⟩, _, rfl⟩

theorem not_textualList_muddle : ¬ TextualList (muddleMembers (.int 42)) := by
  intro hlist
  have hnumber := hlist _ (List.mem_of_getElem? (i := 2) rfl)
  simp [Json.node, Json.int] at hnumber

/-- A signer that knows no issuer. -/
def clerk : Signer := ⟨"drawer", by decide, none, ⟨3600, 0⟩, 30⟩

/-- A text that is no list is passed over, and a number in its place is not. -/
theorem clerk_refuses_number :
    Loose (muddleMembers (.string "none")) ∧ Loose (muddleMembers (.int 42)) ∧
      (∃ claims : TokenClaims,
        clerk.authenticate 90 (sealed "drawer" (muddle (.string "none")).compact) =
            .ok claims.identity ∧
          claims.identity.user = none ∧ claims.identity.isSuperAdmin = false ∧
          claims.identity.acl = none) ∧
      clerk.authenticate 90 (sealed "drawer" (muddle (.int 42)).compact) = .error .invalidToken := by
  have hpassed : Loose (muddleMembers (.string "none")) := loose_muddle rfl
  have hrefused : Loose (muddleMembers (.int 42)) := loose_muddle rfl
  obtain ⟨hdecode, hnothing, hpass⟩ := authenticate_of_loose (lists_muddle (.string "none")) hpassed
  obtain ⟨-, -, hrefuse⟩ :=
    authenticate_of_loose (lists_muddle (.int 42 (by decide) (by decide))) hrefused
  refine ⟨hpassed, hrefused, ?_, (hrefuse clerk _ (seals_sealed _ _)).2 not_textualList_muddle 90⟩
  have hvalues : ∀ m ∈ muddleMembers (.string "none"), ∃ v, m.2.read 126 = .ok v :=
    read_muddle ⟨_, rfl⟩
  obtain ⟨claims, hread⟩ := hdecode.mpr
    ⟨fun name _ node hnode => hvalues _ hnode, by simp [TextualList, muddleMembers, Json.node]⟩
  have hopen : Unaddressed (muddleMembers (.string "none")) := by
    constructor <;> simp [muddleMembers]
  have hunread (acl : Acl) : Acl.ofPayload "none" ≠ .ok acl := by
    rw [show Acl.ofPayload "none" = .error .malformed by decide]
    simp
  obtain ⟨huser, hadmin, hacl⟩ := hnothing claims hread
  refine ⟨claims, ((hpass clerk _ (seals_sealed _ _)).1 claims 60 90 hread hopen ?_).mpr ?_,
    huser ?_, hadmin ?_, hacl ?_⟩
  · simp [muddleMembers]
  · simp [muddleMembers, earliest, clerk]
  · simp [NamesUser, muddleMembers]
  · simp [SaysSuperAdmin, muddleMembers]
  · simp [CarriesAcl, muddleMembers, Json.node, hunread]

/-- Not every value may stand for the list. -/
theorem exists_loose_refused :
    ¬ ∀ (body : String) (members : List (String × Node)), Lists body members → Loose members →
      (∀ m ∈ members, ∃ v, m.2.read 126 = .ok v) →
        ∃ claims, Json.parseWith TokenClaims.decode body = .ok claims := by
  intro h
  have hlists := lists_muddle (.int 42 (by decide) (by decide))
  have hloose : Loose (muddleMembers (.int 42)) := loose_muddle rfl
  have hdecode := h _ _ hlists hloose (read_muddle ⟨_, rfl⟩)
  exact not_textualList_muddle ((TokenClaims.exists_decode_iff hlists hloose).mp hdecode).2

end Signer

end RecordGate
