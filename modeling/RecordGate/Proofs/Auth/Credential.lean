import RecordGate.Proofs.Auth.Signed
import RecordGate.Proofs.Crypto.Base64Url
import RecordGate.Proofs.Json.RoundTrip
import RecordGate.Proofs.Text.Bytes
import RecordGate.Proofs.Uuid

/-!
# What a credential carries

The token of claims is signed, and its claims are read back as they were. So are the access control
list inside them and the identity that they give.
-/

namespace RecordGate

open Json (Decoder Slot)

theorem EntitlementSet.ofJson?_json (s : EntitlementSet) : ofJson? s.json = some s := by
  obtain ⟨_ | _, _ | _, _ | _, _ | _⟩ := s <;> rfl

theorem EntitlementSet.exact_json (s : EntitlementSet) : s.json.Exact := by
  refine .array _ fun v hv => ?_
  obtain ⟨n, hn, rfl⟩ := List.mem_map.mp hv
  obtain ⟨a, -, rfl⟩ := List.mem_map.mp hn
  cases a <;> exact .int _ (by decide) (by decide)

theorem EntitlementSet.height_json (s : EntitlementSet) : s.json.height = 1 := by
  obtain ⟨_ | _, _ | _, _ | _, _ | _⟩ := s <;> rfl

theorem EntitlementSet.decode_node (depth : Nat) (s : EntitlementSet) :
    decode (depth + 1) s.json.node = .ok s := by
  have hdeep : s.json.height ≤ depth + 1 := by
    rw [s.height_json]
    omega
  have hread := Json.read_node (depth + 1) s.json hdeep
  simp only [decode, Decoder.refine, hread, bind, Except.bind, s.ofJson?_json, Json.expect]

theorem AclEntry.exact_json (e : AclEntry) : e.json.Exact := by
  refine .object _ fun m hm => ?_
  simp only [List.mem_cons, List.not_mem_nil, or_false] at hm
  rcases hm with rfl | rfl
  · exact .string _
  · exact e.bits.exact_json

theorem AclEntry.decode_node (depth : Nat) (e : AclEntry) :
    decode (depth + 2) e.json.node = .ok e := by
  have hbits := e.bits.decode_node depth
  simp [decode, slots, Slot.record, Slot.fillMembers, Slot.of, Slot.answersTo, Slot.complete, json,
    Json.node, Json.nodeMembers, Json.Node.inside, Json.Node.closed, Decoder.string, hbits, bind,
    Except.bind, Except.map]

namespace Acl

theorem exact_json (acl : Acl) : acl.json.Exact := by
  refine .array _ fun v hv => ?_
  obtain ⟨e, -, rfl⟩ := List.mem_map.mp hv
  exact e.exact_json

theorem decode_node (depth : Nat) (acl : Acl) : decode (depth + 3) acl.json.node = .ok acl := by
  have hitems := Json.items_map_node (AclEntry.decode_node depth) acl.entries
  simp only [decode, json, Json.node, Decoder.list, Json.Node.inside, Json.Node.closed, hitems, bind,
    Except.bind, pure, Except.pure, Except.map]

/-- The text that a credential carries is read as the list that it was written for. -/
theorem ofPayload_payload (acl : Acl) : ofPayload acl.payload = .ok acl := by
  rw [ofPayload, payload, acl.exact_json.parseWith_compact]
  exact decode_node 124 acl

end Acl

namespace TokenClaims

theorem exact_entry {name : String} {value : Option String} {m : String × Json}
    (h : m ∈ entry name value) : m.2.Exact := by
  cases value with
  | none => simp [entry] at h
  | some s =>
      obtain rfl : m = (name, .string s) := by simpa [entry] using h
      exact .string s

theorem exact_json (c : TokenClaims) : c.json.Exact := by
  have hint (r : Integer64) : (Json.int r.val).Exact := by
    have := r.low_le
    have := r.le_high
    exact .int r.val (by omega) (by omega)
  refine .object _ fun m hm => ?_
  simp only [stableMembers, List.mem_append, List.mem_cons, List.not_mem_nil, or_false] at hm
  rcases hm with (((h | h) | rfl | h) | rfl | rfl | rfl) | h
  · exact exact_entry h
  · exact exact_entry h
  · exact .bool _
  · exact exact_entry h
  · exact .string _
  · exact hint _
  · exact hint _
  · exact exact_entry h

theorem decode_node (depth : Nat) (c : TokenClaims) : decode (depth + 1) c.json.node = .ok c := by
  obtain ⟨_ | user, _ | tenant, flag, _ | acl, jti, iat, exp, _ | iss⟩ := c
  all_goals
    simp [decode, slots, blank, Slot.record, Slot.fillMembers, Slot.of, Slot.answersTo,
      Slot.complete, json, stableMembers, entry, Json.node, Json.nodeMembers, Json.Node.inside,
      Json.Node.closed, Json.Node.read, lenient, subjectOf, flagOf, Decoder.option, Decoder.string,
      Decoder.ranged, Json.int, Json.expect, Ranged.ofInt?_val, bind, Except.bind, Except.map]

end TokenClaims

namespace Signer

variable {α : Type}

/-- A written value is read from its part of a token as it is decoded from its tree. -/
theorem readPart_part {v : Json} {decode : Decoder α} {a : α} (h : v.Exact)
    (hdecode : decode Json.depthLimit v.node = .ok a) : readPart decode (part v) = .ok a := by
  simp only [readPart, part, Base64Url.decode?_encode, Option.bind_some, Text.ofBytes?_bytes,
    Option.map_some, h.parseWith_compact, hdecode]

theorem exact_header : header.Exact := by
  refine .object _ fun m hm => ?_
  simp only [List.mem_cons, List.not_mem_nil, or_false] at hm
  rcases hm with rfl | rfl <;> exact .string _

theorem readPart_header : readPart (Slot.record () headerSlots) (part header) = .ok () :=
  readPart_part exact_header rfl

theorem readPart_claims (c : TokenClaims) :
    readPart TokenClaims.decode (part c.json) = .ok c :=
  readPart_part c.exact_json (TokenClaims.decode_node 126 c)

/-- The claims of a token that was made name no audience. -/
theorem readPart_registered (c : TokenClaims) :
    readPart (Slot.record false registeredSlots) (part c.json) = .ok false := by
  refine readPart_part c.exact_json ?_
  obtain ⟨_ | user, _ | tenant, flag, _ | acl, jti, iat, exp, _ | iss⟩ := c <;> rfl

theorem signed_token (secret : String) (c : TokenClaims) :
    Signed secret (token secret c) c false := by
  refine ⟨part header, part c.json, Base64Url.point_not_mem_encode _, ?_,
    Base64Url.point_not_mem_encode _, readPart_header, readPart_claims c, readPart_registered c⟩
  rw [token, String.toList_ofList]

/-- The claims of a credential give the identity that it was made for. -/
theorem identity_claimsFor (s : Signer) (now : Int) (jti : Uuid) (subject : Subject)
    (acl : Option Acl) :
    (s.claimsFor now jti subject acl).identity =
      ⟨Identity.subject? subject.user, some subject.tenant, subject.isSuperAdmin, acl⟩ := by
  have hacl : ((acl.map Acl.payload).bind fun payload => (Acl.ofPayload payload).toOption) = acl := by
    cases acl with
    | none => rfl
    | some acl => simp [Acl.ofPayload_payload, Except.toOption]
  simp [TokenClaims.identity, claimsFor, hacl, UserId.parse?, TenantId.parse?,
    Uuid.parseTrimmed?_text]

theorem acceptsIssuer_self (s : Signer) : s.acceptsIssuer s.issuer = true := by
  unfold acceptsIssuer
  cases s.issuer <;> simp

/-- By a clock that is past the leeway, a time of expiry is accepted until the leeway is over. -/
theorem earliest_le {s : Signer} {now exp : Int} (hclock : s.leeway ≤ now)
    (hexp : now ≤ exp + s.leeway) : s.earliest now ≤ exp := by
  unfold earliest
  omega

/-- A credential authenticates the one it was issued for with every signer of the same secret that
takes its issuer, as long as the expiry is accepted. -/
theorem authenticate_issue_of_secret {s checker : Signer} (now later : Int) (jti : Uuid)
    (subject : Subject) (acl : Option Acl) (hsecret : checker.secret = s.secret)
    (hissuer : checker.acceptsIssuer s.issuer = true)
    (h : checker.earliest later ≤ (s.issue now jti subject acl).claims.exp.val) :
    checker.authenticate later (s.issue now jti subject acl).token =
      .ok ⟨Identity.subject? subject.user, some subject.tenant, subject.isSuperAdmin, acl⟩ := by
  have hearliest : 0 ≤ checker.earliest later := Int.emod_nonneg _ (by decide)
  have hnonneg : ¬ (s.claimsFor now jti subject acl).exp.val < 0 := by
    change checker.earliest later ≤ (s.claimsFor now jti subject acl).exp.val at h
    omega
  have hlive : ¬ (s.claimsFor now jti subject acl).exp.val < checker.earliest later :=
    Int.not_lt.mpr h
  have htaken : checker.acceptsIssuer (s.claimsFor now jti subject acl).iss = true := hissuer
  have hsigned : Signed checker.secret (token s.secret (s.claimsFor now jti subject acl))
      (s.claimsFor now jti subject acl) false := by
    rw [hsecret]
    exact signed_token s.secret _
  rw [authenticate, issue, verify_of_signed hsigned, judge, if_neg hnonneg, if_neg hlive, htaken,
    Bool.not_true, Bool.false_or, if_neg (by decide), Except.map, identity_claimsFor]

/-- A credential authenticates the one it was issued for, as long as its expiry is accepted. -/
theorem authenticate_issue (s : Signer) (now later : Int) (jti : Uuid) (subject : Subject)
    (acl : Option Acl) (h : s.earliest later ≤ (s.issue now jti subject acl).claims.exp.val) :
    s.authenticate later (s.issue now jti subject acl).token =
      .ok ⟨Identity.subject? subject.user, some subject.tenant, subject.isSuperAdmin, acl⟩ :=
  authenticate_issue_of_secret now later jti subject acl rfl s.acceptsIssuer_self h

end Signer

end RecordGate
