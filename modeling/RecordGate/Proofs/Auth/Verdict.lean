import RecordGate.Proofs.Auth.Credential
import RecordGate.Proofs.Json.Records

/-!
# What an answer tells about a token

A signer tells that a token has expired only when the token is genuine. Any other text that is not
accepted gets one and the same answer, and one without the right signature gets it at all times, so
that nobody can learn about an expiry who does not have the secret.
-/

namespace RecordGate.Signer

open Json (Decoder Slot)

/-- The text that a part of a token stands for. -/
def plain? (s : List Char) : Option String := (Base64Url.decode? s).bind Text.ofBytes?

/-- The algorithm that the text of a header declares, by name or in its place. -/
def algorithm? (header : String) : Option String :=
  ((Json.document header.toList).root.field? "alg" 1).bind Json.Node.chosen?

/-- A token of three parts: a header that declares the algorithm, a payload that is read as the
claims, and the signature of these two under a secret. -/
def Genuine (secret token : String) (claims : TokenClaims) : Prop :=
  ∃ head payload header body, '.' ∉ head ∧ '.' ∉ payload ∧
    token.toList = head ++ '.' :: payload ++ '.' :: signature secret (head ++ '.' :: payload) ∧
    '.' ∉ signature secret (head ++ '.' :: payload) ∧
    plain? head = some header ∧ algorithm? header = some "HS256" ∧
    plain? payload = some body ∧ Json.parseWith TokenClaims.decode body = .ok claims

theorem readPart_eq_ok_iff {α : Type} {decode : Decoder α} {s : List Char} {a : α} :
    readPart decode s = .ok a ↔
      ∃ text, plain? s = some text ∧ Json.parseWith decode text = .ok a := by
  rw [readPart, plain?]
  cases (Base64Url.decode? s).bind Text.ofBytes? with
  | none => simp
  | some text => cases h : Json.parseWith decode text <;> simp [h]

theorem point_not_mem_of_plain? {s : List Char} {text : String} (h : plain? s = some text) :
    '.' ∉ s := by
  obtain ⟨bytes, hbytes, -⟩ := Option.bind_eq_some_iff.mp h
  exact Base64Url.point_not_mem_of_decode? hbytes

/-- A header that can be read declares the algorithm of the signature. -/
theorem algorithm?_of_parseWith {header : String}
    (h : Json.parseWith (Slot.record () headerSlots) header = .ok ()) :
    algorithm? header = some "HS256" := by
  obtain ⟨value, hread, -⟩ := Json.exists_of_bind_eq_ok h
  have hslot : headerSlots[1]? =
      some (.of "alg" [] .required (Decoder.choice [("HS256", ())]) fun _ u => u) := rfl
  obtain ⟨field, depth, before, after, hfield, hstore⟩ :=
    Slot.exists_field_of_record (by decide) (by decide) hslot rfl hread
  obtain ⟨u, hchoice⟩ := Slot.exists_decode_of_store hstore
  obtain ⟨name, hname, hnamed⟩ := Decoder.chosen?_of_choice hchoice
  have hsame : "HS256" = name := by simpa [Decoder.named] using hnamed
  change (Json.document header.toList).root.field? "alg" 1 = some field at hfield
  rw [algorithm?, hfield, Option.bind_some, hname, ← hsame]

variable {s : Signer} {now : Int} {secret token : String} {claims : TokenClaims}
  {hasAudience : Bool}

theorem Signed.genuine (h : Signed secret token claims hasAudience) :
    Genuine secret token claims := by
  obtain ⟨head, payload, hpayload, htoken, hsign, hhead, hclaims, -⟩ := h
  obtain ⟨header, hheader, halgorithm⟩ := readPart_eq_ok_iff.mp hhead
  obtain ⟨body, hbody, hdecode⟩ := readPart_eq_ok_iff.mp hclaims
  exact ⟨head, payload, header, body, point_not_mem_of_plain? hheader, hpayload, htoken, hsign,
    hheader, algorithm?_of_parseWith halgorithm, hbody, hdecode⟩

/-- A text that does not end in the signature of what stands before it is refused at all times. -/
theorem verify_of_unsigned (h : ∀ body, token.toList ≠ body ++ '.' :: signature s.secret body)
    (now : Int) : s.verify now token = .error .invalidToken := by
  rcases verify_cases s now token with ⟨claims, hasAudience, hsigned, -⟩ | hinvalid
  · obtain ⟨head, payload, -, htoken, -⟩ := hsigned
    exact absurd htoken (h _)
  · exact hinvalid

theorem judge_eq_expired_iff :
    s.judge now claims hasAudience = .error .tokenExpired ↔
      0 ≤ claims.exp.val ∧ claims.exp.val < s.earliest now := by
  unfold judge
  split_ifs with hnegative hexpired hrefused
  · simp [Int.not_le.mpr hnegative]
  · simp [Int.not_lt.mp hnegative, hexpired]
  · simp [hexpired]
  · simp [hexpired]

/-- By a clock of 64 bits that is past the leeway, the earliest time of expiry does not go round. -/
theorem earliest_eq (hclock : s.leeway ≤ now) (hrange : now < 18446744073709551616) :
    s.earliest now = now - s.leeway := by
  unfold earliest
  omega

theorem error_of_judge {f : AuthFailure} (h : s.judge now claims hasAudience = .error f) :
    f = .tokenExpired ∨ f = .invalidToken := by
  unfold judge at h
  split_ifs at h <;> cases h <;> simp

/-- A signer that knows no issuer accepts a token, or tells that it has expired, only when the token
is genuine; the claims then show which. Everything else is invalid, and a text without the right
signature is so at all times. When the claims and the audience of a signed token can be read, the
answer follows from them and from the time. -/
theorem verify_genuine_or_invalid (s : Signer) (now : Int) (token : String)
    (hissuer : s.issuer = none) (hclock : s.leeway ≤ now) (hrange : now < 18446744073709551616) :
    (∀ claims, s.verify now token = .ok claims →
        Genuine s.secret token claims ∧ now - s.leeway ≤ claims.exp.val) ∧
      (s.verify now token = .error .tokenExpired →
        ∃ claims, Genuine s.secret token claims ∧ claims.exp.val < now - s.leeway) ∧
      (∀ f, s.verify now token = .error f → f ≠ .tokenExpired → f = .invalidToken) ∧
      ((∀ body, token.toList ≠ body ++ '.' :: signature s.secret body) →
        ∀ later, s.verify later token = .error .invalidToken) ∧
      ∀ claims hasAudience, Signed s.secret token claims hasAudience →
        (s.verify now token = .ok claims ↔
            hasAudience = false ∧ now - s.leeway ≤ claims.exp.val) ∧
          (s.verify now token = .error .tokenExpired ↔
            0 ≤ claims.exp.val ∧ claims.exp.val < now - s.leeway) := by
  have hearliest : s.earliest now = now - s.leeway := earliest_eq hclock hrange
  have haccepts (iss : Option String) : s.acceptsIssuer iss = true := by
    simp [acceptsIssuer, hissuer]
  refine ⟨?_, ?_, ?_, verify_of_unsigned, ?_⟩
  · intro claims h
    obtain ⟨hsigned, -, hlive, -⟩ := verify_eq_ok_iff.mp h
    exact ⟨hsigned.genuine, hearliest ▸ hlive⟩
  · intro h
    rcases verify_cases s now token with ⟨claims, hasAudience, hsigned, hjudge⟩ | hinvalid
    · rw [hjudge, judge_eq_expired_iff, hearliest] at h
      exact ⟨claims, hsigned.genuine, h.2⟩
    · rw [hinvalid] at h
      cases h
  · intro f h hne
    rcases verify_cases s now token with ⟨claims, hasAudience, -, hjudge⟩ | hinvalid
    · rw [hjudge] at h
      exact (error_of_judge h).resolve_left hne
    · rw [hinvalid] at h
      cases h
      rfl
  · intro claims hasAudience hsigned
    rw [verify_of_signed hsigned, judge_eq_ok_iff, judge_eq_expired_iff, hearliest, haccepts]
    refine ⟨?_, Iff.rfl⟩
    constructor
    · intro h
      exact ⟨h.2.1, h.2.2.2.1⟩
    · intro h
      exact ⟨rfl, h.1, by omega, h.2, rfl⟩

/-- A signer that knows no issuer. -/
def watchman : Signer := ⟨"night watch", by decide, none, ⟨3600, 0⟩, 30⟩

/-- Claims that expire after 2000 seconds. -/
def watch : TokenClaims := { TokenClaims.blank with jti := "watch", exp := Integer64.nearest 2000 }

theorem watchman_tells_expiry :
    watchman.issuer = none ∧
      watchman.verify 2030 (Signer.token "night watch" watch) = .ok watch ∧
      watchman.verify 2031 (Signer.token "night watch" watch) = .error .tokenExpired ∧
      watchman.verify 2031 "guess" = .error .invalidToken := by
  have hissuer : watchman.issuer = none := rfl
  have hsigned : Signed watchman.secret (Signer.token "night watch" watch) watch false :=
    signed_token "night watch" watch
  obtain ⟨-, -, -, -, hlive⟩ := verify_genuine_or_invalid watchman 2030
    (Signer.token "night watch" watch) hissuer (by decide) (by decide)
  obtain ⟨-, -, -, -, hover⟩ := verify_genuine_or_invalid watchman 2031
    (Signer.token "night watch" watch) hissuer (by decide) (by decide)
  obtain ⟨-, -, -, hunsigned, -⟩ :=
    verify_genuine_or_invalid watchman 2031 "guess" hissuer (by decide) (by decide)
  refine ⟨hissuer, (hlive watch false hsigned).1.mpr (by decide),
    (hover watch false hsigned).2.mpr (by decide), hunsigned ?_ 2031⟩
  intro body h
  have hpoint : '.' ∈ "guess".toList := by simp [h]
  exact absurd hpoint (by decide)

end RecordGate.Signer
