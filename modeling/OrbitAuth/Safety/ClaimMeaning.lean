import OrbitAuth.Tenancy.Middleware

/-!
# ClaimMeaning — one organization for signer, consumer and tenancy

The organization of a token is trimmed and parsed three times: when the token is signed, when a
consumer asks the claims for it, and when a request passes the middleware.

* `organizationID_of_signed` — the consumer reads the identifier that the signer was given;
* `org_claim_meaning` — and so does the middleware, except that it refuses the nil UUID;
* `nil_claim_refused` — the nil UUID is signed and read, but not let through.
-/

namespace OrbitAuth
namespace Tenancy
namespace ClaimMeaning

open Domain Token

/-- The claims that verification returns are those that the library decodes. -/
theorem parseAccessToken_claims {lib : Library} {raw : String} {keys : KeySet}
    {now : Int} {token : Jwt} {claims : ReceivedClaims}
    (hraw : lib.parseUnverified raw = some token)
    (h : parseAccessToken lib raw keys now = .ok claims) : claims = token.claims := by
  unfold parseAccessToken at h
  split at h
  · cases h
  · split at h
    · cases h
    · unfold parseUnder parseWithClaims at h
      rw [hraw] at h
      dsimp only at h
      split at h
      · cases h
      · rename_i claims' hclaims
        split at hclaims
        · obtain rfl := Except.ok.inj hclaims
          split at h
          · cases h
          · exact (Except.ok.inj h).symm
        · cases hclaims

/-- The signed claim is the canonical form of an identifier, which parses to it again. -/
theorem organizationID_of_signed {keyID subject org : String} {expires now : Time} {t : SignedToken}
    (hsign : signAccessTokenWithOrg keyID subject org expires now = .ok t)
    (horg : trimSpace org ≠ "") :
    ∃ u, Uuid.parse (trimSpace org) = some u ∧ t.received.claims.organizationID = some u := by
  obtain ⟨_, hclaim⟩ := signAccessTokenWithOrg_claims hsign
  unfold canonicalOrg at hclaim
  rw [if_neg horg] at hclaim
  split at hclaim
  · rename_i u hparse
    refine ⟨u, hparse, ?_⟩
    have htext : t.received.claims.orgID = u.string := (Except.ok.inj hclaim).symm
    unfold ReceivedClaims.organizationID
    rw [htext, Uuid.trimSpace_string, if_neg (Uuid.string_ne_empty u), Uuid.parse_string]
  · cases hclaim

/-- What the middleware does with claims that carry `u`: with any options it hands `u` to the
handler, or refuses the nil UUID as malformed. -/
structure Resolves (claims : ReceivedClaims) (u : Uuid) : Prop where
  resolved : u ≠ nilUUID → ∀ fallbackOrg, resolveOrg claims fallbackOrg = .ok u
  http : u ≠ nilUUID → ∀ {α : Type} (verify : α → Option ReceivedClaims) opts request ctx,
    verify request = some claims →
      ∃ ctx', requireOrg (some verify) opts request ctx = .served ctx' ∧ orgFrom ctx' = some u
  grpc : u ≠ nilUUID → ∀ {α : Type} (verify : α → Option ReceivedClaims) opts request ctx,
    verify request = some claims →
      ∃ ctx', unaryServerInterceptor (some verify) opts request ctx = .served ctx' ∧
      orgFrom ctx' = some u
  refused : u = nilUUID → ∀ fallbackOrg, resolveOrg claims fallbackOrg = .error .orgMalformed

theorem resolves_of_organizationID {claims : ReceivedClaims} {u : Uuid}
    (h : claims.organizationID = some u) : Resolves claims u := by
  refine ⟨fun hne fallbackOrg => ?_, fun hne _ verify opts request ctx hverify => ?_,
    fun hne _ verify opts request ctx hverify => ?_, fun hnil fallbackOrg => ?_⟩
  · rw [resolveOrg_of_organizationID h, if_neg hne]
  · refine ⟨withOrg ctx u, ?_, orgFrom_withOrg ctx hne⟩
    have hclaims : verifiedClaims (some verify) request = some claims := hverify
    unfold requireOrg
    rw [guard_of_organizationID hclaims h, if_neg hne]
  · refine ⟨withOrg ctx u, ?_, orgFrom_withOrg ctx hne⟩
    have hclaims : verifiedClaims (some verify) request = some claims := hverify
    unfold unaryServerInterceptor
    rw [guard_of_organizationID hclaims h, if_neg hne]
  · rw [resolveOrg_of_organizationID h, if_pos hnil]

/-- The organization given to the signer is the one that the returned claims carry and that a
request with them is served for, the nil UUID apart; and for all claims the consumer and the
middleware without a fallback agree, the nil UUID apart. -/
theorem org_claim_meaning (lib : Library) :
    (∀ (keyID subject org raw : String) (expires now : Time) (t : SignedToken) (keys : KeySet)
      (instant : Int) (claims : ReceivedClaims),
      signAccessTokenWithOrg keyID subject org expires now = .ok t → trimSpace org ≠ "" →
      lib.parseUnverified raw = some t.received →
      parseAccessToken lib raw keys instant = .ok claims →
        ∃ u, Uuid.parse (trimSpace org) = some u ∧ claims.organizationID = some u ∧
          Resolves claims u) ∧
    ∀ (claims : ReceivedClaims) (u : Uuid),
      resolveOrg claims nilUUID = .ok u ↔ claims.organizationID = some u ∧ u ≠ nilUUID := by
  refine ⟨?_, fun claims u => resolveOrg_nil_eq_ok⟩
  intro keyID subject org raw expires now t keys instant claims hsign horg hraw hparse
  obtain ⟨u, hu, hread⟩ := organizationID_of_signed hsign horg
  obtain rfl := parseAccessToken_claims hraw hparse
  exact ⟨u, hu, hread, resolves_of_organizationID hread⟩

/-- A token signed for an organization in another spelling, which the library delivers as it is. -/
def bracedToken : SignedToken where
  kid := "k1"
  claims :=
    { issuer := "orbit-auth", subject := "ann", expiresAt := 10 * Domain.second, issuedAt := 0,
      orgID := "6ba7b810-9dad-11d1-80b4-00c04fd430c8" }

def bracedLibrary : Library where
  parseUnverified _ := some bracedToken.received
  verifySignature _ _ := true

theorem org_claim_meaning_braced :
    signAccessTokenWithOrg "k1" "ann" " {6BA7B810-9DAD-11D1-80B4-00C04FD430C8} "
      (10 * Domain.second) 0 =
        .ok bracedToken ∧
      ∃ u, u ≠ nilUUID ∧ bracedToken.received.claims.organizationID = some u ∧
        resolveOrg bracedToken.received.claims (Uuid.ofNat 7) = .ok u := by
  have hsign : signAccessTokenWithOrg "k1" "ann" " {6BA7B810-9DAD-11D1-80B4-00C04FD430C8} "
      (10 * Domain.second) 0 = .ok bracedToken := by decide +kernel
  have hparse : parseAccessToken bracedLibrary "token" (KeySet.single "k1" ⟨3, 3⟩) 5000000000 =
      .ok bracedToken.received.claims := by decide +kernel
  obtain ⟨u, hu, hread, hresolves⟩ := (org_claim_meaning bracedLibrary).1 _ _ _ _ _ _ _ _ _ _ hsign
    (by decide +kernel) rfl hparse
  have hne : u ≠ nilUUID := by
    rintro rfl
    revert hu
    decide +kernel
  exact ⟨hsign, u, hne, hread, hresolves.resolved hne _⟩

/-- The nil UUID can be signed and is read by the consumer, but the middleware does not resolve it.
-/
theorem nil_claim_refused :
    (∃ t, signAccessTokenWithOrg "k1" "ann" nilUUID.string (10 * Domain.second) 0 = .ok t ∧
      t.received.claims.organizationID = some nilUUID ∧
      resolveOrg t.received.claims nilUUID = .error .orgMalformed) ∧
    ¬ ∀ (claims : ReceivedClaims) (u : Uuid),
      claims.organizationID = some u ↔ resolveOrg claims nilUUID = .ok u := by
  have hread : (⟨"orbit-auth", "ann", none, none, none, nilUUID.string⟩ :
      ReceivedClaims).organizationID = some nilUUID := by decide +kernel
  refine ⟨⟨⟨"k1", ⟨"orbit-auth", "ann", 10 * Domain.second, 0, nilUUID.string⟩⟩, by decide +kernel,
    by decide +kernel, by decide +kernel⟩, fun h => ?_⟩
  have hresolved := (h _ _).mp hread
  revert hresolved
  decide +kernel

end ClaimMeaning
end Tenancy
end OrbitAuth
