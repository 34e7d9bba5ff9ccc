import OrbitAuth.Domain.Entities

/-!
# Claims — access tokens as signed claims

A signed access token is the key id in its header together with the claims it carries; the JWT
library transports both unchanged.  Signing trims and checks its inputs and stores the
organization claim in canonical form.
-/

namespace OrbitAuth
namespace Token

open Domain

def issuer : String := "orbit-auth"

/-- `orgID = ""` is an omitted `org` claim. -/
structure AccessClaims where
  issuer : String
  subject : String
  expiresAt : Time
  issuedAt : Time
  orgID : String
  deriving DecidableEq, Repr

structure SignedToken where
  kid : String
  claims : AccessClaims
  deriving DecidableEq, Repr

/-- The trimmed organization claim in canonical form; blank stays blank. -/
def canonicalOrg (orgID : String) : Except Err String :=
  if trimSpace orgID = "" then .ok ""
  else
    match Uuid.parse (trimSpace orgID) with
    | some u => .ok u.string
    | none => .error (.message "JWT org claim must be a UUID")

def signAccessTokenWithOrg (keyID subject orgID : String) (expires now : Time) :
    Except Err SignedToken :=
  if trimSpace keyID = "" then .error (.message "JWT key ID is required")
  else if trimSpace subject = "" then .error (.message "JWT subject is required")
  else
    match canonicalOrg orgID with
    | .error e => .error e
    | .ok org =>
        .ok { kid := trimSpace keyID
              claims := { issuer := issuer, subject := trimSpace subject, expiresAt := expires,
                          issuedAt := now, orgID := org } }

def signAccessToken (keyID subject : String) (expires now : Time) : Except Err SignedToken :=
  signAccessTokenWithOrg keyID subject "" expires now

/-- What a signed token says of its subject and its organization. -/
theorem signAccessTokenWithOrg_claims {keyID subject orgID : String} {expires now : Time}
    {t : SignedToken} (h : signAccessTokenWithOrg keyID subject orgID expires now = .ok t) :
    t.claims.subject = trimSpace subject ∧ canonicalOrg orgID = .ok t.claims.orgID := by
  unfold signAccessTokenWithOrg at h
  split at h
  · cases h
  · split at h
    · cases h
    · split at h
      · cases h
      · rename_i org horg
        cases h
        exact ⟨rfl, horg⟩

end Token
end OrbitAuth
