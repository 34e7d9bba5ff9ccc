import OrbitAuth.Service.Sessions

/-!
# Credentials — API tokens and demo accounts

The API-token use cases of `password_tokens.go` and the seeding of demo accounts.
-/

namespace OrbitAuth
namespace Service

open Domain Foundations Postgres Token

variable (cfg : Config)

/-! ## API tokens -/

structure CreatedToken where
  tokenID : String
  tokenPrefix : String
  secret : String
  deriving DecidableEq

/-- The text handed out for a secret: scheme, the first characters, a dot, the rest. -/
def tokenText (raw : String) : String :=
  apiTokenScheme ++ String.ofList (raw.toList.take apiTokenPrefixLength) ++ "." ++
    String.ofList (raw.toList.drop apiTokenPrefixLength)

def createApiToken (userID name : String) (scopes : Option (List String))
    (expiresAt : Option Time) : Action CreatedToken := do
  failIf (userID = "" || trimSpace name = "") (.message "user_id and name required")
  let raw ← newSecret
  let tokenPrefix := String.ofList (raw.toList.take apiTokenPrefixLength)
  let tokenHash ← hash raw
  let tokenID ← newID
  store (.createToken
    { id := tokenID, userID := userID, name := name, tokenPrefix := tokenPrefix,
      tokenHash := tokenHash, scopes := scopes, expiresAt := expiresAt, revokedAt := none,
      createdAt := 0 })
  pure { tokenID := tokenID, tokenPrefix := tokenPrefix, secret := tokenText raw }

def listApiTokens (userID : String) : Action (List APITokenInfo) := do
  failIf (userID = "") (.message "user_id required")
  store (.listByUser userID)

def revokeApiToken (userID tokenID : String) : Action Unit := do
  failIf (userID = "" || tokenID = "") (.message "user_id and token_id required")
  store (.revokeToken userID tokenID)

/-- `strings.TrimPrefix` of the token scheme. -/
def trimScheme (secret : String) : List Char :=
  if apiTokenScheme.toList.isPrefixOf secret.toList then
    secret.toList.drop apiTokenScheme.toList.length
  else secret.toList

/-- The two halves of `oat_<prefix>.<secret>`; the length of the first is counted in bytes. -/
def splitToken (secret : String) : Option (String × String) :=
  match (trimScheme (trimSpace secret)).span fun c => c != '.' with
  | (box, _ :: rest) =>
      if (String.ofList box).utf8ByteSize = apiTokenPrefixLength && !rest.isEmpty then
        some (String.ofList box, String.ofList rest)
      else none
  | (_, []) => none

def requireUnexpired (expiresAt : Option Time) : Action Unit :=
  match expiresAt with
  | none => pure ()
  | some expires => do
      let t ← now
      failIf (expires < t) .invalidToken

def validateApiToken (secret : String) : Action (String × Option (List String)) :=
  match splitToken secret with
  | none => .fail .invalidToken
  | some (tokenPrefix, rest) => do
      let t ← storeOr .invalidToken (.findByPrefix tokenPrefix)
      failIf t.revokedAt.isSome .invalidToken
      requireUnexpired t.expiresAt
      failIf (!cfg.env.compare t.tokenHash (tokenPrefix ++ rest)) .invalidToken
      pure (t.userID, t.scopes)

/-! ## Demo accounts -/

def seedDemoUser (u : DemoUser) : Action Unit := do
  let passwordHash ← hash u.password
  let email := toLower cfg.env.lowerRune (trimSpace u.email)
  let mobile := trimSpace u.mobile
  failIf (email = "" && mobile = "") (.message "demo user requires email or mobile")
  failIf (mobile ≠ "" && !isE164 mobile) (.message "demo user mobile must be E.164")
  store (.upsertDemoUser email mobile passwordHash u.displayName)

def seedAll : List DemoUser → Action Unit
  | [] => pure ()
  | u :: us => do
      seedDemoUser cfg u
      seedAll us

def seedDemoUsers : Action Unit :=
  if cfg.demoMode then seedAll cfg cfg.demoUsers else pure ()

end Service
end OrbitAuth
