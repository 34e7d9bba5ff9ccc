import OrbitAuth.Service.Ports

/-!
# Sessions — one-time codes, logins and token rotation

`service.go` and the password login of `password_tokens.go`: challenges, the two token issuing
paths, refresh and organization selection.
-/

namespace OrbitAuth
namespace Service

open Domain Foundations Postgres Token

/-- The deployment: the environment and the switches `cmd` resolves. -/
structure Config where
  env : Env
  signupOpen : Bool
  demoMode : Bool
  demoUsers : List DemoUser
  autoSelectSingleOrg : Bool

structure TokenPair where
  access : SignedToken
  refresh : String
  expires : Time
  deriving DecidableEq

variable (cfg : Config)

/-! ## Membership lookups -/

/-- A non-member is `false` with no error. -/
def isActiveMember (orgID userID : String) : Action Bool := do
  failIf (trimSpace orgID = "" || trimSpace userID = "") (.message "org_id and user_id required")
  match ← tryStore (.getMembership (trimSpace orgID) (trimSpace userID)) with
  | .ok m => pure (m.status = .active)
  | .error e => if e = .notMember then pure false else .fail e

/-- The only active organization of the user, or `""`. -/
def singleActiveOrg (userID : String) : Action String := do
  match ← tryStore (.listOrgsForUser userID) with
  | .ok [org] => pure org.id
  | _ => pure ""

/-- `orgID` while the user is an active member of it, else `""`. -/
def activeOrg (userID orgID : String) : Action String :=
  if orgID = "" then pure ""
  else do
    match ← (isActiveMember orgID userID).reify with
    | .ok true => pure orgID
    | _ => pure ""

/-! ## Issuing tokens -/

def issueTokensForOrg (userID orgID : String) : Action TokenPair := do
  let t ← now
  let access ← sign userID orgID (t + accessTokenTTL)
  let first ← newID
  let second ← newID
  store (.storeRefresh userID orgID (cfg.env.hashRefreshToken (first ++ second))
    (t + refreshTokenTTL))
  pure { access := access, refresh := first ++ second, expires := t + accessTokenTTL }

/-- The organization a login carries: with auto-select, the only active one. -/
def loginOrg (userID : String) : Action String :=
  if cfg.autoSelectSingleOrg then singleActiveOrg userID else pure ""

def issueTokens (userID : String) : Action TokenPair := do
  let orgID ← loginOrg cfg userID
  issueTokensForOrg cfg userID orgID

/-! ## One-time codes -/

/-- A challenge and its code, not yet stored. -/
def buildOTPChallenge (identifier channel : String) : Action (OTPChallenge × String) := do
  let code ← newCode
  let codeHash ← hash code
  let t ← now
  let id ← newID
  pure ({ id := id, identifier := identifier, channel := channel, codeHash := codeHash,
          expiresAt := t + otpTTL, createdAt := t, attempts := 0 }, code)

def newOTPChallenge (identifier channel : String) : Action (OTPChallenge × String) := do
  ignore .deleteExpiredChallenges
  let (ch, code) ← buildOTPChallenge identifier channel
  store (.upsertChallenge ch)
  pure (ch, code)

/-- The channel switch of `RequestOTP`. -/
def requireChannel (identifier channel : String) : Action Unit :=
  if channel = channelEmail then do
    let enabled ← flag "manova.auth.email_otp"
    failIf (!enabled) .emailOTPDisabled
  else if channel = channelSMS then do
    failIf (!isE164 identifier) (.message "mobile must be E.164")
    let enabled ← flag "manova.auth.mobile_otp"
    failIf (!enabled) .mobileOTPDisabled
  else .fail (.unsupportedChannel channel)

def requestOTP (identifier channel correlationID : String) : Action Time := do
  let identifier := trimSpace identifier
  let channel := trimSpace channel
  failIf (identifier = "" || channel = "") (.message "identifier and channel required")
  requireChannel identifier channel
  let (ch, code) ← newOTPChallenge identifier channel
  send (.otp channel identifier code correlationID)
  pure ch.expiresAt

/-- The checks `VerifyOTP` and `VerifySignup` begin with: the newest challenge is unexpired, has
attempts left and carries this code.  A wrong code costs an attempt. -/
def matchChallenge (identifier channel code : String) : Action (OTPChallenge × Time) := do
  let ch ← storeOr .invalidOTPCode (.getLatestChallenge identifier channel)
  let t ← now
  failIf (ch.expiresAt < t) .invalidOTPCode
  failIf (maxOTPAttempts ≤ ch.attempts) .tooManyOTPAttempts
  if cfg.env.compare ch.codeHash code then pure (ch, t)
  else do
    ignore (.incrementAttempts ch.id)
    .fail .invalidOTPCode

/-- `FindOrCreateByEmail`: a lookup and, when it finds nothing, the creating transaction. -/
def findOrCreateByEmail (email : String) : Action User := do
  match ← tryStore (.findByEmail email) with
  | .ok user => pure user
  | .error e => if e = .sql "" .noRows then store (.createByEmail email) else .fail e

def findOrCreateByMobile (mobile : String) : Action User := do
  match ← tryStore (.findByMobile mobile) with
  | .ok user => pure user
  | .error e => if e = .sql "" .noRows then store (.createByMobile mobile) else .fail e

def findOrCreate (identifier channel : String) : Action User :=
  if channel = channelEmail then findOrCreateByEmail identifier
  else if channel = channelSMS then findOrCreateByMobile identifier
  else .fail (.message "unsupported channel")

def verifyOTP (identifier channel code : String) : Action TokenPair := do
  let identifier := trimSpace identifier
  let channel := trimSpace channel
  failIf (identifier = "" || channel = "" || code = "") .invalidOTPCode
  let (ch, _) ← matchChallenge cfg identifier channel code
  store (.consumeChallenge ch.id)
  let user ← findOrCreate identifier channel
  failIf (user.status = .signupPending) .invalidOTPCode
  issueTokens cfg user.id

/-! ## Passwords -/

def findByIdentifier (identifier : String) : Action User :=
  if isE164 identifier then storeOr .invalidCredentials (.findByMobile identifier)
  else storeOr .invalidCredentials (.findByEmail (toLower cfg.env.lowerRune identifier))

def loginWithPassword (identifier password : String) : Action TokenPair := do
  let identifier := trimSpace identifier
  failIf (identifier = "" || password = "") .invalidCredentials
  let user ← findByIdentifier cfg identifier
  failIf (user.status = .signupPending) .invalidCredentials
  failIf (user.status = .disabled) .userDisabled
  failIf (user.passwordHash = "" || !cfg.env.compare user.passwordHash password)
    .invalidCredentials
  ignore (.updateLastLogin user.id)
  issueTokens cfg user.id

/-! ## Rotation -/

def refresh (refreshToken : String) : Action TokenPair := do
  let tokenHash := cfg.env.hashRefreshToken refreshToken
  let (userID, orgID) ← storeOr .invalidRefresh (.findValid tokenHash)
  ignore (.revoke tokenHash)
  let org ← activeOrg userID orgID
  issueTokensForOrg cfg userID org

def selectOrg (userID refreshToken orgID : String) : Action TokenPair := do
  let userID := trimSpace userID
  let orgID := trimSpace orgID
  failIf (userID = "" || orgID = "") .invalidRefresh
  let active ← isActiveMember orgID userID
  failIf (!active) .notMember
  let tokenHash := cfg.env.hashRefreshToken refreshToken
  let (tokenUserID, _) ← storeOr .invalidRefresh (.findValid tokenHash)
  failIf (tokenUserID ≠ userID) .invalidRefresh
  ignore (.revoke tokenHash)
  issueTokensForOrg cfg userID orgID

end Service
end OrbitAuth
