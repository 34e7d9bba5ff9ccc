import OrbitAuth.Service.Sessions

/-!
# Signup — self-serve registration

`signup.go`: registration with its retry path, verification and the purge of abandoned sign-ups.
-/

namespace OrbitAuth
namespace Service

open Domain Foundations Postgres Token

variable (cfg : Config)

def defaultSignupLocale : String := "en"

/-- The optional invitation of a registration.  An unusable token is the generic error. -/
def signupInvite (token email : String) : Action (Option Invite) :=
  if trimSpace token = "" then pure none
  else do
    let invite ← storeMapping .inviteNotFound .invalidInvite
      (.findInviteByTokenHash (cfg.env.hashInviteToken (trimSpace token)))
    let t ← now
    failIf (invite.status ≠ .pending || invite.expiresAt ≤ t ||
      !equalFold cfg.env.foldRune invite.email email) .invalidInvite
    pure (some invite)

/-- Was a code sent to the address within the cooldown?  No challenge is no cooldown. -/
def signupCooldownActive (email : String) (t : Time) : Action Bool := do
  match ← tryStore (.getLatestChallenge email channelEmail) with
  | .error _ => pure false
  | .ok ch => pure (ch.createdAt ≠ 0 && t < ch.createdAt + signupVerificationCooldown)

/-- The minutes a sign-up mail announces. -/
def otpTTLMinutes : Nat :=
  otpTTL / minute

/-- A registration for an address that has no usable account yet: new credentials and, outside the
cooldown, a new code. -/
def reissueSignup (user : User) (locale : String) (t : Time) : Action Unit := do
  let cooldown ← signupCooldownActive user.email t
  if cooldown then do
    let _ ← store (.reissuePendingSignup user none none t)
    pure ()
  else do
    let (challenge, code) ← buildOTPChallenge user.email channelEmail
    let (userID, reissued) ← store (.reissuePendingSignup user (some challenge) none t)
    if reissued then
      send (.signupVerification user.email code otpTTLMinutes locale userID)
    else pure ()

/-- A registration for an address that already exists.  Only a pending account is changed. -/
def retryPendingSignup (user : User) (invite : Option Invite) (locale : String) (t : Time) :
    Action Unit :=
  match invite with
  | some invite => do
      let _ ← storeMapping .inviteNotFound .invalidInvite
        (.reissuePendingSignup user none (some invite) t)
      pure ()
  | none => do
      match ← tryStore (.findByEmail user.email) with
      | .ok existing =>
          if existing.status ≠ .signupPending || existing.emailVerified then pure ()
          else reissueSignup user locale t
      | .error _ => reissueSignup user locale t

/-- The organization a registration with `org_name` creates. -/
def signupOrg (invite : Option Invite) (orgName : String) (t : Time) :
    Action (Option Organization) :=
  if invite.isSome || trimSpace orgName = "" then pure none
  else do
    let id ← newID
    pure (some { id := id, name := trimSpace orgName, createdAt := t, updatedAt := t })

def sendSignupCode (user : User) (locale : String) : Action Unit := do
  let (_, code) ← newOTPChallenge user.email channelEmail
  send (.signupVerification user.email code otpTTLMinutes locale user.id)

/-- The part of a registration after its checks: create the account, or retry it. -/
def submitSignup (email passwordHash displayName locale orgName : String)
    (invite : Option Invite) : Action Unit := do
  let t ← now
  let id ← newID
  let user : User :=
    { id := id, email := email, mobile := "", passwordHash := passwordHash,
      displayName := displayName,
      status := if invite.isSome then .active else .signupPending,
      emailVerified := invite.isSome }
  let org ← signupOrg invite orgName t
  let created ← storeMapping .inviteNotFound .invalidInvite (.createSignupUser user org invite t)
  if !created then retryPendingSignup user invite locale t
  else if invite.isSome then pure ()
  else sendSignupCode user locale

def registerWithEmail (email password displayName locale orgName inviteToken : String) :
    Action Unit := do
  failIf (!cfg.signupOpen) .signupDisabled
  let email := cfg.env.normalizeEmail email
  failIf (!isEmail email) .invalidEmail
  failIf (trimSpace password = "") .passwordRequired
  let locale := if trimSpace locale = "" then defaultSignupLocale else trimSpace locale
  let invite ← signupInvite cfg inviteToken email
  let passwordHash ← hash password
  submitSignup email passwordHash (trimSpace displayName) locale orgName invite

/-- A failed verification costs an attempt. -/
def rejectSignup (ch : OTPChallenge) : Action User := do
  ignore (.incrementAttempts ch.id)
  .fail .invalidOTPCode

/-- The pending account of the address, if it carries this password. -/
def matchSignup (ch : OTPChallenge) (email password : String) : Action User := do
  match ← tryStore (.findByEmail email) with
  | .error _ => rejectSignup ch
  | .ok user =>
      if user.status ≠ .signupPending || user.emailVerified || user.passwordHash = "" ||
          !cfg.env.compare user.passwordHash password
      then rejectSignup ch
      else pure user

def verifySignup (email code password : String) : Action TokenPair := do
  failIf (!cfg.signupOpen) .signupDisabled
  let email := cfg.env.normalizeEmail email
  let code := trimSpace code
  failIf (email = "" || code = "") .invalidOTPCode
  let (ch, t) ← matchChallenge cfg email channelEmail code
  let user ← matchSignup cfg ch email password
  store (.consumeChallenge ch.id)
  storeMapping .userNotFound .invalidOTPCode (.verifySignup user.id t)
  issueTokens cfg user.id

def purgeUnverifiedSignups (before : Time) : Action Nat := do
  failIf (before = 0) (.message "cutoff is required")
  store (.purgeUnverifiedSignups before)

end Service
end OrbitAuth
