import OrbitAuth.Domain.Text
import OrbitAuth.Domain.Uuid

/-!
# Entities — the domain package

The records the layers exchange, the pinned durations and limits, the sentinel errors and the
lifecycle events.  Identifiers are text at this level, as in the source; the rows of the database
hold parsed identifiers (`Postgres.Schema`).

Instants are counted in microseconds, the resolution of `timestamptz`.  `0` is Go's zero time.
-/

namespace OrbitAuth
namespace Domain

abbrev Time := Nat

def second : Time := 1000000
def minute : Time := 60 * second
def hour : Time := 60 * minute

/-! ## Pinned rules -/

def channelEmail : String := "email"
def channelSMS : String := "sms"

/-- How long a requested OTP challenge stays valid. -/
def otpTTL : Time := 10 * minute

/-- The number of wrong codes a challenge tolerates. -/
def maxOTPAttempts : Nat := 5

def accessTokenTTL : Time := 15 * minute
def refreshTokenTTL : Time := 30 * 24 * hour
def inviteTTL : Time := 7 * 24 * hour

/-- How long a sign-up retry keeps the previously sent code. -/
def signupVerificationCooldown : Time := 60 * second

def apiTokenPrefixLength : Nat := 8
def apiTokenScheme : String := "oat_"

/-! ## Lifecycle states -/

/-- `users.status` is unconstrained text; `other ""` is Go's zero value. -/
inductive UserStatus
  | active
  | disabled
  | signupPending
  | other (text : String)
  deriving DecidableEq, Repr

inductive MembershipStatus
  | active
  | invited
  | suspended
  deriving DecidableEq, Repr

inductive InviteStatus
  | pending
  | accepted
  | revoked
  deriving DecidableEq, Repr

/-! ## Records -/

structure User where
  id : String
  email : String
  mobile : String
  passwordHash : String
  displayName : String
  status : UserStatus
  emailVerified : Bool
  deriving DecidableEq, Repr

structure OTPChallenge where
  id : String
  identifier : String
  channel : String
  codeHash : String
  expiresAt : Time
  createdAt : Time
  attempts : Nat
  deriving DecidableEq, Repr

/-- `scopes = none` is Go's nil slice. -/
structure APIToken where
  id : String
  userID : String
  name : String
  tokenPrefix : String
  tokenHash : String
  scopes : Option (List String)
  expiresAt : Option Time
  revokedAt : Option Time
  createdAt : Time
  deriving DecidableEq, Repr

structure APITokenInfo where
  id : String
  name : String
  tokenPrefix : String
  scopes : Option (List String)
  expiresAt : Option Time
  createdAt : Time
  deriving DecidableEq, Repr

structure DemoUser where
  email : String
  mobile : String
  password : String
  displayName : String
  deriving DecidableEq, Repr

structure Organization where
  id : String
  name : String
  createdAt : Time
  updatedAt : Time
  deriving DecidableEq, Repr

structure Membership where
  orgID : String
  userID : String
  status : MembershipStatus
  createdAt : Time
  updatedAt : Time
  deriving DecidableEq, Repr

structure Invite where
  id : String
  orgID : String
  email : String
  tokenHash : String
  inviterID : String
  status : InviteStatus
  expiresAt : Time
  acceptedAt : Option Time
  createdAt : Time
  deriving DecidableEq, Repr

structure InviteNotification where
  recipient : String
  orgName : String
  inviterName : String
  acceptToken : String
  expiresAt : Time
  locale : String
  correlationID : String
  deriving DecidableEq, Repr

/-! ## Errors -/

inductive SqlError
  | noRows
  | uniqueViolation
  | foreignKeyViolation
  | notNullViolation
  deriving DecidableEq, Repr

/-- The sentinels of `domain` and `application`, and the wrapped rest: `sql` is a statement that
failed, `malformedID` an id `uuid.Parse` refused, `revokeFailed` an invitation that could neither
be sent nor revoked, `dependency` an unreachable dependency. -/
inductive Err
  | orgNotFound
  | notMember
  | userNotFound
  | lastActiveMember
  | invalidOrgName
  | inviteNotFound
  | invalidInvite
  | invalidEmail
  | invalidCredentials
  | userDisabled
  | invalidToken
  | invalidRefresh
  | emailOTPDisabled
  | mobileOTPDisabled
  | signupDisabled
  | passwordRequired
  | invalidOTPCode
  | tooManyOTPAttempts
  | sql (context : String) (cause : SqlError)
  | malformedID (kind value : String)
  | unsupportedChannel (channel : String)
  | message (text : String)
  | revokeFailed (send revoke : Err)
  | dependency
  deriving DecidableEq, Repr

/-! ## Lifecycle events -/

inductive Event
  | userCreated (userID : String) (occurredAt : Time)
  | orgCreated (orgID name : String) (occurredAt : Time)
  | membershipAdded (orgID userID : String) (status : MembershipStatus) (occurredAt : Time)
  | membershipRemoved (orgID userID : String) (status : MembershipStatus) (occurredAt : Time)
  | membershipSuspended (orgID userID : String) (status : MembershipStatus) (occurredAt : Time)
  deriving DecidableEq, Repr

/-! ## What the service takes from outside -/

/-- Unicode tables, digests and the password hasher.  `hash salt` is one salting of the hasher;
`keyID` is the active signing key, which the loader has checked to be non-blank. -/
structure Env where
  lowerRune : Char → Char
  foldRune : Char → Char → Bool
  sqlLower : String → String
  digest : String → String
  hash : Nat → String → String
  compare : String → String → Bool
  keyID : String
  keyID_nonblank : trimSpace keyID ≠ ""

namespace Env

def normalizeEmail (env : Env) (email : String) : String :=
  toLower env.lowerRune (trimSpace email)

/-- What is asked of `unicode.ToLower`: a lower case has no other lower case (`İ` goes to `i` and
`ǅ` to `ǆ`, which stay), and a rune and its lower case are both white space or neither is.  The
table is a parameter; that a table meets this is proved for ASCII only. -/
structure LawfulLower (env : Env) : Prop where
  lower : ∀ c, env.lowerRune (env.lowerRune c) = env.lowerRune c
  space : ∀ c, isSpace (env.lowerRune c) = isSpace c

theorem normalizeEmail_normalizeEmail {env : Env} (h : env.LawfulLower) (email : String) :
    env.normalizeEmail (env.normalizeEmail email) = env.normalizeEmail email := by
  simp only [normalizeEmail, trimSpace_toLower h.space, trimSpace_trimSpace,
    toLower_toLower h.lower]

def hashRefreshToken (env : Env) (token : String) : String :=
  env.digest token

def hashInviteToken (env : Env) (token : String) : String :=
  env.hashRefreshToken token

/-- `Compare(Hash(s), t)` iff `s = t`. -/
def IdealHasher (env : Env) : Prop :=
  ∀ salt s t, env.compare (env.hash salt s) t = true ↔ s = t

end Env

end Domain
end OrbitAuth
