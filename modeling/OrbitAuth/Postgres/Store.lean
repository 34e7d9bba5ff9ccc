import OrbitAuth.Postgres.Queries

/-!
# Store — the store calls as programs of statements

Each method of the Postgres store is a program over the statements of `Postgres.Queries`: it
decides which statement comes next from the answers so far.  A program that is `done` has
committed; one that leaves through `Exit` has rolled back, with an error or — where the source
returns without committing — with a plain result.

`FindOrCreateByEmail` and `FindOrCreateByMobile` read outside their transaction, so they are two
store calls each: the lookup and the creating transaction.

The same programs are run in two ways: alone, as one atomic step (`Store.exec`), and statement by
statement among other transactions (`Postgres.Transactions`).
-/

namespace OrbitAuth
namespace Postgres
namespace Store

open Domain Foundations

/-! ## Transactions -/

/-- The ends of a store call that do not commit. -/
inductive Exit (β : Type)
  | err (e : Err)
  | rollback (b : β)

abbrev Tx (β α : Type) := Program sqlSignature (Exit β) α

section Helpers

variable {α β : Type}

def query (s : Sql) : Tx β (Except SqlError s.Val) :=
  .call s .done

def fault (e : Err) : Tx β α :=
  .fail (.err e)

def failIf (c : Bool) (e : Err) : Tx β Unit :=
  if c then fault e else .done ()

/-- Return `b` without committing. -/
def discard (b : β) : Tx β α :=
  .fail (.rollback b)

/-- A statement whose error ends the call, wrapped in `context`. -/
def stmt (context : String) (s : Sql) : Tx β s.Val :=
  .call s fun
    | .ok v => .done v
    | .error e => fault (.sql context e)

/-- A `:one` statement for which the call has its own answer to `pgx.ErrNoRows`. -/
def stmtOne (missing : Err) (s : Sql) : Tx β s.Val :=
  .call s fun
    | .ok v => .done v
    | .error .noRows => fault missing
    | .error e => fault (.sql "" e)

def parseID (kind value : String) : Tx β Uuid :=
  match Uuid.parse value with
  | some u => .done u
  | none => fault (.malformedID kind value)

def timestamptz (t : Time) : Option Time :=
  if t = 0 then none else some t

theorem timestamptz_isSome {t : Time} (ht : t ≠ 0) : (timestamptz t).isSome = true := by
  simp [timestamptz, ht]

/-- `if t.IsZero() { t = now }`. -/
def orNow (now t : Time) : Time :=
  if t = 0 then now else t

def stamp (now : Time) : Event → Event
  | .userCreated user t => .userCreated user (orNow now t)
  | .orgCreated org name t => .orgCreated org name (orNow now t)
  | .membershipAdded org user status t => .membershipAdded org user status (orNow now t)
  | .membershipRemoved org user status t => .membershipRemoved org user status (orNow now t)
  | .membershipSuspended org user status t => .membershipSuspended org user status (orNow now t)

def emitEvents (now : Time) : List Event → Tx β Unit
  | [] => pure ()
  | e :: es => do
      stmt "postgres: outbox" (.insertOutboxEvent (stamp now e))
      emitEvents now es

def lockOrganization (orgID : Uuid) : Tx β Unit :=
  stmtOne .orgNotFound (.lockOrganization orgID)

/-- `getMembership`, with `domain.ErrNotMember` as `none`. -/
def getMembershipRow (org user : Uuid) : Tx β (Option Membership) :=
  .call (.getOrganizationMembership org user) fun
    | .ok m => .done (some m)
    | .error .noRows => .done none
    | .error e => fault (.sql "" e)

def membershipIDs (orgID userID : String) : Tx β (Uuid × Uuid) := do
  let org ← parseID "organization id" orgID
  let user ← parseID "user id" userID
  pure (org, user)

def inviteIDs (orgID inviteID : String) : Tx β (Uuid × Uuid) := do
  let org ← parseID "organization id" orgID
  let id ← parseID "invite id" inviteID
  pure (org, id)

end Helpers

/-! ## OTP challenges -/

def upsertChallenge (now : Time) (ch : OTPChallenge) : Tx Unit Unit := do
  let id ← parseID "challenge id" ch.id
  stmt "" (.upsertChallenge id ch.identifier ch.channel ch.codeHash (timestamptz ch.expiresAt)
    (timestamptz (orNow now ch.createdAt)))

def getLatestChallenge (identifier channel : String) : Tx OTPChallenge OTPChallenge :=
  stmt "" (.getLatestChallenge identifier channel)

def incrementAttempts (id : String) : Tx Unit Unit := do
  let parsed ← parseID "challenge id" id
  stmt "" (.incrementChallengeAttempts parsed)

def consumeChallenge (id : String) : Tx Unit Unit := do
  let parsed ← parseID "challenge id" id
  stmt "" (.consumeChallenge parsed)

def deleteExpiredChallenges : Tx Unit Unit :=
  stmt "" .deleteExpiredChallenges

/-! ## Users -/

def findByEmail (email : String) : Tx User User :=
  stmt "" (.findUserByEmail email)

def findByMobile (mobile : String) : Tx User User :=
  stmt "" (.findUserByMobile mobile)

def findByID (userID : String) : Tx User User := do
  let parsed ← parseID "user id" userID
  stmtOne .userNotFound (.findUserByID parsed)

/-- The transaction of `FindOrCreateByEmail`. -/
def createByEmail (now : Time) (id : Uuid) (email : String) : Tx User User := do
  stmt "" (.createUserWithEmail id email .active)
  emitEvents now [.userCreated id.string now]
  pure { id := id.string, email := email, mobile := "", passwordHash := "", displayName := "",
         status := .active, emailVerified := false }

/-- The transaction of `FindOrCreateByMobile`.  The returned user has Go's zero status. -/
def createByMobile (now : Time) (id : Uuid) (mobile : String) : Tx User User := do
  stmt "" (.createUserWithMobile id mobile)
  emitEvents now [.userCreated id.string now]
  pure { id := id.string, email := "", mobile := mobile, passwordHash := "", displayName := "",
         status := .other "", emailVerified := false }

def updateLastLogin (userID : String) : Tx Unit Unit := do
  let parsed ← parseID "user id" userID
  stmt "" (.updateLastLogin parsed)

/-- A `FindUserBy…` inside `UpsertDemoUser`: is the account missing? -/
def missing (s : Sql) : Tx Unit Bool :=
  .call s fun
    | .ok _ => .done false
    | .error .noRows => .done true
    | .error e => fault (.sql "" e)

/-- The empty string is a nil pointer. -/
def textPtr (s : String) : Option String :=
  if s = "" then none else some s

/-- The lookup and the upsert of `UpsertDemoUser`: by email unless there is none. -/
def demoLookup (email mobile : String) : Sql :=
  if email = "" then .findUserByMobile mobile else .findUserByEmail email

def demoUpsert (id : Uuid) (email mobile passwordHash displayName : String) : Tx Unit Unit :=
  if email = "" then
    stmt "" (.upsertDemoUserByMobile id (textPtr email) (textPtr mobile) passwordHash displayName)
  else
    stmt "" (.upsertDemoUserByEmail id (textPtr email) (textPtr mobile) passwordHash displayName)

def upsertDemoUser (now : Time) (id : Uuid) (email mobile passwordHash displayName : String) :
    Tx Unit Unit := do
  let created ← missing (demoLookup email mobile)
  demoUpsert id email mobile passwordHash displayName
  if created then emitEvents now [.userCreated id.string now] else pure ()

/-! ## Refresh tokens -/

def parseOptionalOrg (orgID : String) : Tx Unit (Option Uuid) :=
  if orgID = "" then pure none else some <$> parseID "org id" orgID

/-- `Store.Store`. -/
def storeRefresh (id : Uuid) (userID orgID tokenHash : String) (expiresAt : Time) :
    Tx Unit Unit := do
  let user ← parseID "user id" userID
  let org ← parseOptionalOrg orgID
  stmt "" (.storeRefreshToken id user org tokenHash (timestamptz expiresAt))

def findValid (tokenHash : String) : Tx (String × String) (String × String) :=
  stmt "" (.findValidRefreshToken tokenHash)

def revoke (tokenHash : String) : Tx Unit Unit :=
  stmt "" (.revokeRefreshToken tokenHash)

/-! ## API tokens -/

/-- `Store.Create`. -/
def createToken (t : APIToken) : Tx Unit Unit := do
  let id ← parseID "api token id" t.id
  let user ← parseID "user id" t.userID
  stmt "" (.createAPIToken id user t.name t.tokenPrefix t.tokenHash t.scopes t.expiresAt)

def listByUser (userID : String) : Tx (List APITokenInfo) (List APITokenInfo) := do
  let parsed ← parseID "user id" userID
  stmt "" (.listAPITokensByUser parsed)

def revokeToken (userID tokenID : String) : Tx Unit Unit := do
  let user ← parseID "user id" userID
  let token ← parseID "api token id" tokenID
  stmt "" (.revokeAPIToken token user)

def findByPrefix (tokenPrefix : String) : Tx APIToken APIToken :=
  stmt "" (.findAPITokenByPrefix tokenPrefix)

/-! ## Organizations -/

def createOrg (now : Time) (org : Organization) (creatorID : String) : Tx Unit Unit := do
  let orgID ← parseID "organization id" org.id
  let userID ← parseID "user id" creatorID
  stmt "postgres: create organization" (.createOrganization orgID org.name
    (timestamptz org.createdAt) (timestamptz org.updatedAt))
  stmt "postgres: add organization creator" (.addOrganizationMembership orgID userID .active)
  let occurredAt := orNow now org.createdAt
  emitEvents now [.orgCreated org.id org.name occurredAt,
    .membershipAdded org.id creatorID .active occurredAt]

def getOrg (orgID : String) : Tx Organization Organization := do
  let parsed ← parseID "organization id" orgID
  stmtOne .orgNotFound (.getOrganization parsed)

def listOrgsForUser (userID : String) : Tx (List Organization) (List Organization) := do
  let parsed ← parseID "user id" userID
  stmt "" (.listOrganizationsForUser parsed)

def listMembers (orgID : String) : Tx (List Membership) (List Membership) := do
  let parsed ← parseID "organization id" orgID
  stmt "" (.listOrganizationMembers parsed)

def addMember (now : Time) (orgID userID : String) (status : MembershipStatus) :
    Tx Unit Unit := do
  let (org, user) ← membershipIDs orgID userID
  lockOrganization org
  match ← getMembershipRow org user with
  | some _ => pure ()
  | none =>
      stmt "" (.addOrganizationMembership org user status)
      emitEvents now [.membershipAdded orgID userID status now]

/-- `count <= 1` is `ErrLastActiveMember`, counted only when an active membership is at stake. -/
def requireAnotherActive (atStake : Bool) (org : Uuid) : Tx Unit Unit :=
  if atStake then do
    let count ← stmt "" (.countActiveOrganizationMembers org)
    failIf (count ≤ 1) .lastActiveMember
  else pure ()

def updateMemberStatus (now : Time) (orgID userID : String) (status : MembershipStatus) :
    Tx Unit Unit := do
  let (org, user) ← membershipIDs orgID userID
  lockOrganization org
  match ← getMembershipRow org user with
  | none => fault .notMember
  | some current =>
      requireAnotherActive (status ≠ .active && current.status = .active) org
      stmt "" (.updateOrganizationMembershipStatus status org user)
      if status = .suspended && current.status ≠ .suspended then
        emitEvents now [.membershipSuspended orgID userID status now]
      else pure ()

def removeMember (now : Time) (orgID userID : String) : Tx Unit Unit := do
  let (org, user) ← membershipIDs orgID userID
  lockOrganization org
  match ← getMembershipRow org user with
  | none => fault .notMember
  | some current =>
      requireAnotherActive (current.status = .active) org
      stmt "" (.deleteOrganizationMembership org user)
      emitEvents now [.membershipRemoved orgID userID current.status now]

def getMembership (orgID userID : String) : Tx Membership Membership := do
  let (org, user) ← membershipIDs orgID userID
  match ← getMembershipRow org user with
  | some m => pure m
  | none => fault .notMember

/-! ## Invitations -/

def createInvite (invite : Invite) : Tx Unit Unit := do
  let id ← parseID "invite id" invite.id
  let orgID ← parseID "organization id" invite.orgID
  let inviterID ← parseID "inviter id" invite.inviterID
  lockOrganization orgID
  stmt "postgres: revoke previous pending invite"
    (.revokePendingOrganizationInvitesForEmail orgID invite.email)
  stmt "postgres: create invite" (.createOrganizationInvite id orgID invite.email
    invite.tokenHash inviterID invite.status (timestamptz invite.expiresAt)
    (timestamptz invite.createdAt))

def findInviteByTokenHash (tokenHash : String) : Tx Invite Invite :=
  stmtOne .inviteNotFound (.findOrganizationInviteByTokenHash tokenHash)

def listInvites (orgID : String) : Tx (List Invite) (List Invite) := do
  let parsed ← parseID "organization id" orgID
  stmt "" (.listOrganizationInvites parsed)

def revokeInvite (orgID inviteID : String) : Tx Unit Unit := do
  let (org, id) ← inviteIDs orgID inviteID
  let affected ← stmt "" (.revokeOrganizationInvite id org)
  failIf (affected = 0) .inviteNotFound

/-- The conditional update, the membership write and the event shared by the three ways to accept
an invitation. -/
def consumeInvite {β : Type} (now : Time) (contexts : String × String) (inviteID org user : Uuid)
    (orgText userText : String) (acceptedAt occurredAt : Time) : Tx β Unit := do
  let affected ← stmt contexts.1
    (.acceptOrganizationInvite inviteID org (timestamptz acceptedAt))
  failIf (affected = 0) .inviteNotFound
  stmt contexts.2 (.addActiveOrganizationMembership org user)
  emitEvents now [.membershipAdded orgText userText .active occurredAt]

/-- A suspended member cannot use an invitation to reactivate themselves. -/
def refuseSuspended (org user : Uuid) : Tx Unit Unit := do
  match ← getMembershipRow org user with
  | some current => failIf (current.status = .suspended) .invalidInvite
  | none => pure ()

def acceptInvite (now : Time) (inviteID orgID userID : String) (acceptedAt : Time) :
    Tx Unit Unit := do
  let (org, id) ← inviteIDs orgID inviteID
  let user ← parseID "user id" userID
  lockOrganization org
  refuseSuspended org user
  consumeInvite now ("postgres: accept invite", "postgres: add invited member") id org user orgID
    userID acceptedAt acceptedAt

/-! ## Sign-up -/

/-- The invitation part of `CreateSignupUser`. -/
def joinInvite (now : Time) (userID : Uuid) (userText : String) (acceptedAt occurredAt : Time) :
    Option Invite → Tx Bool Unit
  | none => pure ()
  | some invite => do
      let orgID ← parseID "organization id" invite.orgID
      let inviteID ← parseID "invite id" invite.id
      lockOrganization orgID
      consumeInvite now ("postgres: accept signup invite", "postgres: add signup invite member")
        inviteID orgID userID invite.orgID userText acceptedAt occurredAt

/-- The organization part of `CreateSignupUser`. -/
def ownOrg (now : Time) (userID : Uuid) (userText : String) (occurredAt : Time) :
    Option Organization → Tx Bool Unit
  | none => pure ()
  | some org => do
      let orgID ← parseID "organization id" org.id
      stmt "postgres: create signup organization" (.createOrganization orgID org.name
        (timestamptz org.createdAt) (timestamptz org.updatedAt))
      stmt "postgres: add signup organization owner"
        (.addOrganizationMembership orgID userID .active)
      emitEvents now [.orgCreated org.id org.name occurredAt,
        .membershipAdded org.id userText .active occurredAt]

def createSignupUser (now : Time) (user : User) (org : Option Organization)
    (invite : Option Invite) (acceptedAt : Time) : Tx Bool Bool := do
  let userID ← parseID "user id" user.id
  let verifiedAt := if user.emailVerified then timestamptz acceptedAt else none
  let created ← stmt "postgres: create signup user" (.createSignupUser userID user.email
    user.passwordHash user.displayName user.status verifiedAt)
  if created = 0 then pure false
  else do
    let occurredAt := orNow now acceptedAt
    emitEvents now [.userCreated user.id occurredAt]
    joinInvite now userID user.id acceptedAt occurredAt invite
    ownOrg now userID user.id occurredAt org
    pure true

/-- The challenge part of `ReissuePendingSignup`. -/
def rotateChallenge (acceptedAt : Time) : Option OTPChallenge → Tx (String × Bool) Unit
  | none => pure ()
  | some ch => do
      stmt "postgres: invalidate signup challenges"
        (.deleteChallengesForIdentifier ch.identifier ch.channel)
      let challengeID ← parseID "challenge id" ch.id
      stmt "postgres: write signup challenge" (.upsertChallenge challengeID ch.identifier
        ch.channel ch.codeHash (timestamptz ch.expiresAt)
        (timestamptz (orNow acceptedAt ch.createdAt)))

/-- The invitation part of `ReissuePendingSignup`.  Unlike `AcceptInvite` it does not look at an
existing membership. -/
def activateByInvite (now : Time) (userID : String) (acceptedAt : Time) :
    Option Invite → Tx (String × Bool) Unit
  | none => pure ()
  | some invite => do
      let userUUID ← parseID "user id" userID
      let orgID ← parseID "organization id" invite.orgID
      let inviteID ← parseID "invite id" invite.id
      let affected ← stmt "postgres: activate signup invite"
        (.verifySignupUser userUUID (timestamptz acceptedAt))
      if affected = 0 then discard ("", false)
      else do
        lockOrganization orgID
        consumeInvite now ("postgres: accept signup invite", "postgres: add signup invite member")
          inviteID orgID userUUID invite.orgID userID acceptedAt acceptedAt

def reissuePendingSignup (now : Time) (user : User) (challenge : Option OTPChallenge)
    (invite : Option Invite) (acceptedAt : Time) :
    Tx (String × Bool) (String × Bool) := do
  match ← query (.reissueSignupUser user.email user.passwordHash user.displayName) with
  | .error .noRows => discard ("", false)
  | .error e => fault (.sql "postgres: reissue signup user" e)
  | .ok userID => do
      rotateChallenge acceptedAt challenge
      activateByInvite now userID acceptedAt invite
      pure (userID, true)

def verifySignup (userID : String) (verifiedAt : Time) : Tx Unit Unit := do
  let id ← parseID "user id" userID
  let affected ← stmt "postgres: verify signup" (.verifySignupUser id (timestamptz verifiedAt))
  failIf (affected = 0) .userNotFound

def purgeUnverifiedSignups (before : Time) : Tx Nat Nat := do
  let removed ← stmt "postgres: purge unverified signups"
    (.purgeUnverifiedSignups (timestamptz before))
  let _ ← stmt "postgres: purge empty signup organizations" .deleteEmptyOrganizations
  pure removed

/-! ## The calls as operations -/

/-- The store calls a service can make: one statement or one transaction each. -/
inductive Op
  | upsertChallenge (ch : OTPChallenge)
  | getLatestChallenge (identifier channel : String)
  | incrementAttempts (id : String)
  | consumeChallenge (id : String)
  | deleteExpiredChallenges
  | findByEmail (email : String)
  | findByMobile (mobile : String)
  | findByID (userID : String)
  | createByEmail (email : String)
  | createByMobile (mobile : String)
  | updateLastLogin (userID : String)
  | upsertDemoUser (email mobile passwordHash displayName : String)
  | storeRefresh (userID orgID tokenHash : String) (expiresAt : Time)
  | findValid (tokenHash : String)
  | revoke (tokenHash : String)
  | createToken (t : APIToken)
  | listByUser (userID : String)
  | revokeToken (userID tokenID : String)
  | findByPrefix (tokenPrefix : String)
  | createOrg (org : Organization) (creatorID : String)
  | getOrg (orgID : String)
  | listOrgsForUser (userID : String)
  | listMembers (orgID : String)
  | addMember (orgID userID : String) (status : MembershipStatus)
  | updateMemberStatus (orgID userID : String) (status : MembershipStatus)
  | removeMember (orgID userID : String)
  | getMembership (orgID userID : String)
  | createInvite (invite : Invite)
  | findInviteByTokenHash (tokenHash : String)
  | listInvites (orgID : String)
  | revokeInvite (orgID inviteID : String)
  | acceptInvite (inviteID orgID userID : String) (acceptedAt : Time)
  | createSignupUser (user : User) (org : Option Organization) (invite : Option Invite)
      (acceptedAt : Time)
  | reissuePendingSignup (user : User) (challenge : Option OTPChallenge) (invite : Option Invite)
      (acceptedAt : Time)
  | verifySignup (userID : String) (verifiedAt : Time)
  | purgeUnverifiedSignups (before : Time)

@[reducible] def Op.Val : Op → Type
  | .getLatestChallenge _ _ => OTPChallenge
  | .findByEmail _ | .findByMobile _ | .findByID _ | .createByEmail _ | .createByMobile _ => User
  | .findValid _ => String × String
  | .listByUser _ => List APITokenInfo
  | .findByPrefix _ => APIToken
  | .getOrg _ => Organization
  | .listOrgsForUser _ => List Organization
  | .listMembers _ => List Membership
  | .getMembership _ _ => Membership
  | .findInviteByTokenHash _ => Invite
  | .listInvites _ => List Invite
  | .createSignupUser _ _ _ _ => Bool
  | .reissuePendingSignup _ _ _ _ => String × Bool
  | .purgeUnverifiedSignups _ => Nat
  | _ => Unit

/-- The program of a call.  `now` is the instant of the call and `id` the identifier it draws from
`uuid.New`, for the calls that draw one. -/
def Op.body (now : Time) (id : Uuid) : (o : Op) → Tx o.Val o.Val
  | .upsertChallenge ch => Store.upsertChallenge now ch
  | .getLatestChallenge identifier channel => Store.getLatestChallenge identifier channel
  | .incrementAttempts ch => Store.incrementAttempts ch
  | .consumeChallenge ch => Store.consumeChallenge ch
  | .deleteExpiredChallenges => Store.deleteExpiredChallenges
  | .findByEmail email => Store.findByEmail email
  | .findByMobile mobile => Store.findByMobile mobile
  | .findByID user => Store.findByID user
  | .createByEmail email => Store.createByEmail now id email
  | .createByMobile mobile => Store.createByMobile now id mobile
  | .updateLastLogin user => Store.updateLastLogin user
  | .upsertDemoUser email mobile hash name => Store.upsertDemoUser now id email mobile hash name
  | .storeRefresh user org hash expires => Store.storeRefresh id user org hash expires
  | .findValid hash => Store.findValid hash
  | .revoke hash => Store.revoke hash
  | .createToken t => Store.createToken t
  | .listByUser user => Store.listByUser user
  | .revokeToken user token => Store.revokeToken user token
  | .findByPrefix tokenPrefix => Store.findByPrefix tokenPrefix
  | .createOrg org creator => Store.createOrg now org creator
  | .getOrg org => Store.getOrg org
  | .listOrgsForUser user => Store.listOrgsForUser user
  | .listMembers org => Store.listMembers org
  | .addMember org user status => Store.addMember now org user status
  | .updateMemberStatus org user status => Store.updateMemberStatus now org user status
  | .removeMember org user => Store.removeMember now org user
  | .getMembership org user => Store.getMembership org user
  | .createInvite invite => Store.createInvite invite
  | .findInviteByTokenHash hash => Store.findInviteByTokenHash hash
  | .listInvites org => Store.listInvites org
  | .revokeInvite org invite => Store.revokeInvite org invite
  | .acceptInvite invite org user accepted => Store.acceptInvite now invite org user accepted
  | .createSignupUser user org invite accepted =>
      Store.createSignupUser now user org invite accepted
  | .reissuePendingSignup user challenge invite accepted =>
      Store.reissuePendingSignup now user challenge invite accepted
  | .verifySignup user verified => Store.verifySignup user verified
  | .purgeUnverifiedSignups before => Store.purgeUnverifiedSignups before

end Store
end Postgres
end OrbitAuth
