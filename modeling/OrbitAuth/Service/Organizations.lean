import OrbitAuth.Service.Sessions

/-!
# Organizations — memberships and invitations

`organizations.go` and `invites.go`.
-/

namespace OrbitAuth
namespace Service

open Domain Foundations Postgres Token

variable (cfg : Config)

/-! ## Organizations and members -/

def createOrg (creatorID name : String) : Action Organization := do
  let creatorID := trimSpace creatorID
  let name := trimSpace name
  failIf (creatorID = "") (.message "creator_id required")
  failIf (name = "") .invalidOrgName
  let t ← now
  let id ← newID
  let org : Organization := { id := id, name := name, createdAt := t, updatedAt := t }
  store (.createOrg org creatorID)
  pure org

def listOrgsForUser (userID : String) : Action (List Organization) := do
  failIf (trimSpace userID = "") (.message "user_id required")
  store (.listOrgsForUser (trimSpace userID))

def listMembers (orgID : String) : Action (List Membership) := do
  failIf (trimSpace orgID = "") (.message "org_id required")
  let _ ← store (.getOrg (trimSpace orgID))
  store (.listMembers (trimSpace orgID))

/-- The blank check and the lookup of the target user that the three membership writes share. -/
def requireTarget (orgID userID : String) : Action Unit := do
  failIf (orgID = "" || userID = "") (.message "org_id and user_id required")
  let _ ← store (.findByID userID)
  pure ()

def addMember (orgID userID : String) : Action Unit := do
  let orgID := trimSpace orgID
  let userID := trimSpace userID
  requireTarget orgID userID
  let _ ← store (.getOrg orgID)
  store (.addMember orgID userID .active)

def suspendMember (orgID userID : String) : Action Unit := do
  let orgID := trimSpace orgID
  let userID := trimSpace userID
  requireTarget orgID userID
  let m ← store (.getMembership orgID userID)
  if m.status ≠ .active then pure ()
  else store (.updateMemberStatus orgID userID .suspended)

def removeMember (orgID userID : String) : Action Unit := do
  let orgID := trimSpace orgID
  let userID := trimSpace userID
  requireTarget orgID userID
  let _ ← store (.getMembership orgID userID)
  store (.removeMember orgID userID)

/-! ## Invitations -/

def defaultInviteLocale : String := "fa"

/-- Only an active member of the organization may invite or revoke. -/
def requireActiveMember (orgID userID : String) : Action Unit := do
  let active ← isActiveMember orgID userID
  failIf (!active) .notMember

/-- A pending invitation nobody received is revoked. -/
def sendInvite (n : InviteNotification) (orgID inviteID : String) : Action Unit := do
  match ← trySend (.orgInvite n) with
  | .ok _ => pure ()
  | .error e =>
      match ← tryStore (.revokeInvite orgID inviteID) with
      | .ok _ => .fail e
      | .error revokeErr => .fail (.revokeFailed e revokeErr)

def inviteMember (orgID inviterID email : String) : Action Invite := do
  let orgID := trimSpace orgID
  let inviterID := trimSpace inviterID
  failIf (orgID = "" || inviterID = "") (.message "org_id and inviter_id required")
  let email := cfg.env.normalizeEmail email
  failIf (!isEmail email) .invalidEmail
  requireActiveMember orgID inviterID
  let org ← store (.getOrg orgID)
  let inviter ← store (.findByID inviterID)
  let token ← newSecret
  let t ← now
  let id ← newID
  let invite : Invite :=
    { id := id, orgID := orgID, email := email, tokenHash := cfg.env.hashInviteToken token,
      inviterID := inviterID, status := .pending, expiresAt := t + inviteTTL, acceptedAt := none,
      createdAt := t }
  store (.createInvite invite)
  sendInvite
    { recipient := email, orgName := org.name,
      inviterName := if inviter.displayName = "" then inviter.email else inviter.displayName,
      acceptToken := token, expiresAt := invite.expiresAt, locale := defaultInviteLocale,
      correlationID := invite.id } orgID invite.id
  pure { invite with tokenHash := "" }

/-- May this account accept an invitation to `inviteEmail`? -/
def inviteRecipientMatches (user : User) (inviteEmail : String) : Bool :=
  user.email ≠ "" && user.emailVerified && user.status = .active &&
    equalFold cfg.env.foldRune user.email inviteEmail

def acceptInvite (userID token : String) : Action Invite := do
  let userID := trimSpace userID
  let token := trimSpace token
  failIf (userID = "" || token = "") .invalidInvite
  let invite ← storeMapping .inviteNotFound .invalidInvite
    (.findInviteByTokenHash (cfg.env.hashInviteToken token))
  let t ← now
  failIf (invite.status ≠ .pending || invite.expiresAt ≤ t) .invalidInvite
  let user ← storeMapping .userNotFound .invalidInvite (.findByID userID)
  failIf (!inviteRecipientMatches cfg user invite.email) .invalidInvite
  storeMapping .inviteNotFound .invalidInvite (.acceptInvite invite.id invite.orgID userID t)
  pure { invite with status := .accepted, acceptedAt := some t, tokenHash := "" }

def revokeInvite (orgID inviteID callerID : String) : Action Unit := do
  let orgID := trimSpace orgID
  let inviteID := trimSpace inviteID
  let callerID := trimSpace callerID
  failIf (orgID = "" || inviteID = "" || callerID = "")
    (.message "org_id, invite_id and caller_id required")
  requireActiveMember orgID callerID
  store (.revokeInvite orgID inviteID)

def listInvites (orgID : String) : Action (List Invite) := do
  failIf (trimSpace orgID = "") (.message "org_id required")
  let _ ← store (.getOrg (trimSpace orgID))
  let invites ← store (.listInvites (trimSpace orgID))
  pure (invites.map fun i => { i with tokenHash := "" })

end Service
end OrbitAuth
