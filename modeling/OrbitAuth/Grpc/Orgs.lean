import OrbitAuth.Service.System

/-!
# Orgs — the OrgService handlers

`grpc/orgs.go`.  A handler is a use case of the service behind a check of the request and of the
caller, with the errors of the use case turned into gRPC statuses.  The caller is the verified
access-token subject that the interceptor has put into the context.

Messages carry the records of the service with their instants; the rendering of an instant as text
is left out.
-/

namespace OrbitAuth
namespace Grpc

open Domain Foundations Postgres Service

/-! ## Statuses -/

inductive Code
  | invalidArgument
  | notFound
  | failedPrecondition
  | unauthenticated
  | internal
  deriving DecidableEq, Repr

structure Status where
  code : Code
  message : String
  deriving DecidableEq, Repr

/-- `errors.Is` finds the cause that `send invite: %w` wraps. -/
def orgError : Err → Status
  | .lastActiveMember => ⟨.failedPrecondition, "organization must keep at least one active member"⟩
  | .userNotFound => ⟨.notFound, "user not found"⟩
  | .orgNotFound | .notMember => ⟨.notFound, "organization not found"⟩
  | .invalidOrgName => ⟨.invalidArgument, "organization name is required"⟩
  | .invalidInvite => ⟨.invalidArgument, "invalid invite"⟩
  | .invalidEmail => ⟨.invalidArgument, "invalid email"⟩
  | .inviteNotFound => ⟨.notFound, "invite not found"⟩
  | .revokeFailed send _ => orgError send
  | _ => ⟨.internal, "internal error"⟩

def selectOrgError (e : Err) : Status :=
  if e = .invalidRefresh then ⟨.unauthenticated, "invalid refresh token"⟩ else orgError e

/-! ## The gate -/

abbrev Handler (α : Type) := Program ports Status α

/-- The subject in the context; a blank one counts as none. -/
def callerIDFromContext (ctx : Option String) : Option String :=
  match ctx with
  | none => none
  | some subject => if trimSpace subject = "" then none else some (trimSpace subject)

def caller (ctx : Option String) : Handler String :=
  match callerIDFromContext ctx with
  | some callerID => .done callerID
  | none => .fail ⟨.unauthenticated, "authentication required"⟩

def isUUID (value : String) : Bool :=
  (Uuid.parse value).isSome

def reject (c : Bool) (s : Status) : Handler Unit :=
  if c then .fail s else .done ()

/-- A use case of the service whose error is answered with a status. -/
def serving {α : Type} (mapping : Err → Status) (p : Action α) : Handler α :=
  p.bimap id mapping

/-- The optional user id of a request. -/
def requireUserID : List String → Handler String
  | [] => pure ""
  | raw :: _ => do
      reject (!isUUID (trimSpace raw)) ⟨.invalidArgument, "invalid user_id"⟩
      pure (trimSpace raw)

/-- A non-member and an unknown organization get the same answer. -/
def requireMembership (orgID userID callerID : String) : Handler (String × String) := do
  let active ← serving orgError (isActiveMember orgID callerID)
  reject (!active) ⟨.notFound, "organization not found"⟩
  pure (orgID, userID)

def requireActiveMember (ctx : Option String) (rawOrgID : String) (rawUserIDs : List String) :
    Handler (String × String) := do
  let callerID ← caller ctx
  let orgID := trimSpace rawOrgID
  reject (!isUUID orgID) ⟨.invalidArgument, "invalid org_id"⟩
  let userID ← requireUserID rawUserIDs
  requireMembership orgID userID callerID

/-! ## The handlers -/

/-- An invitation on the wire: without the token hash. -/
structure InviteMessage where
  id : String
  orgID : String
  email : String
  inviterID : String
  status : InviteStatus
  expiresAt : Time
  createdAt : Time
  acceptedAt : Option Time
  deriving DecidableEq, Repr

def inviteProto (invite : Invite) : InviteMessage where
  id := invite.id
  orgID := invite.orgID
  email := invite.email
  inviterID := invite.inviterID
  status := invite.status
  expiresAt := invite.expiresAt
  createdAt := invite.createdAt
  acceptedAt := invite.acceptedAt

section Handlers

variable (cfg : Config) (ctx : Option String)

def createOrg (name : String) : Handler Organization := do
  let callerID ← caller ctx
  serving orgError (Service.createOrg callerID name)

def listMyOrgs : Handler (List Organization) := do
  let callerID ← caller ctx
  serving orgError (Service.listOrgsForUser callerID)

def listMembers (rawOrgID : String) : Handler (List Membership) := do
  let (orgID, _) ← requireActiveMember ctx rawOrgID []
  serving orgError (Service.listMembers orgID)

/-- `AddMember`, `RemoveMember` and `SuspendMember`: the gate with both ids, then the use case. -/
def changeMember (change : String → String → Action Unit) (rawOrgID rawUserID : String) :
    Handler Unit := do
  let (orgID, userID) ← requireActiveMember ctx rawOrgID [rawUserID]
  serving orgError (change orgID userID)

def addMember (rawOrgID rawUserID : String) : Handler Unit :=
  changeMember ctx Service.addMember rawOrgID rawUserID

def removeMember (rawOrgID rawUserID : String) : Handler Unit :=
  changeMember ctx Service.removeMember rawOrgID rawUserID

def suspendMember (rawOrgID rawUserID : String) : Handler Unit :=
  changeMember ctx Service.suspendMember rawOrgID rawUserID

def inviteMember (rawOrgID email : String) : Handler InviteMessage := do
  let (orgID, _) ← requireActiveMember ctx rawOrgID []
  let callerID ← caller ctx
  inviteProto <$> serving orgError (Service.inviteMember cfg orgID callerID email)

/-- Open to every authenticated caller: the token selects the invitation. -/
def acceptInvite (token : String) : Handler InviteMessage := do
  let callerID ← caller ctx
  inviteProto <$> serving orgError (Service.acceptInvite cfg callerID token)

def revokeInvite (rawOrgID rawInviteID : String) : Handler Unit := do
  let (orgID, _) ← requireActiveMember ctx rawOrgID []
  let inviteID := trimSpace rawInviteID
  reject (!isUUID inviteID) ⟨.invalidArgument, "invalid invite_id"⟩
  let callerID ← caller ctx
  serving orgError (Service.revokeInvite orgID inviteID callerID)

def listInvites (rawOrgID : String) : Handler (List InviteMessage) := do
  let (orgID, _) ← requireActiveMember ctx rawOrgID []
  List.map inviteProto <$> serving orgError (Service.listInvites orgID)

def selectOrg (refreshToken rawOrgID : String) : Handler TokenPair := do
  let (orgID, _) ← requireActiveMember ctx rawOrgID []
  let callerID ← caller ctx
  serving selectOrgError (Service.selectOrg cfg callerID refreshToken orgID)

end Handlers

/-! ## The service -/

inductive Request
  | createOrg (name : String)
  | listMyOrgs
  | listMembers (orgID : String)
  | addMember (orgID userID : String)
  | removeMember (orgID userID : String)
  | suspendMember (orgID userID : String)
  | inviteMember (orgID email : String)
  | acceptInvite (token : String)
  | revokeInvite (orgID inviteID : String)
  | listInvites (orgID : String)
  | selectOrg (refreshToken orgID : String)
  deriving DecidableEq

inductive Response
  | none
  | organization (org : Organization)
  | organizations (orgs : List Organization)
  | members (members : List Membership)
  | invite (invite : InviteMessage)
  | invites (invites : List InviteMessage)
  | tokens (pair : TokenPair)
  deriving DecidableEq

/-- Route a request to its handler. -/
def Request.handler (cfg : Config) (ctx : Option String) : Request → Handler Response
  | .createOrg name => .organization <$> Grpc.createOrg ctx name
  | .listMyOrgs => .organizations <$> Grpc.listMyOrgs ctx
  | .listMembers org => .members <$> Grpc.listMembers ctx org
  | .addMember org user => (fun _ => .none) <$> Grpc.addMember ctx org user
  | .removeMember org user => (fun _ => .none) <$> Grpc.removeMember ctx org user
  | .suspendMember org user => (fun _ => .none) <$> Grpc.suspendMember ctx org user
  | .inviteMember org email => .invite <$> Grpc.inviteMember cfg ctx org email
  | .acceptInvite token => .invite <$> Grpc.acceptInvite cfg ctx token
  | .revokeInvite org invite => (fun _ => .none) <$> Grpc.revokeInvite ctx org invite
  | .listInvites org => .invites <$> Grpc.listInvites ctx org
  | .selectOrg token org => .tokens <$> Grpc.selectOrg cfg ctx token org

/-- A request, who makes it, and what the environment decides on the way. -/
structure Invocation where
  ctx : Option String
  request : Request
  choices : Nat → Choice

def Invocation.perform (cfg : Config) (i : Invocation) (w : World) :
    Except Status Response × World :=
  (i.request.handler cfg i.ctx).run (exec cfg.env) i.choices w

/-- Requests one after the other. -/
def serveAll (cfg : Config) (w : World) (history : List Invocation) : World :=
  history.foldl (fun w i => (i.perform cfg w).2) w

/-! ## What the gate does with a request -/

section Gate

variable {subject : String} {user : Uuid}

theorem caller_eq (h : Uuid.parse (trimSpace subject) = some user) :
    caller (some subject) = .done (trimSpace subject) := by
  have hne : trimSpace subject ≠ "" := Uuid.ne_empty_of_parse h
  simp [caller, callerIDFromContext, hne]

/-- A caller and an organization id in order leave the user id and the membership to check. -/
theorem requireActiveMember_eq (hcaller : Uuid.parse (trimSpace subject) = some user)
    {rawOrgID : String} {org : Uuid} (horg : Uuid.parse (trimSpace rawOrgID) = some org)
    (rawUserIDs : List String) :
    requireActiveMember (some subject) rawOrgID rawUserIDs =
      (requireUserID rawUserIDs).bind fun userID =>
        requireMembership (trimSpace rawOrgID) userID (trimSpace subject) := by
  have hvalid : isUUID (trimSpace rawOrgID) = true := by simp [isUUID, horg]
  simp [requireActiveMember, caller_eq hcaller, reject, hvalid]

end Gate

end Grpc
end OrbitAuth
