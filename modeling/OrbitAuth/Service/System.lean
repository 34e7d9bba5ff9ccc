import OrbitAuth.Foundations.Interleaving
import OrbitAuth.Service.Credentials
import OrbitAuth.Service.Organizations
import OrbitAuth.Service.Signup

/-!
# System — the service under concurrent calls

A call of the service is one of its use cases with arguments.  `serve` is the interleaved system:
one thread per call over a shared world, one step per operation.  `perform` runs a call without
interference, and `Reachable` are the worlds that sequences of such calls lead to.
-/

namespace OrbitAuth
namespace Service

open Domain Foundations Postgres Token

inductive Call
  | requestOTP (identifier channel correlationID : String)
  | verifyOTP (identifier channel code : String)
  | loginWithPassword (identifier password : String)
  | refresh (refreshToken : String)
  | selectOrg (userID refreshToken orgID : String)
  | registerWithEmail (email password displayName locale orgName inviteToken : String)
  | verifySignup (email code password : String)
  | purgeUnverifiedSignups (before : Time)
  | createApiToken (userID name : String) (scopes : Option (List String)) (expiresAt : Option Time)
  | listApiTokens (userID : String)
  | revokeApiToken (userID tokenID : String)
  | validateApiToken (secret : String)
  | seedDemoUsers
  | createOrg (creatorID name : String)
  | listOrgsForUser (userID : String)
  | listMembers (orgID : String)
  | addMember (orgID userID : String)
  | suspendMember (orgID userID : String)
  | removeMember (orgID userID : String)
  | inviteMember (orgID inviterID email : String)
  | acceptInvite (userID token : String)
  | revokeInvite (orgID inviteID callerID : String)
  | listInvites (orgID : String)
  deriving DecidableEq

inductive Reply
  | none
  | tokens (pair : TokenPair)
  | expires (at_ : Time)
  | count (n : Nat)
  | created (token : CreatedToken)
  | apiTokens (infos : List APITokenInfo)
  | identity (userID : String) (scopes : Option (List String))
  | organization (org : Organization)
  | organizations (orgs : List Organization)
  | members (members : List Membership)
  | invite (invite : Invite)
  | invites (invites : List Invite)
  deriving DecidableEq

def Call.program (cfg : Config) : Call → Action Reply
  | .requestOTP identifier channel correlationID =>
      .expires <$> Service.requestOTP identifier channel correlationID
  | .verifyOTP identifier channel code => .tokens <$> Service.verifyOTP cfg identifier channel code
  | .loginWithPassword identifier password =>
      .tokens <$> Service.loginWithPassword cfg identifier password
  | .refresh token => .tokens <$> Service.refresh cfg token
  | .selectOrg user token org => .tokens <$> Service.selectOrg cfg user token org
  | .registerWithEmail email password name locale orgName invite =>
      (fun _ => .none) <$> Service.registerWithEmail cfg email password name locale orgName invite
  | .verifySignup email code password => .tokens <$> Service.verifySignup cfg email code password
  | .purgeUnverifiedSignups before => .count <$> Service.purgeUnverifiedSignups before
  | .createApiToken user name scopes expires =>
      .created <$> Service.createApiToken user name scopes expires
  | .listApiTokens user => .apiTokens <$> Service.listApiTokens user
  | .revokeApiToken user token => (fun _ => .none) <$> Service.revokeApiToken user token
  | .validateApiToken secret => (fun r => .identity r.1 r.2) <$> Service.validateApiToken cfg secret
  | .seedDemoUsers => (fun _ => .none) <$> Service.seedDemoUsers cfg
  | .createOrg creator name => .organization <$> Service.createOrg creator name
  | .listOrgsForUser user => .organizations <$> Service.listOrgsForUser user
  | .listMembers org => .members <$> Service.listMembers org
  | .addMember org user => (fun _ => .none) <$> Service.addMember org user
  | .suspendMember org user => (fun _ => .none) <$> Service.suspendMember org user
  | .removeMember org user => (fun _ => .none) <$> Service.removeMember org user
  | .inviteMember org inviter email => .invite <$> Service.inviteMember cfg org inviter email
  | .acceptInvite user token => .invite <$> Service.acceptInvite cfg user token
  | .revokeInvite org invite caller => (fun _ => .none) <$> Service.revokeInvite org invite caller
  | .listInvites org => .invites <$> Service.listInvites org

/-! ## Concurrent calls -/

abbrev ServicePool := Pool ports Err Reply World

/-- One thread per call, none of them started. -/
def serve (cfg : Config) (w : World) (calls : List Call) : ServicePool :=
  Pool.start w (calls.map (Call.program cfg))

abbrev Schedule := List (Nat × Choice)

/-- Let the threads of `p` take the steps of the schedule. -/
def runOn (cfg : Config) (p : ServicePool) (sched : Schedule) : ServicePool :=
  p.run (exec cfg.env) sched

/-- Call `i` has returned a token pair. -/
def gotTokens (p : ServicePool) (i : Nat) : Bool :=
  match p.result? i with
  | some (.ok (.tokens _)) => true
  | _ => false

theorem gotTokens_iff {p : ServicePool} {i : Nat} :
    gotTokens p i = true ↔ ∃ pair, p.result? i = some (.ok (.tokens pair)) := by
  unfold gotTokens
  split
  · rename_i pair h
    exact ⟨fun _ => ⟨pair, h⟩, fun _ => rfl⟩
  · rename_i hne
    refine ⟨fun h => Bool.noConfusion h, ?_⟩
    rintro ⟨pair, h⟩
    exact absurd h (hne pair)

/-! ## Undisturbed calls -/

/-- Run a call by itself.  `choices` supplies what the environment decides, step by step. -/
def Call.perform (cfg : Config) (call : Call) (choices : Nat → Choice) (w : World) :
    Except Err Reply × World :=
  (call.program cfg).run (exec cfg.env) choices w

/-- A call whose result has been seen. -/
theorem Call.perform_eq {cfg : Config} {call : Call} {choices : Nat → Choice} {w : World}
    {res : Except Err Reply} (h : (call.perform cfg choices w).1 = res) :
    call.perform cfg choices w = (res, (call.perform cfg choices w).2) :=
  Prod.ext h rfl

theorem exists_ok {α : Type} {res : Except Err α} (h : res.isOk = true) : ∃ a, res = .ok a := by
  cases res with
  | ok a => exact ⟨a, rfl⟩
  | error e => cases h

theorem exists_error {α : Type} {res : Except Err α} (h : res.isOk = false) :
    ∃ e, res = .error e := by
  cases res with
  | error e => exact ⟨e, rfl⟩
  | ok a => cases h

/-- The worlds that a sequence of the `allowed` calls leads to, starting from `w₀`. -/
inductive Reachable (cfg : Config) (allowed : Call → Prop) (w₀ : World) : World → Prop
  | start : Reachable cfg allowed w₀ w₀
  | step {w : World} (h : Reachable cfg allowed w₀ w) (call : Call) (hcall : allowed call)
      (choices : Nat → Choice) : Reachable cfg allowed w₀ (call.perform cfg choices w).2

/-! ## A small deployment

Open sign-up, a hasher without collisions and ASCII case folding: the setting of the concrete runs
in this development. -/

def toyEnv : Env where
  lowerRune := Char.toLower
  foldRune c d := c.toLower == d.toLower
  sqlLower s := s
  digest s := "sha256:" ++ s
  hash _ s := "bcrypt:" ++ s
  compare h s := h == "bcrypt:" ++ s
  keyID := "k1"
  keyID_nonblank := by decide

theorem toyEnv_ideal : toyEnv.IdealHasher := by
  intro salt s t
  simp [toyEnv]

def toyConfig : Config where
  env := toyEnv
  signupOpen := true
  demoMode := false
  demoUsers := []
  autoSelectSingleOrg := true

/-- An empty database and a clock that runs. -/
def toyWorld : World :=
  { World.empty with now := 1000 }

/-- An active account without an address. -/
def toyUser (n : Nat) : UserRow where
  id := Uuid.ofNat n
  email := none
  mobile := none
  passwordHash := none
  displayName := none
  status := .active
  emailVerifiedAt := none
  createdAt := 1
  updatedAt := 1
  lastLoginAt := none

/-- `count` steps of thread `i` at the instant `t`.  Identifiers are drawn from `first` on and
every code is `123456`. -/
def turns (i : Nat) (t : Time) (first count : Nat) : Schedule :=
  (List.range count).map fun k => (i, { now := t, id := Uuid.ofNat (first + k), code := "123456" })

/-- `turns` in which the given secret is drawn. -/
def draws (secret : String) (i : Nat) (t : Time) (first count : Nat) : Schedule :=
  (turns i t first count).map fun step => (step.1, { step.2 with secret := secret })

end Service
end OrbitAuth
