import OrbitAuth.Service.System

/-!
# Footprints — which operations the use cases call

An operation is plain when it only draws or reads, or takes from the books of one-time codes.  The
lemmas below bound the calls of each use case by the plain operations and the few others it makes,
so that an argument about those few covers the whole use case.
-/

namespace OrbitAuth
namespace Service

open Domain Foundations Postgres Token

variable {orgID userID : String} {o : Store.Op}

def plainStore : Store.Op → Bool
  | .incrementAttempts _ | .deleteExpiredChallenges
  | .findByEmail _ | .findByMobile _ | .findByID _ | .findValid _ | .listByUser _
  | .findByPrefix _ | .getOrg _ | .listOrgsForUser _ | .listMembers _ | .getMembership _ _
  | .findInviteByTokenHash _ | .listInvites _ => true
  | _ => false

def Port.plain : Port → Bool
  | .sign _ _ _ => false
  | .store o => plainStore o
  | _ => true

section Vocabulary

variable {allowed : Port → Prop} {α : Type}

theorem uses_orReturn (r : Except Err α) : (orReturn r).Uses allowed := by
  cases r with
  | ok a => exact .done a
  | error e => exact .fail e

theorem uses_failIf (c : Bool) (e : Err) : (failIf c e).Uses allowed := by
  cases c with
  | false => exact .done ()
  | true => exact .fail e

theorem uses_store (h : allowed (.store o)) : (store o).Uses allowed :=
  .call h uses_orReturn

theorem uses_tryStore (h : allowed (.store o)) : (tryStore o).Uses allowed :=
  .call h fun _ => .done _

theorem uses_ignore (h : allowed (.store o)) : (ignore o).Uses allowed :=
  .call h fun _ => .done _

theorem uses_storeOr {e : Err} (h : allowed (.store o)) : (storeOr e o).Uses allowed := by
  refine .call h fun r => ?_
  cases r with
  | ok v => exact .done v
  | error e => exact .fail _

theorem uses_storeMapping {e e' : Err} (h : allowed (.store o)) :
    (storeMapping e e' o).Uses allowed := by
  refine .call h fun r => ?_
  cases r with
  | ok v => exact .done v
  | error e => exact .fail _

theorem uses_now (h : allowed .now) : now.Uses allowed :=
  .call h fun _ => .done _

theorem uses_newID (h : allowed .newID) : newID.Uses allowed :=
  .call h fun _ => .done _

theorem uses_flag {name : String} (h : allowed (.flag name)) : (flag name).Uses allowed :=
  .call h fun _ => .done _

theorem uses_newCode (h : allowed .newCode) : newCode.Uses allowed :=
  .call h uses_orReturn

theorem uses_hash {secret : String} (h : allowed (.hash secret)) : (hash secret).Uses allowed :=
  .call h uses_orReturn

theorem uses_send {n : Notification} (h : allowed (.send n)) : (send n).Uses allowed :=
  .call h uses_orReturn

/-- Asking for a membership takes one lookup. -/
theorem uses_memberLookup (h : ∀ org user, allowed (.store (.getMembership org user))) :
    (isActiveMember orgID userID).Uses allowed := by
  refine uses_bind (uses_failIf _ _) fun _ => ?_
  refine uses_bind (uses_tryStore (h _ _)) fun r => ?_
  cases r with
  | ok m => exact .done _
  | error e =>
      dsimp only
      split <;> constructor

end Vocabulary

section Silent

/-- Every plain operation but a notification. -/
def Silent (allowed : Port → Prop) : Prop :=
  ∀ o : Port, o.plain = true → (∀ n, o ≠ .send n) → allowed o

theorem silent_of_plain {allowed : Port → Prop} (h : ∀ o : Port, o.plain = true → allowed o) :
    Silent allowed :=
  fun o ho _ => h o ho

variable {cfg : Config} {allowed : Port → Prop} (h : Silent allowed)

include h

/-! ## Use cases without notifications -/

theorem uses_singleActiveOrg (userID : String) : (singleActiveOrg userID).Uses allowed := by
  refine uses_bind (uses_tryStore (h _ rfl nofun)) fun r => ?_
  split <;> constructor

theorem uses_buildOTPChallenge (identifier channel : String) :
    (buildOTPChallenge identifier channel).Uses allowed := by
  refine uses_bind (uses_newCode (h .newCode rfl nofun)) fun _ => ?_
  refine uses_bind (uses_hash (h (.hash _) rfl nofun)) fun _ => ?_
  refine uses_bind (uses_now (h .now rfl nofun)) fun _ => ?_
  exact uses_bind (uses_newID (h .newID rfl nofun)) fun _ => .done _

theorem uses_newOTPChallenge (hput : ∀ ch, allowed (.store (.upsertChallenge ch)))
    (identifier channel : String) :
    (newOTPChallenge identifier channel).Uses allowed := by
  refine uses_bind (uses_ignore (h _ rfl nofun)) fun _ => ?_
  refine uses_bind (uses_buildOTPChallenge h _ _) fun res => ?_
  rcases res with ⟨ch, code⟩
  exact uses_bind (uses_store (hput ch)) fun _ => .done _

theorem uses_requireChannel (identifier channel : String) :
    (requireChannel identifier channel).Uses allowed := by
  unfold requireChannel
  split
  · exact uses_bind (uses_flag (h (.flag _) rfl nofun)) fun _ => uses_failIf _ _
  · split
    · refine uses_bind (uses_failIf _ _) fun _ => ?_
      exact uses_bind (uses_flag (h (.flag _) rfl nofun)) fun _ => uses_failIf _ _
    · exact .fail _

theorem uses_matchChallenge {identifier channel : String}
    (hget : allowed (.store (.getLatestChallenge identifier channel))) (code : String) :
    (matchChallenge cfg identifier channel code).Uses allowed := by
  refine uses_bind (uses_storeOr hget) fun _ => ?_
  refine uses_bind (uses_now (h .now rfl nofun)) fun _ => ?_
  refine uses_bind (uses_failIf _ _) fun _ => ?_
  refine uses_bind (uses_failIf _ _) fun _ => ?_
  split
  · exact .done _
  · exact uses_bind (uses_ignore (h _ rfl nofun)) fun _ => .fail _

theorem uses_findOrCreate (hemail : ∀ email, allowed (.store (.createByEmail email)))
    (hmobile : ∀ mobile, allowed (.store (.createByMobile mobile))) (identifier channel : String) :
    (findOrCreate identifier channel).Uses allowed := by
  unfold findOrCreate
  split
  · refine uses_bind (uses_tryStore (h _ rfl nofun)) fun r => ?_
    cases r with
    | ok user => exact .done _
    | error e =>
        dsimp only
        split
        · exact uses_store (hemail _)
        · exact .fail _
  · split
    · refine uses_bind (uses_tryStore (h _ rfl nofun)) fun r => ?_
      cases r with
      | ok user => exact .done _
      | error e =>
          dsimp only
          split
          · exact uses_store (hmobile _)
          · exact .fail _
    · exact .fail _

/-- Issuing a pair signs one access token and stores one refresh token. -/
theorem uses_issueTokensForOrg {userID orgID : String}
    (hsign : ∀ t, allowed (.sign userID orgID t))
    (hstore : ∀ tokenHash t, allowed (.store (.storeRefresh userID orgID tokenHash t))) :
    (issueTokensForOrg cfg userID orgID).Uses allowed := by
  refine uses_bind (uses_now (h .now rfl nofun)) fun t => ?_
  refine uses_bind (.call (hsign _) uses_orReturn) fun _ => ?_
  refine uses_bind (uses_newID (h .newID rfl nofun)) fun _ => ?_
  refine uses_bind (uses_newID (h .newID rfl nofun)) fun _ => ?_
  exact uses_bind (uses_store (hstore _ _)) fun _ => .done _

theorem uses_issueTokens {userID : String} (hsign : ∀ org t, allowed (.sign userID org t))
    (hstore : ∀ org tokenHash t, allowed (.store (.storeRefresh userID org tokenHash t))) :
    (issueTokens cfg userID).Uses allowed := by
  have horg : (loginOrg cfg userID).Uses allowed := by
    unfold loginOrg
    split
    · exact uses_singleActiveOrg h _
    · exact .done _
  exact uses_bind horg fun org => uses_issueTokensForOrg h (hsign org) (hstore org)

theorem uses_verifyOTP {identifier channel code : String}
    (hget : ∀ identifier channel, allowed (.store (.getLatestChallenge identifier channel)))
    (hconsume : ∀ id, allowed (.store (.consumeChallenge id)))
    (hemail : ∀ email, allowed (.store (.createByEmail email)))
    (hmobile : ∀ mobile, allowed (.store (.createByMobile mobile)))
    (hsign : ∀ user org t, allowed (.sign user org t))
    (hstore : ∀ user org tokenHash t, allowed (.store (.storeRefresh user org tokenHash t))) :
    (verifyOTP cfg identifier channel code).Uses allowed := by
  refine uses_bind (uses_failIf _ _) fun _ => ?_
  refine uses_bind (uses_matchChallenge h (hget _ _) _) fun res => ?_
  refine uses_bind (uses_store (hconsume _)) fun _ => ?_
  refine uses_bind (uses_findOrCreate h hemail hmobile _ _) fun user => ?_
  exact uses_bind (uses_failIf _ _) fun _ => uses_issueTokens h (hsign _) (hstore _)

theorem uses_matchSignup (ch : OTPChallenge) (email password : String) :
    (matchSignup cfg ch email password).Uses allowed := by
  have hreject : (rejectSignup ch).Uses allowed :=
    uses_bind (uses_ignore (h _ rfl nofun)) fun _ => .fail _
  refine uses_bind (uses_tryStore (h _ rfl nofun)) fun r => ?_
  cases r with
  | error e => exact hreject
  | ok user =>
      dsimp only
      split
      · exact hreject
      · exact .done _

theorem uses_verifySignup {email code password : String}
    (hget : ∀ identifier, allowed (.store (.getLatestChallenge identifier channelEmail)))
    (hconsume : ∀ id, allowed (.store (.consumeChallenge id)))
    (hverify : ∀ user t, allowed (.store (.verifySignup user t)))
    (hsign : ∀ user org t, allowed (.sign user org t))
    (hstore : ∀ user org tokenHash t, allowed (.store (.storeRefresh user org tokenHash t))) :
    (verifySignup cfg email code password).Uses allowed := by
  refine uses_bind (uses_failIf _ _) fun _ => ?_
  refine uses_bind (uses_failIf _ _) fun _ => ?_
  refine uses_bind (uses_matchChallenge h (hget _) _) fun res => ?_
  refine uses_bind (uses_matchSignup h _ _ _) fun user => ?_
  refine uses_bind (uses_store (hconsume _)) fun _ => ?_
  exact uses_bind (uses_storeMapping (hverify _ _)) fun _ =>
    uses_issueTokens h (hsign _) (hstore _)

end Silent

section UseCases

variable {cfg : Config} {allowed : Port → Prop} (h : ∀ o : Port, o.plain = true → allowed o)

include h

/-! ## Sessions -/

theorem uses_isActiveMember (orgID userID : String) :
    (isActiveMember orgID userID).Uses allowed :=
  uses_memberLookup fun _ _ => h _ rfl

theorem uses_activeOrg (userID orgID : String) : (activeOrg userID orgID).Uses allowed := by
  unfold activeOrg
  split
  · exact .done _
  · refine uses_bind (Program.uses_reify (uses_isActiveMember h orgID userID)) fun r => ?_
    split <;> constructor

theorem uses_requestOTP (hput : ∀ ch, allowed (.store (.upsertChallenge ch)))
    (identifier channel correlationID : String) :
    (requestOTP identifier channel correlationID).Uses allowed := by
  refine uses_bind (uses_failIf _ _) fun _ => ?_
  refine uses_bind (uses_requireChannel (silent_of_plain h) _ _) fun _ => ?_
  refine uses_bind (uses_newOTPChallenge (silent_of_plain h) hput _ _) fun _ => ?_
  exact uses_bind (uses_send (h (.send _) rfl)) fun _ => .done _

theorem uses_findByIdentifier (identifier : String) :
    (findByIdentifier cfg identifier).Uses allowed := by
  unfold findByIdentifier
  split
  · exact uses_storeOr (h (.store (.findByMobile _)) rfl)
  · exact uses_storeOr (h (.store (.findByEmail _)) rfl)

theorem uses_loginWithPassword {identifier password : String}
    (hlogin : ∀ user, allowed (.store (.updateLastLogin user)))
    (hsign : ∀ user org t, allowed (.sign user org t))
    (hstore : ∀ user org tokenHash t, allowed (.store (.storeRefresh user org tokenHash t))) :
    (loginWithPassword cfg identifier password).Uses allowed := by
  refine uses_bind (uses_failIf _ _) fun _ => ?_
  refine uses_bind (uses_findByIdentifier h _) fun user => ?_
  refine uses_bind (uses_failIf _ _) fun _ => ?_
  refine uses_bind (uses_failIf _ _) fun _ => ?_
  refine uses_bind (uses_failIf _ _) fun _ => ?_
  exact uses_bind (uses_ignore (hlogin _)) fun _ => uses_issueTokens (silent_of_plain h)
    (hsign _) (hstore _)

theorem uses_refresh {refreshToken : String}
    (hrevoke : ∀ tokenHash, allowed (.store (.revoke tokenHash)))
    (hsign : ∀ user org t, allowed (.sign user org t))
    (hstore : ∀ user org tokenHash t, allowed (.store (.storeRefresh user org tokenHash t))) :
    (refresh cfg refreshToken).Uses allowed := by
  refine uses_bind (uses_storeOr (h (.store (.findValid _)) rfl)) fun found => ?_
  refine uses_bind (uses_ignore (hrevoke _)) fun _ => ?_
  refine uses_bind (uses_activeOrg h _ _) fun org => ?_
  exact uses_issueTokensForOrg (silent_of_plain h) (hsign _ _) (hstore _ _)

theorem uses_selectOrg {userID refreshToken orgID : String}
    (hrevoke : ∀ tokenHash, allowed (.store (.revoke tokenHash)))
    (hsign : ∀ user org t, allowed (.sign user org t))
    (hstore : ∀ user org tokenHash t, allowed (.store (.storeRefresh user org tokenHash t))) :
    (selectOrg cfg userID refreshToken orgID).Uses allowed := by
  refine uses_bind (uses_failIf _ _) fun _ => ?_
  refine uses_bind (uses_isActiveMember h _ _) fun active => ?_
  refine uses_bind (uses_failIf _ _) fun _ => ?_
  refine uses_bind (uses_storeOr (h (.store (.findValid _)) rfl)) fun found => ?_
  refine uses_bind (uses_failIf _ _) fun _ => ?_
  refine uses_bind (uses_ignore (hrevoke _)) fun _ => ?_
  exact uses_issueTokensForOrg (silent_of_plain h) (hsign _ _) (hstore _ _)

/-! ## Sign-up -/

theorem uses_signupInvite (token email : String) :
    (signupInvite cfg token email).Uses allowed := by
  unfold signupInvite
  split
  · exact .done _
  · refine uses_bind (uses_storeMapping (h _ rfl)) fun _ => ?_
    refine uses_bind (uses_now (h .now rfl)) fun _ => ?_
    exact uses_bind (uses_failIf _ _) fun _ => .done _

omit h in
theorem uses_signupCooldownActive {email : String}
    (hget : allowed (.store (.getLatestChallenge email channelEmail))) (t : Time) :
    (signupCooldownActive email t).Uses allowed := by
  refine uses_bind (uses_tryStore hget) fun r => ?_
  cases r <;> exact .done _

theorem uses_reissueSignup {user : User} {locale : String} {t : Time}
    (hget : allowed (.store (.getLatestChallenge user.email channelEmail)))
    (hre : ∀ ch, allowed (.store (.reissuePendingSignup user ch none t))) :
    (reissueSignup user locale t).Uses allowed := by
  refine uses_bind (uses_signupCooldownActive hget _) fun cooldown => ?_
  split
  · exact uses_bind (uses_store (hre _)) fun _ => .done _
  · refine uses_bind (uses_buildOTPChallenge (silent_of_plain h) _ _) fun _ => ?_
    refine uses_bind (uses_store (hre _)) fun res => ?_
    rcases res with ⟨userID, reissued⟩
    cases reissued with
    | false => exact .done _
    | true => exact uses_send (h (.send _) rfl)

theorem uses_retryPendingSignup {user : User} {invite : Option Invite} {locale : String} {t : Time}
    (hget : allowed (.store (.getLatestChallenge user.email channelEmail)))
    (hre : ∀ ch, allowed (.store (.reissuePendingSignup user ch invite t))) :
    (retryPendingSignup user invite locale t).Uses allowed := by
  cases invite with
  | some invite => exact uses_bind (uses_storeMapping (hre _)) fun _ => .done _
  | none =>
      refine uses_bind (uses_tryStore (h _ rfl)) fun r => ?_
      cases r with
      | error e => exact uses_reissueSignup h hget hre
      | ok existing =>
          dsimp only
          split
          · exact .done _
          · exact uses_reissueSignup h hget hre

theorem uses_signupOrg (invite : Option Invite) (orgName : String) (t : Time) :
    (signupOrg invite orgName t).Uses allowed := by
  unfold signupOrg
  split
  · exact .done _
  · exact uses_bind (uses_newID (h .newID rfl)) fun _ => .done _

theorem uses_sendSignupCode (hput : ∀ ch, allowed (.store (.upsertChallenge ch)))
    (user : User) (locale : String) :
    (sendSignupCode user locale).Uses allowed := by
  exact uses_bind (uses_newOTPChallenge (silent_of_plain h) hput _ _) fun _ => uses_send
    (h (.send _) rfl)

/-- A registration writes accounts only with the hash it was given. -/
theorem uses_submitSignup {email passwordHash displayName locale orgName : String}
    {invite : Option Invite} (hput : ∀ ch, allowed (.store (.upsertChallenge ch)))
    (hget : allowed (.store (.getLatestChallenge email channelEmail)))
    (hcreate : ∀ user org t, user.email = email → user.passwordHash = passwordHash →
      allowed (.store (.createSignupUser user org invite t)))
    (hre : ∀ user ch t, user.email = email → user.passwordHash = passwordHash →
      allowed (.store (.reissuePendingSignup user ch invite t))) :
    (submitSignup email passwordHash displayName locale orgName invite).Uses allowed := by
  refine uses_bind (uses_now (h .now rfl)) fun t => ?_
  refine uses_bind (uses_newID (h .newID rfl)) fun id => ?_
  refine uses_bind (uses_signupOrg h _ _ _) fun org => ?_
  refine uses_bind (uses_storeMapping (hcreate _ _ _ rfl rfl)) fun created => ?_
  split
  · exact uses_retryPendingSignup h hget fun ch => hre _ ch _ rfl rfl
  · split
    · exact .done _
    · exact uses_sendSignupCode h hput _ _

theorem uses_registerWithEmail {email password displayName locale orgName inviteToken : String}
    (hput : ∀ ch, allowed (.store (.upsertChallenge ch)))
    (hget : ∀ identifier, allowed (.store (.getLatestChallenge identifier channelEmail)))
    (hcreate : ∀ user org inv t, allowed (.store (.createSignupUser user org inv t)))
    (hre : ∀ user ch inv t, allowed (.store (.reissuePendingSignup user ch inv t))) :
    (registerWithEmail cfg email password displayName locale orgName inviteToken).Uses allowed := by
  refine uses_bind (uses_failIf _ _) fun _ => ?_
  refine uses_bind (uses_failIf _ _) fun _ => ?_
  refine uses_bind (uses_failIf _ _) fun _ => ?_
  refine uses_bind (uses_signupInvite h _ _) fun invite => ?_
  refine uses_bind (uses_hash (h (.hash _) rfl)) fun passwordHash => ?_
  exact uses_submitSignup h hput (hget _) (fun user org t _ _ => hcreate user org _ t)
    fun user ch t _ _ => hre user ch _ t

/-! ## Organizations -/

theorem uses_createOrg {creatorID name : String}
    (hcreate : ∀ org creator, allowed (.store (.createOrg org creator))) :
    (createOrg creatorID name).Uses allowed := by
  refine uses_bind (uses_failIf _ _) fun _ => ?_
  refine uses_bind (uses_failIf _ _) fun _ => ?_
  refine uses_bind (uses_now (h .now rfl)) fun _ => ?_
  refine uses_bind (uses_newID (h .newID rfl)) fun _ => ?_
  exact uses_bind (uses_store (hcreate _ _)) fun _ => .done _

theorem uses_listOrgsForUser (userID : String) : (listOrgsForUser userID).Uses allowed :=
  uses_bind (uses_failIf _ _) fun _ => uses_store (h (.store (.listOrgsForUser _)) rfl)

theorem uses_listMembers (orgID : String) : (listMembers orgID).Uses allowed := by
  refine uses_bind (uses_failIf _ _) fun _ => ?_
  exact uses_bind (uses_store (h (.store (.getOrg _)) rfl)) fun _ =>
    uses_store (h (.store (.listMembers _)) rfl)

theorem uses_requireTarget (orgID userID : String) :
    (requireTarget orgID userID).Uses allowed := by
  refine uses_bind (uses_failIf _ _) fun _ => ?_
  exact uses_bind (uses_store (h _ rfl)) fun _ => .done _

theorem uses_addMember (hadd : ∀ org user status, allowed (.store (.addMember org user status))) :
    (addMember orgID userID).Uses allowed := by
  refine uses_bind (uses_requireTarget h _ _) fun _ => ?_
  exact uses_bind (uses_store (h (.store (.getOrg _)) rfl)) fun _ =>
    uses_store (hadd _ _ _)

theorem uses_suspendMember
    (hupdate : ∀ org user status, allowed (.store (.updateMemberStatus org user status))) :
    (suspendMember orgID userID).Uses allowed := by
  refine uses_bind (uses_requireTarget h _ _) fun _ => ?_
  refine uses_bind (uses_store (h (.store (.getMembership _ _)) rfl)) fun _ => ?_
  split
  · exact .done _
  · exact uses_store (hupdate _ _ _)

theorem uses_removeMember (hremove : ∀ org user, allowed (.store (.removeMember org user))) :
    (removeMember orgID userID).Uses allowed := by
  refine uses_bind (uses_requireTarget h _ _) fun _ => ?_
  exact uses_bind (uses_store (h (.store (.getMembership _ _)) rfl)) fun _ =>
    uses_store (hremove _ _)

theorem uses_requireActiveMember (orgID userID : String) :
    (requireActiveMember orgID userID).Uses allowed :=
  uses_bind (uses_isActiveMember h _ _) fun _ => uses_failIf _ _

theorem uses_sendInvite (hrevoke : ∀ org invite, allowed (.store (.revokeInvite org invite)))
    (n : InviteNotification) (orgID inviteID : String) :
    (sendInvite n orgID inviteID).Uses allowed := by
  refine uses_bind (.call (h (.send _) rfl) fun _ => .done _) fun r => ?_
  cases r with
  | ok _ => exact .done _
  | error e =>
      refine uses_bind (uses_tryStore (hrevoke _ _)) fun r' => ?_
      cases r' <;> exact .fail _

theorem uses_inviteMember {orgID inviterID email : String}
    (hcreate : ∀ invite, invite.status = .pending → allowed (.store (.createInvite invite)))
    (hrevoke : ∀ org invite, allowed (.store (.revokeInvite org invite))) :
    (inviteMember cfg orgID inviterID email).Uses allowed := by
  refine uses_bind (uses_failIf _ _) fun _ => ?_
  refine uses_bind (uses_failIf _ _) fun _ => ?_
  refine uses_bind (uses_requireActiveMember h _ _) fun _ => ?_
  refine uses_bind (uses_store (h (.store (.getOrg _)) rfl)) fun org => ?_
  refine uses_bind (uses_store (h (.store (.findByID _)) rfl)) fun inviter => ?_
  refine uses_bind (.call (h .newSecret rfl) uses_orReturn) fun _ => ?_
  refine uses_bind (uses_now (h .now rfl)) fun _ => ?_
  refine uses_bind (uses_newID (h .newID rfl)) fun _ => ?_
  refine uses_bind (uses_store (hcreate _ rfl)) fun _ => ?_
  exact uses_bind (uses_sendInvite h hrevoke _ _ _) fun _ => .done _

theorem uses_acceptInvite {userID token : String}
    (haccept : ∀ invite org user t, allowed (.store (.acceptInvite invite org user t))) :
    (acceptInvite cfg userID token).Uses allowed := by
  refine uses_bind (uses_failIf _ _) fun _ => ?_
  refine uses_bind (uses_storeMapping (h (.store (.findInviteByTokenHash _)) rfl))
    fun invite => ?_
  refine uses_bind (uses_now (h .now rfl)) fun _ => ?_
  refine uses_bind (uses_failIf _ _) fun _ => ?_
  refine uses_bind (uses_storeMapping (h (.store (.findByID _)) rfl)) fun user => ?_
  refine uses_bind (uses_failIf _ _) fun _ => ?_
  exact uses_bind (uses_storeMapping (haccept _ _ _ _)) fun _ => .done _

theorem uses_revokeInvite {orgID inviteID callerID : String}
    (hrevoke : ∀ org invite, allowed (.store (.revokeInvite org invite))) :
    (revokeInvite orgID inviteID callerID).Uses allowed := by
  refine uses_bind (uses_failIf _ _) fun _ => ?_
  exact uses_bind (uses_requireActiveMember h _ _) fun _ => uses_store (hrevoke _ _)

theorem uses_listInvites (orgID : String) : (listInvites orgID).Uses allowed := by
  refine uses_bind (uses_failIf _ _) fun _ => ?_
  refine uses_bind (uses_store (h (.store (.getOrg _)) rfl)) fun _ => ?_
  exact uses_bind (uses_store (h (.store (.listInvites _)) rfl)) fun _ => .done _

/-! ## Credentials -/

theorem uses_listApiTokens (userID : String) : (listApiTokens userID).Uses allowed :=
  uses_bind (uses_failIf _ _) fun _ => uses_store (h (.store (.listByUser _)) rfl)

omit h in
theorem uses_revokeApiToken {userID tokenID : String}
    (hrevoke : ∀ user token, allowed (.store (.revokeToken user token))) :
    (revokeApiToken userID tokenID).Uses allowed :=
  uses_bind (uses_failIf _ _) fun _ => uses_store (hrevoke _ _)

theorem uses_createApiToken {userID name : String} {scopes : Option (List String)}
    {expiresAt : Option Time} (hcreate : ∀ t, allowed (.store (.createToken t))) :
    (createApiToken userID name scopes expiresAt).Uses allowed := by
  refine uses_bind (uses_failIf _ _) fun _ => ?_
  refine uses_bind (.call (h .newSecret rfl) uses_orReturn) fun _ => ?_
  refine uses_bind (uses_hash (h (.hash _) rfl)) fun _ => ?_
  refine uses_bind (uses_newID (h .newID rfl)) fun _ => ?_
  exact uses_bind (uses_store (hcreate _)) fun _ => .done _

theorem uses_validateApiToken (secret : String) :
    (validateApiToken cfg secret).Uses allowed := by
  unfold validateApiToken
  split
  · exact .fail _
  · refine uses_bind (uses_storeOr (h (.store (.findByPrefix _)) rfl)) fun t => ?_
    refine uses_bind (uses_failIf _ _) fun _ => ?_
    refine uses_bind ?_ fun _ =>
      uses_bind (uses_failIf _ _) fun _ => .done _
    unfold requireUnexpired
    split
    · exact .done _
    · exact uses_bind (uses_now (h .now rfl)) fun _ => uses_failIf _ _

theorem uses_seedDemoUsers
    (hseed : ∀ email mobile hash name, allowed (.store (.upsertDemoUser email mobile hash name))) :
    (seedDemoUsers cfg).Uses allowed := by
  have hone : ∀ u, (seedDemoUser cfg u).Uses allowed := by
    intro u
    refine uses_bind (uses_hash (h (.hash _) rfl)) fun _ => ?_
    refine uses_bind (uses_failIf _ _) fun _ => ?_
    exact uses_bind (uses_failIf _ _) fun _ => uses_store (hseed _ _ _ _)
  have hall : ∀ us, (seedAll cfg us).Uses allowed := by
    intro us
    induction us with
    | nil => exact .done _
    | cons u us ih => exact uses_bind (hone u) fun _ => ih
  unfold seedDemoUsers
  split
  · exact hall _
  · exact .done _

end UseCases

end Service
end OrbitAuth
