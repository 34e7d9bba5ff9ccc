import OrbitAuth.Postgres.Effects
import OrbitAuth.Postgres.Store

/-!
# Footprints — which statements the store calls run

The lemmas of the first part bound the statements of a call by the statements it is written with.
`body_writes` sums them up at the level of tables: a call writes only the tables listed for it.
-/

namespace OrbitAuth
namespace Postgres
namespace Store

open Domain Foundations

variable {now acceptedAt : Time}

section Footprints

variable {allowed : Sql → Prop} {β : Type}

theorem uses_stmt {context : String} {s : Sql} (h : allowed s) :
    (stmt context s : Tx β s.Val).Uses allowed := by
  refine .call h fun r => ?_
  cases r with
  | ok v => exact .done v
  | error e => exact .fail _

theorem uses_stmtOne {missing : Err} {s : Sql} (h : allowed s) :
    (stmtOne missing s : Tx β s.Val).Uses allowed := by
  refine .call h fun r => ?_
  cases r with
  | ok v => exact .done v
  | error e => cases e <;> exact .fail _

theorem uses_parseID (kind value : String) : (parseID kind value : Tx β Uuid).Uses allowed := by
  unfold parseID
  split
  · exact .done _
  · exact .fail _

theorem uses_membershipIDs (orgID userID : String) :
    (membershipIDs orgID userID : Tx β (Uuid × Uuid)).Uses allowed := by
  refine uses_bind (uses_parseID _ _) fun _ => ?_
  exact uses_bind (uses_parseID _ _) fun _ => .done _

theorem uses_failIf (c : Bool) (e : Err) : (failIf c e : Tx β Unit).Uses allowed := by
  unfold failIf
  split
  · exact .fail _
  · exact .done _

theorem uses_emits {es : List Event} (h : ∀ e ∈ es, allowed (.insertOutboxEvent (stamp now e))) :
    (emitEvents now es : Tx β Unit).Uses allowed := by
  induction es with
  | nil => exact .done _
  | cons e es ih =>
      refine uses_bind (uses_stmt (h e (by simp))) fun _ => ?_
      exact ih fun e' he' => h e' (List.mem_cons_of_mem _ he')

theorem uses_emitEvents (h : ∀ e, allowed (.insertOutboxEvent e)) (now : Time)
    (es : List Event) : (emitEvents now es : Tx β Unit).Uses allowed :=
  uses_emits fun _ _ => h _

/-- Events about organizations and their members. -/
def aboutOrg : Event → Prop
  | .userCreated _ _ => False
  | _ => True

theorem uses_getMembershipRow {org user : Uuid}
    (h : allowed (.getOrganizationMembership org user)) :
    (getMembershipRow org user : Tx β (Option Membership)).Uses allowed := by
  refine .call h fun r => ?_
  cases r with
  | ok m => exact .done _
  | error e => cases e <;> first | exact .done _ | exact .fail _

theorem uses_consumeInvite {contexts : String × String} {inviteID org user : Uuid}
    {orgText userText : String} {acceptedAt occurredAt : Time}
    (hevent : ∀ e, aboutOrg e → allowed (.insertOutboxEvent e))
    (haccept : allowed (.acceptOrganizationInvite inviteID org (timestamptz acceptedAt)))
    (hadd : allowed (.addActiveOrganizationMembership org user)) :
    (consumeInvite now contexts inviteID org user orgText userText acceptedAt occurredAt :
      Tx β Unit).Uses allowed := by
  refine uses_bind (uses_stmt haccept) fun _ => ?_
  refine uses_bind (uses_failIf _ _) fun _ => ?_
  refine uses_bind (uses_stmt hadd) fun _ => ?_
  refine uses_emits fun e he => ?_
  obtain rfl := List.mem_singleton.mp he
  exact hevent _ trivial

theorem uses_inviteIDs (orgID inviteID : String) :
    (inviteIDs orgID inviteID : Tx β (Uuid × Uuid)).Uses allowed := by
  refine uses_bind (uses_parseID _ _) fun _ => ?_
  exact uses_bind (uses_parseID _ _) fun _ => .done _

/-- A session is stored for the user its text names. -/
theorem uses_storeRefresh {id : Uuid} {user org tokenHash : String} {t : Time}
    (h : ∀ u o e, Uuid.parse user = some u → allowed (.storeRefreshToken id u o tokenHash e)) :
    (storeRefresh id user org tokenHash t).Uses allowed := by
  unfold storeRefresh parseID
  cases hp : Uuid.parse user with
  | none => exact .fail _
  | some u =>
      have horg : (parseOptionalOrg org : Tx Unit (Option Uuid)).Uses allowed := by
        unfold parseOptionalOrg
        split
        · exact .done _
        · exact uses_map (uses_parseID _ _) _
      have hstmt : (parseOptionalOrg org >>= fun o =>
          stmt "" (.storeRefreshToken id u o tokenHash (timestamptz t)) :
            Tx Unit Unit).Uses allowed :=
        uses_bind horg fun o => uses_stmt (h u o _ hp)
      exact hstmt

theorem uses_requireAnotherActive {org : Uuid} (h : allowed (.countActiveOrganizationMembers org))
    (atStake : Bool) : (requireAnotherActive atStake org).Uses allowed := by
  unfold requireAnotherActive
  split
  · exact uses_bind (uses_stmt h) fun _ => uses_failIf _ _
  · exact .done _

theorem uses_joinInvite {userID : Uuid} {userText : String} {acceptedAt occurredAt : Time}
    (hevent : ∀ e, aboutOrg e → allowed (.insertOutboxEvent e))
    (hlock : ∀ org, allowed (.lockOrganization org))
    (haccept : ∀ id org, allowed (.acceptOrganizationInvite id org (timestamptz acceptedAt)))
    (hadd : ∀ org, allowed (.addActiveOrganizationMembership org userID)) (invite : Option Invite) :
    (joinInvite now userID userText acceptedAt occurredAt invite).Uses allowed := by
  cases invite with
  | none => exact .done _
  | some invite =>
      refine uses_bind (uses_parseID _ _) fun _ => ?_
      refine uses_bind (uses_parseID _ _) fun _ => ?_
      refine uses_bind (uses_stmtOne (hlock _)) fun _ => ?_
      exact uses_consumeInvite hevent (haccept _ _) (hadd _)

theorem uses_ownOrg {userID : Uuid} {userText : String} {occurredAt : Time}
    (hevent : ∀ e, aboutOrg e → allowed (.insertOutboxEvent e))
    (horg : ∀ id name c u, allowed (.createOrganization id name c u))
    (hadd : ∀ org, allowed (.addOrganizationMembership org userID .active))
    (org : Option Organization) : (ownOrg now userID userText occurredAt org).Uses allowed := by
  cases org with
  | none => exact .done _
  | some org =>
      refine uses_bind (uses_parseID _ _) fun _ => ?_
      refine uses_bind (uses_stmt (horg _ _ _ _)) fun _ => ?_
      refine uses_bind (uses_stmt (hadd _)) fun _ => ?_
      refine uses_emits fun e he => ?_
      rcases List.mem_pair.mp he with rfl | rfl
      · exact hevent _ trivial
      · exact hevent _ trivial

theorem uses_createSignupUser {user : User} {org : Option Organization} {invite : Option Invite}
    (hcreate : ∀ id, allowed (.createSignupUser id user.email user.passwordHash user.displayName
      user.status (if user.emailVerified then timestamptz acceptedAt else none)))
    (hevent : ∀ e, allowed (.insertOutboxEvent e))
    (hlock : ∀ org, allowed (.lockOrganization org))
    (haccept : ∀ id org, allowed (.acceptOrganizationInvite id org (timestamptz acceptedAt)))
    (hactive : ∀ org userID, allowed (.addActiveOrganizationMembership org userID))
    (horg : ∀ id name c u, allowed (.createOrganization id name c u))
    (hadd : ∀ org userID, allowed (.addOrganizationMembership org userID .active)) :
    (createSignupUser now user org invite acceptedAt).Uses allowed := by
  refine uses_bind (uses_parseID _ _) fun userID => ?_
  refine uses_bind (uses_stmt (hcreate _)) fun created => ?_
  split
  · exact .done _
  · refine uses_bind (uses_emitEvents hevent _ _) fun _ => ?_
    refine uses_bind
      (uses_joinInvite (fun e _ => hevent e) hlock haccept (fun org => hactive org userID) invite)
      fun _ => ?_
    exact uses_bind
      (uses_ownOrg (fun e _ => hevent e) horg (fun org => hadd org userID) org) fun _ =>
      .done _

theorem uses_rotateChallenge {challenge : Option OTPChallenge}
    (hdelete : ∀ identifier channel, allowed (.deleteChallengesForIdentifier identifier channel))
    (hupsert : ∀ ch, challenge = some ch → ∀ id e c,
      allowed (.upsertChallenge id ch.identifier ch.channel ch.codeHash e c)) :
    (rotateChallenge acceptedAt challenge).Uses allowed := by
  cases challenge with
  | none => exact .done _
  | some ch =>
      refine uses_bind (uses_stmt (hdelete _ _)) fun _ => ?_
      refine uses_bind (uses_parseID _ _) fun _ => ?_
      exact uses_stmt (hupsert ch rfl _ _ _)

theorem uses_activateByInvite {userID : String}
    (hverify : ∀ id, allowed (.verifySignupUser id (timestamptz acceptedAt)))
    (hevent : ∀ e, aboutOrg e → allowed (.insertOutboxEvent e))
    (hlock : ∀ org, allowed (.lockOrganization org))
    (haccept : ∀ id org, allowed (.acceptOrganizationInvite id org (timestamptz acceptedAt)))
    (hactive : ∀ org userID, allowed (.addActiveOrganizationMembership org userID))
    (invite : Option Invite) : (activateByInvite now userID acceptedAt invite).Uses allowed := by
  cases invite with
  | none => exact .done _
  | some invite =>
      refine uses_bind (uses_parseID _ _) fun _ => ?_
      refine uses_bind (uses_parseID _ _) fun _ => ?_
      refine uses_bind (uses_parseID _ _) fun _ => ?_
      refine uses_bind (uses_stmt (hverify _)) fun affected => ?_
      split
      · exact .fail _
      · refine uses_bind (uses_stmtOne (hlock _)) fun _ => ?_
        exact uses_consumeInvite hevent (haccept _ _) (hactive _ _)

theorem uses_reissuePendingSignup {user : User} {challenge : Option OTPChallenge}
    {invite : Option Invite}
    (hreissue : allowed (.reissueSignupUser user.email user.passwordHash user.displayName))
    (hdelete : ∀ identifier channel, allowed (.deleteChallengesForIdentifier identifier channel))
    (hupsert : ∀ ch, challenge = some ch → ∀ id e c,
      allowed (.upsertChallenge id ch.identifier ch.channel ch.codeHash e c))
    (hverify : ∀ id, allowed (.verifySignupUser id (timestamptz acceptedAt)))
    (hevent : ∀ e, aboutOrg e → allowed (.insertOutboxEvent e))
    (hlock : ∀ org, allowed (.lockOrganization org))
    (haccept : ∀ id org, allowed (.acceptOrganizationInvite id org (timestamptz acceptedAt)))
    (hactive : ∀ org userID, allowed (.addActiveOrganizationMembership org userID)) :
    (reissuePendingSignup now user challenge invite acceptedAt).Uses allowed := by
  refine uses_bind (.call hreissue fun _ => .done _) fun r => ?_
  cases r with
  | error e => cases e <;> exact .fail _
  | ok userID =>
      refine uses_bind (uses_rotateChallenge hdelete hupsert) fun _ => ?_
      exact uses_bind (uses_activateByInvite hverify hevent hlock haccept hactive invite)
        fun _ => .done _

theorem uses_createOrg {org : Organization} {creatorID : String}
    (horg : ∀ id name c u, allowed (.createOrganization id name c u))
    (hadd : ∀ org userID, allowed (.addOrganizationMembership org userID .active))
    (hevent : ∀ e, allowed (.insertOutboxEvent e)) :
    (createOrg now org creatorID).Uses allowed := by
  refine uses_bind (uses_parseID _ _) fun _ => ?_
  refine uses_bind (uses_parseID _ _) fun _ => ?_
  refine uses_bind (uses_stmt (horg _ _ _ _)) fun _ => ?_
  refine uses_bind (uses_stmt (hadd _ _)) fun _ => ?_
  exact uses_emitEvents hevent _ _

theorem uses_addMember {orgID userID : String} {status : MembershipStatus}
    (hlock : ∀ org, allowed (.lockOrganization org))
    (hget : ∀ org user, allowed (.getOrganizationMembership org user))
    (hadd : ∀ org user, allowed (.addOrganizationMembership org user status))
    (hevent : ∀ e, allowed (.insertOutboxEvent e)) :
    (addMember now orgID userID status).Uses allowed := by
  refine uses_bind (uses_membershipIDs _ _) fun _ => ?_
  refine uses_bind (uses_stmtOne (hlock _)) fun _ => ?_
  refine uses_bind (uses_getMembershipRow (hget _ _)) fun m => ?_
  cases m with
  | some m => exact .done _
  | none =>
      refine uses_bind (uses_stmt (hadd _ _)) fun _ => ?_
      exact uses_emitEvents hevent _ _

theorem uses_updateMemberStatus {orgID userID : String} {status : MembershipStatus}
    (hlock : ∀ org, allowed (.lockOrganization org))
    (hget : ∀ org user, allowed (.getOrganizationMembership org user))
    (hcount : ∀ org, allowed (.countActiveOrganizationMembers org))
    (hupdate : ∀ org user, allowed (.updateOrganizationMembershipStatus status org user))
    (hevent : ∀ e, allowed (.insertOutboxEvent e)) :
    (updateMemberStatus now orgID userID status).Uses allowed := by
  refine uses_bind (uses_membershipIDs _ _) fun _ => ?_
  refine uses_bind (uses_stmtOne (hlock _)) fun _ => ?_
  refine uses_bind (uses_getMembershipRow (hget _ _)) fun m => ?_
  cases m with
  | none => exact .fail _
  | some m =>
      refine uses_bind (uses_requireAnotherActive (hcount _) _) fun _ => ?_
      refine uses_bind (uses_stmt (hupdate _ _)) fun _ => ?_
      split
      · exact uses_emitEvents hevent _ _
      · exact .done _

theorem uses_removeMember {orgID userID : String} (hlock : ∀ org, allowed (.lockOrganization org))
    (hget : ∀ org user, allowed (.getOrganizationMembership org user))
    (hcount : ∀ org, allowed (.countActiveOrganizationMembers org))
    (hdelete : ∀ org user, allowed (.deleteOrganizationMembership org user))
    (hevent : ∀ e, allowed (.insertOutboxEvent e)) :
    (removeMember now orgID userID).Uses allowed := by
  refine uses_bind (uses_membershipIDs _ _) fun _ => ?_
  refine uses_bind (uses_stmtOne (hlock _)) fun _ => ?_
  refine uses_bind (uses_getMembershipRow (hget _ _)) fun m => ?_
  cases m with
  | none => exact .fail _
  | some m =>
      refine uses_bind (uses_requireAnotherActive (hcount _) _) fun _ => ?_
      refine uses_bind (uses_stmt (hdelete _ _)) fun _ => ?_
      exact uses_emitEvents hevent _ _

theorem uses_createInvite {invite : Invite} (hlock : ∀ org, allowed (.lockOrganization org))
    (hsupersede : ∀ org, allowed (.revokePendingOrganizationInvitesForEmail org invite.email))
    (hcreate : ∀ id org inviter, allowed (.createOrganizationInvite id org invite.email
      invite.tokenHash inviter invite.status (timestamptz invite.expiresAt)
      (timestamptz invite.createdAt))) : (createInvite invite).Uses allowed := by
  refine uses_bind (uses_parseID _ _) fun _ => ?_
  refine uses_bind (uses_parseID _ _) fun _ => ?_
  refine uses_bind (uses_parseID _ _) fun _ => ?_
  refine uses_bind (uses_stmtOne (hlock _)) fun _ => ?_
  exact uses_bind (uses_stmt (hsupersede _)) fun _ => uses_stmt (hcreate _ _ _)

theorem uses_refuseSuspended (hget : ∀ org user, allowed (.getOrganizationMembership org user))
    (org user : Uuid) : (refuseSuspended org user).Uses allowed := by
  refine uses_bind (uses_getMembershipRow (hget _ _)) fun m => ?_
  cases m with
  | none => exact .done _
  | some m => exact uses_failIf _ _

theorem uses_acceptInvite {inviteID orgID userID : String}
    (hlock : ∀ org, allowed (.lockOrganization org))
    (hget : ∀ org user, allowed (.getOrganizationMembership org user))
    (haccept : ∀ id org, allowed (.acceptOrganizationInvite id org (timestamptz acceptedAt)))
    (hactive : ∀ org user, allowed (.addActiveOrganizationMembership org user))
    (hevent : ∀ e, allowed (.insertOutboxEvent e)) :
    (acceptInvite now inviteID orgID userID acceptedAt).Uses allowed := by
  refine uses_bind (uses_inviteIDs _ _) fun _ => ?_
  refine uses_bind (uses_parseID _ _) fun _ => ?_
  refine uses_bind (uses_stmtOne (hlock _)) fun _ => ?_
  refine uses_bind (uses_refuseSuspended hget _ _) fun _ => ?_
  exact uses_consumeInvite (fun e _ => hevent e) (haccept _ _) (hactive _ _)

end Footprints

/-! ## Tables -/

/-- The tables a call can write. -/
def Op.writes : Op → List TableName
  | .upsertChallenge _ | .incrementAttempts _ | .consumeChallenge _ | .deleteExpiredChallenges =>
      [.challenges]
  | .createByEmail _ | .createByMobile _ | .upsertDemoUser _ _ _ _ => [.users, .outbox]
  | .updateLastLogin _ | .verifySignup _ _ => [.users]
  | .storeRefresh _ _ _ _ | .revoke _ => [.refreshTokens]
  | .createToken _ | .revokeToken _ _ => [.apiTokens]
  | .createOrg _ _ => [.orgs, .memberships, .outbox]
  | .addMember _ _ _ | .updateMemberStatus _ _ _ | .removeMember _ _ => [.memberships, .outbox]
  | .createInvite _ | .revokeInvite _ _ => [.invites]
  | .acceptInvite _ _ _ _ => [.invites, .memberships, .outbox]
  | .createSignupUser _ _ _ _ => [.users, .orgs, .memberships, .invites, .outbox]
  | .reissuePendingSignup _ _ _ _ => [.users, .challenges, .memberships, .invites, .outbox]
  | .purgeUnverifiedSignups _ => [.users, .memberships, .invites, .orgs]
  | _ => []

/-- Every statement of a call writes only tables of the call. -/
theorem body_writes (now : Time) (id : Uuid) (o : Op) :
    (o.body now id).Uses fun s : Sql => s.writes ⊆ o.writes := by
  cases o with
  | getLatestChallenge | deleteExpiredChallenges | findByEmail | findByMobile | findValid
  | revoke | findByPrefix => exact uses_stmt (by simp [Sql.writes, Op.writes])
  | findInviteByTokenHash => exact uses_stmtOne (by simp [Sql.writes])
  | upsertChallenge | incrementAttempts | consumeChallenge | updateLastLogin | listByUser
  | listOrgsForUser | listMembers | listInvites =>
      exact uses_bind (uses_parseID _ _) fun _ =>
        uses_stmt (by simp [Sql.writes, Op.writes])
  | findByID | getOrg =>
      exact uses_bind (uses_parseID _ _) fun _ => uses_stmtOne (by simp [Sql.writes])
  | createToken | revokeToken =>
      refine uses_bind (uses_parseID _ _) fun _ => ?_
      exact uses_bind (uses_parseID _ _) fun _ =>
        uses_stmt (by simp [Sql.writes, Op.writes])
  | createByEmail | createByMobile =>
      refine uses_bind (uses_stmt (by simp [Sql.writes, Op.writes])) fun _ => ?_
      exact uses_bind (uses_emitEvents (by simp [Sql.writes, Op.writes]) _ _) fun _ =>
        .done _
  | upsertDemoUser email mobile hash name =>
      refine uses_bind (.call ?_ fun r => ?_) fun created => ?_
      · unfold demoLookup
        split <;> simp [Sql.writes]
      · rcases r with e | v
        · cases e <;> first | exact .done _ | exact .fail _
        · exact .done _
      · refine uses_bind ?_ fun _ => ?_
        · unfold demoUpsert
          split <;> exact uses_stmt (by simp [Sql.writes, Op.writes])
        · split
          · exact uses_emitEvents (by simp [Sql.writes, Op.writes]) _ _
          · exact .done _
  | storeRefresh => exact uses_storeRefresh (by simp [Sql.writes, Op.writes])
  | verifySignup | revokeInvite =>
      refine uses_bind ?_ fun _ => ?_
      · first | exact uses_parseID _ _ | exact uses_inviteIDs _ _
      · exact uses_bind (uses_stmt (by simp [Sql.writes, Op.writes])) fun _ =>
          uses_failIf _ _
  | createOrg => apply uses_createOrg <;> simp [Sql.writes, Op.writes]
  | addMember => apply uses_addMember <;> simp [Sql.writes, Op.writes]
  | updateMemberStatus => apply uses_updateMemberStatus <;> simp [Sql.writes, Op.writes]
  | removeMember => apply uses_removeMember <;> simp [Sql.writes, Op.writes]
  | getMembership =>
      refine uses_bind (uses_membershipIDs _ _) fun _ => ?_
      refine uses_bind (uses_getMembershipRow (by simp [Sql.writes])) fun m => ?_
      cases m with
      | none => exact .fail _
      | some m => exact .done _
  | createInvite => apply uses_createInvite <;> simp [Sql.writes, Op.writes]
  | acceptInvite => apply uses_acceptInvite <;> simp [Sql.writes, Op.writes]
  | createSignupUser =>
      apply uses_createSignupUser <;> simp [Sql.writes, Op.writes]
  | reissuePendingSignup =>
      apply uses_reissuePendingSignup <;> simp [Sql.writes, Op.writes]
  | purgeUnverifiedSignups =>
      refine uses_bind (uses_stmt (by simp [Sql.writes, Op.writes])) fun _ => ?_
      exact uses_bind (uses_stmt (by simp [Sql.writes, Op.writes])) fun _ => .done _

/-! ## Accounts -/

/-- The statements with which a call writes accounts; `id` is the identifier it draws. -/
inductive WritesUsers (id : Uuid) : Op → Sql → Prop
  | createByEmail (email : String) :
      WritesUsers id (.createByEmail email) (.createUserWithEmail id email .active)
  | createByMobile (mobile : String) :
      WritesUsers id (.createByMobile mobile) (.createUserWithMobile id mobile)
  | updateLastLogin (userID : String) (u : Uuid) :
      WritesUsers id (.updateLastLogin userID) (.updateLastLogin u)
  | seedByMobile (mobile hash name : String) :
      WritesUsers id (.upsertDemoUser "" mobile hash name)
        (.upsertDemoUserByMobile id none (textPtr mobile) hash name)
  | seedByEmail (email mobile hash name : String) :
      WritesUsers id (.upsertDemoUser email mobile hash name)
        (.upsertDemoUserByEmail id (some email) (textPtr mobile) hash name)
  | createSignupUser (user : User) (org : Option Organization) (invite : Option Invite) (t : Time)
      (u : Uuid) :
      WritesUsers id (.createSignupUser user org invite t)
        (.createSignupUser u user.email user.passwordHash user.displayName user.status
          (if user.emailVerified then timestamptz t else none))
  | reissue (user : User) (challenge : Option OTPChallenge) (invite : Option Invite) (t : Time) :
      WritesUsers id (.reissuePendingSignup user challenge invite t)
        (.reissueSignupUser user.email user.passwordHash user.displayName)
  | activate (user : User) (challenge : Option OTPChallenge) (invite : Option Invite) (t : Time)
      (u : Uuid) :
      WritesUsers id (.reissuePendingSignup user challenge invite t)
        (.verifySignupUser u (timestamptz t))
  | verifySignup (userID : String) (t : Time) (u : Uuid) :
      WritesUsers id (.verifySignup userID t) (.verifySignupUser u (timestamptz t))
  | purge (before : Time) :
      WritesUsers id (.purgeUnverifiedSignups before) (.purgeUnverifiedSignups (timestamptz before))

/-- A call writes accounts with no other statements. -/
theorem body_users (now : Time) (id : Uuid) (o : Op) :
    (o.body now id).Uses fun s : Sql => TableName.users ∈ s.writes → WritesUsers id o s := by
  have hevents : ∀ {o : Op} (e : Event), TableName.users ∈ (Sql.insertOutboxEvent e).writes →
      WritesUsers id o (.insertOutboxEvent e) := by
    intro o e h
    simp [Sql.writes] at h
  cases o with
  | createByEmail email =>
      refine uses_bind (uses_stmt fun _ => .createByEmail email) fun _ => ?_
      exact uses_bind (uses_emitEvents hevents _ _) fun _ => .done _
  | createByMobile mobile =>
      refine uses_bind (uses_stmt fun _ => .createByMobile mobile) fun _ => ?_
      exact uses_bind (uses_emitEvents hevents _ _) fun _ => .done _
  | updateLastLogin userID =>
      exact uses_bind (uses_parseID _ _) fun u => uses_stmt fun _ => .updateLastLogin userID u
  | upsertDemoUser email mobile hash name =>
      refine uses_bind (.call ?_ fun r => ?_) fun created => ?_
      · unfold demoLookup
        split <;> simp [Sql.writes]
      · rcases r with e | v
        · cases e <;> first | exact .done _ | exact .fail _
        · exact .done _
      · refine uses_bind ?_ fun _ => ?_
        · unfold demoUpsert
          split
          · rename_i hemail
            subst hemail
            have hptr : textPtr "" = none := by simp [textPtr]
            rw [hptr]
            exact uses_stmt fun _ => .seedByMobile mobile hash name
          · rename_i hemail
            have hptr : textPtr email = some email := by simp [textPtr, hemail]
            rw [hptr]
            exact uses_stmt fun _ => .seedByEmail email mobile hash name
        · split
          · exact uses_emitEvents hevents _ _
          · exact .done _
  | createSignupUser user org invite t =>
      refine uses_createSignupUser (fun u _ => .createSignupUser user org invite t u) hevents
        ?_ ?_ ?_ ?_ ?_ <;> simp [Sql.writes]
  | reissuePendingSignup user challenge invite t =>
      refine uses_reissuePendingSignup (fun _ => .reissue user challenge invite t) ?_ ?_
        (fun u _ => .activate user challenge invite t u) (fun e _ => hevents e) ?_ ?_ ?_
        <;> simp [Sql.writes]
  | verifySignup userID t =>
      refine uses_bind (uses_parseID _ _) fun u => ?_
      exact uses_bind (uses_stmt fun _ => .verifySignup userID t u) fun _ => uses_failIf _ _
  | purgeUnverifiedSignups before =>
      refine uses_bind (uses_stmt fun _ => .purge before) fun _ => ?_
      exact uses_bind (uses_stmt (by simp [Sql.writes])) fun _ => .done _
  | _ =>
      refine uses_mono (fun s hs hmem => ?_) (body_writes now id _)
      exact absurd (hs hmem) (by simp [Op.writes])

/-! ## Memberships -/

/-- The statements with which a call writes memberships. -/
inductive WritesMemberships : Op → Sql → Prop
  | createOrg (org : Organization) (creatorID : String) (o u : Uuid) :
      WritesMemberships (.createOrg org creatorID) (.addOrganizationMembership o u .active)
  | addMember (orgID userID : String) (status : MembershipStatus) (o u : Uuid) :
      WritesMemberships (.addMember orgID userID status) (.addOrganizationMembership o u status)
  | updateMemberStatus (orgID userID : String) (status : MembershipStatus) (o u : Uuid) :
      WritesMemberships (.updateMemberStatus orgID userID status)
        (.updateOrganizationMembershipStatus status o u)
  | removeMember (orgID userID : String) (o u : Uuid) :
      WritesMemberships (.removeMember orgID userID) (.deleteOrganizationMembership o u)
  | acceptInvite (inviteID orgID userID : String) (t : Time) (o u : Uuid) :
      WritesMemberships (.acceptInvite inviteID orgID userID t)
        (.addActiveOrganizationMembership o u)
  | signupInvite (user : User) (org : Option Organization) (invite : Option Invite) (t : Time)
      (o u : Uuid) :
      WritesMemberships (.createSignupUser user org invite t) (.addActiveOrganizationMembership o u)
  | signupOrg (user : User) (org : Option Organization) (invite : Option Invite) (t : Time)
      (o u : Uuid) :
      WritesMemberships (.createSignupUser user org invite t)
        (.addOrganizationMembership o u .active)
  | reissue (user : User) (challenge : Option OTPChallenge) (invite : Option Invite) (t : Time)
      (o u : Uuid) :
      WritesMemberships (.reissuePendingSignup user challenge invite t)
        (.addActiveOrganizationMembership o u)
  | purge (before : Time) :
      WritesMemberships (.purgeUnverifiedSignups before)
        (.purgeUnverifiedSignups (timestamptz before))

/-- A call writes memberships with no other statements. -/
theorem body_memberships (now : Time) (id : Uuid) (o : Op) :
    (o.body now id).Uses fun s : Sql => TableName.memberships ∈ s.writes →
    WritesMemberships o s := by
  cases o with
  | createOrg org creatorID =>
      refine uses_createOrg ?_ (fun o u _ => .createOrg org creatorID o u) ?_ <;> simp [Sql.writes]
  | addMember orgID userID status =>
      refine uses_addMember ?_ ?_ (fun o u _ => .addMember orgID userID status o u) ?_
        <;> simp [Sql.writes]
  | updateMemberStatus orgID userID status =>
      refine uses_updateMemberStatus ?_ ?_ ?_
        (fun o u _ => .updateMemberStatus orgID userID status o u) ?_ <;> simp [Sql.writes]
  | removeMember orgID userID =>
      refine uses_removeMember ?_ ?_ ?_ (fun o u _ => .removeMember orgID userID o u) ?_
        <;> simp [Sql.writes]
  | acceptInvite inviteID orgID userID t =>
      refine uses_acceptInvite ?_ ?_ ?_ (fun o u _ => .acceptInvite inviteID orgID userID t o u) ?_
        <;> simp [Sql.writes]
  | createSignupUser user org invite t =>
      refine uses_createSignupUser ?_ ?_ ?_ ?_ (fun o u _ => .signupInvite user org invite t o u) ?_
        (fun o u _ => .signupOrg user org invite t o u) <;> simp [Sql.writes]
  | reissuePendingSignup user challenge invite t =>
      refine uses_reissuePendingSignup ?_ ?_ ?_ ?_ ?_ ?_ ?_
        (fun o u _ => .reissue user challenge invite t o u) <;> simp [Sql.writes]
  | purgeUnverifiedSignups before =>
      refine uses_bind (uses_stmt fun _ => .purge before) fun _ => ?_
      exact uses_bind (uses_stmt (by simp [Sql.writes])) fun _ => .done _
  | _ =>
      refine uses_mono (fun s hs hmem => ?_) (body_writes now id _)
      exact absurd (hs hmem) (by simp [Op.writes])

/-! ## Invitations -/

/-- The statements with which a call writes invitations. -/
inductive WritesInvites : Op → Sql → Prop
  | supersede (invite : Invite) (o : Uuid) :
      WritesInvites (.createInvite invite)
        (.revokePendingOrganizationInvitesForEmail o invite.email)
  | create (invite : Invite) (i o u : Uuid) :
      WritesInvites (.createInvite invite) (.createOrganizationInvite i o invite.email
        invite.tokenHash u invite.status (timestamptz invite.expiresAt)
        (timestamptz invite.createdAt))
  | revoke (orgID inviteID : String) (i o : Uuid) :
      WritesInvites (.revokeInvite orgID inviteID) (.revokeOrganizationInvite i o)
  | accept (inviteID orgID userID : String) (t : Time) (i o : Uuid) :
      WritesInvites (.acceptInvite inviteID orgID userID t)
        (.acceptOrganizationInvite i o (timestamptz t))
  | signup (user : User) (org : Option Organization) (invite : Option Invite) (t : Time)
      (i o : Uuid) :
      WritesInvites (.createSignupUser user org invite t)
        (.acceptOrganizationInvite i o (timestamptz t))
  | reissue (user : User) (challenge : Option OTPChallenge) (invite : Option Invite) (t : Time)
      (i o : Uuid) :
      WritesInvites (.reissuePendingSignup user challenge invite t)
        (.acceptOrganizationInvite i o (timestamptz t))
  | purge (before : Time) :
      WritesInvites (.purgeUnverifiedSignups before) (.purgeUnverifiedSignups (timestamptz before))
  | desert (before : Time) :
      WritesInvites (.purgeUnverifiedSignups before) .deleteEmptyOrganizations

/-- A call writes invitations with no other statements. -/
theorem body_invites (now : Time) (id : Uuid) (o : Op) :
    (o.body now id).Uses fun s : Sql => TableName.invites ∈ s.writes → WritesInvites o s := by
  cases o with
  | createInvite invite =>
      refine uses_createInvite ?_ (fun o _ => .supersede invite o)
        (fun i o u _ => .create invite i o u)
      simp [Sql.writes]
  | revokeInvite orgID inviteID =>
      refine uses_bind (uses_inviteIDs _ _) fun _ => ?_
      exact uses_bind (uses_stmt fun _ => .revoke orgID inviteID _ _) fun _ => uses_failIf _ _
  | acceptInvite inviteID orgID userID t =>
      refine uses_acceptInvite ?_ ?_ (fun i o _ => .accept inviteID orgID userID t i o) ?_ ?_
        <;> simp [Sql.writes]
  | createSignupUser user org invite t =>
      refine uses_createSignupUser ?_ ?_ ?_ (fun i o _ => .signup user org invite t i o) ?_ ?_ ?_
        <;> simp [Sql.writes]
  | reissuePendingSignup user challenge invite t =>
      refine uses_reissuePendingSignup ?_ ?_ ?_ ?_ ?_ ?_
        (fun i o _ => .reissue user challenge invite t i o) ?_ <;> simp [Sql.writes]
  | purgeUnverifiedSignups before =>
      refine uses_bind (uses_stmt fun _ => .purge before) fun _ => ?_
      exact uses_bind (uses_stmt fun _ => .desert before) fun _ => .done _
  | _ =>
      refine uses_mono (fun s hs hmem => ?_) (body_writes now id _)
      exact absurd (hs hmem) (by simp [Op.writes])

end Store
end Postgres
end OrbitAuth
