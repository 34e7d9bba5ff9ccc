import OrbitAuth.Safety.Invitations

/-!
# Acceptance — when does `AcceptInvite` succeed?

The decision is made in three places: the checks of the use case, the locked check of the store and
two conditional statements.  Alone and without failures they amount to one condition, `Acceptable`,
on the state in which the call starts and the instant at which it reads the clock.

* `acceptInvite_outcome` — one call, from any state that keeps the constraints of the schema: it
  uses the invitation, or answers with the generic error and changes nothing;
* `genuine_run` — no stored invitation belongs to a blank token or to a blank address;
* `acceptInvite_exact` — in reachable states the condition alone decides.
-/

namespace OrbitAuth
namespace Service
namespace Acceptance

open Domain Foundations Postgres

/-- At `t` the invitation is open to the account: it was sent to the account's verified address, and
the account is not suspended where it is invited. -/
structure Redeemable (cfg : Config) (db : DB) (t : Time) (user : Uuid) (i : InviteRow) : Prop where
  stored : i ∈ db.invites
  pending : i.status = .pending
  unexpired : t < i.expiresAt
  recipient : ∃ r ∈ db.users, r.id = user ∧ r.status = .active ∧ r.emailVerifiedAt.isSome = true ∧
    ∃ email, r.email = some email ∧ equalFold cfg.env.foldRune email i.email = true
  notSuspended : ∀ m ∈ db.memberships, m.orgID = i.orgID → m.userID = user → m.status ≠ .suspended

/-- The presented token is that of an invitation open to the account. -/
structure Acceptable (cfg : Config) (db : DB) (t : Time) (user : Uuid) (token : String)
    (i : InviteRow) : Prop extends Redeemable cfg db t user i where
  hash : i.tokenHash = cfg.env.hashInviteToken (trimSpace token)

/-- The invitation is accepted and the account is an active member. -/
def Joined (db : DB) (user : Uuid) (i : InviteRow) : Prop :=
  (∃ i' ∈ db.invites, i'.id = i.id ∧ i'.orgID = i.orgID ∧ i'.status = .accepted) ∧
    ∃ m ∈ db.memberships, m.orgID = i.orgID ∧ m.userID = user ∧ m.status = .active

/-! ## One call -/

section Call

variable {cfg : Config} {w : World} {userID : String} {user : Uuid} {cs : Nat → Choice}

theorem equalFold_empty (fold : Char → Char → Bool) {s : String} (h : equalFold fold "" s = true) :
    s = "" := by
  have hlength : s.toList.length = 0 := by
    simp only [equalFold, Bool.and_eq_true, beq_iff_eq] at h
    exact h.1.symm
  exact String.toList_eq_nil_iff.mp (List.length_eq_zero_iff.mp hlength)

/-- What the use case asks of the recipient. -/
theorem matches_iff {r : UserRow} {inviteEmail : String} (hemail : inviteEmail ≠ "") :
    inviteRecipientMatches cfg r.user inviteEmail = true ↔
      r.status = .active ∧ r.emailVerifiedAt.isSome = true ∧
        ∃ email, r.email = some email ∧ equalFold cfg.env.foldRune email inviteEmail = true := by
  unfold inviteRecipientMatches
  simp only [Bool.and_eq_true, decide_eq_true_eq, ne_eq]
  constructor
  · rintro ⟨⟨⟨hsome, hverified⟩, hactive⟩, hfold⟩
    cases hrow : r.email with
    | none =>
        have hblank : r.user.email = "" := by simp [UserRow.user, hrow]
        exact absurd hblank hsome
    | some email =>
        have haddress : r.user.email = email := by simp [UserRow.user, hrow]
        exact ⟨hactive, hverified, email, rfl, haddress ▸ hfold⟩
  · rintro ⟨hactive, hverified, email, hrow, hfold⟩
    have haddress : r.user.email = email := by simp [UserRow.user, hrow]
    rw [haddress]
    refine ⟨⟨⟨?_, hverified⟩, hactive⟩, hfold⟩
    -- an account without an address matches no address
    rintro rfl
    exact hemail (equalFold_empty _ hfold)

/-- The store's part, for a pending invitation and an account that exists. -/
theorem exec_acceptInvite_cases (now t : Time) (id : Uuid) (pick : Nat) {db : DB}
    (hdb : db.Integrity) (huser : Uuid.parse userID = some user) {i : InviteRow}
    (hi : i ∈ db.invites) (hpending : i.status = .pending) {r : UserRow} (hr : r ∈ db.users)
    (hid : r.id = user) :
    ((∀ m ∈ db.memberships, m.orgID = i.orgID → m.userID = user → m.status ≠ .suspended) ∧
      ∃ db', (Store.Op.acceptInvite i.invite.id i.invite.orgID userID t).exec cfg.env
        now id pick db =
        (.ok (), db') ∧ Joined db' user i) ∨
    (∃ m ∈ db.memberships, m.orgID = i.orgID ∧ m.userID = user ∧ m.status = .suspended) ∧
      (Store.Op.acceptInvite i.invite.id i.invite.orgID userID t).exec cfg.env now id pick db =
        (.error .invalidInvite, db) := by
  have hiid : Uuid.parse i.invite.id = some i.id := Uuid.parse_string i.id
  have hiorg : Uuid.parse i.invite.orgID = some i.orgID := Uuid.parse_string i.orgID
  have hexists : ∃ o ∈ db.orgs, o.id = i.orgID := hdb.inviteOrg i hi
  by_cases hfree : Store.NotSuspended db i.orgID user
  · refine .inl ⟨?_, ?_⟩
    · intro m hm horg huser'
      have hkey : (m.orgID, m.userID) = (i.orgID, user) := Prod.ext horg huser'
      exact hfree m (find?_eq_some.mpr ⟨hm, hkey⟩)
    -- the invitation is open and the account exists, so the transaction commits
    · have hopen := Store.open_of_pending hi hpending
      have hadmits : Store.Admits db i.orgID user := .inr ⟨hexists, r, hr, hid⟩
      have hcommits : Store.Commits cfg.env now pick
          (Store.acceptInvite now i.invite.id i.invite.orgID userID t) db () _ :=
        Store.commits_acceptInvite.mpr
          ⟨i.id, i.orgID, user, hiid, hiorg, huser, hexists, hfree, hopen, hadmits, rfl⟩
      exact ⟨_, Store.exec_of_commits hcommits, Invitations.accepted_of_open hopen,
        Invitations.active_of_joined hfree⟩
  -- a suspended member is refused before anything is written
  · obtain ⟨m, hm, hstatus⟩ : ∃ m, db.memberships.find? (i.orgID, user) = some m ∧
        m.status = .suspended := by
      simpa [Store.NotSuspended] using hfree
    obtain ⟨hmem, hkey⟩ := find?_eq_some.mp hm
    obtain ⟨horg, huser'⟩ := Prod.mk.inj hkey
    exact .inr ⟨⟨m, hmem, horg, huser', hstatus⟩,
      Store.exec_acceptInvite_suspended hiid hiorg huser hexists hm hstatus⟩

/-- What is left to do once the invitation is found. -/
def acceptFound (cfg : Config) (userID : String) (invite : Invite) : Action Invite := do
  let t ← now
  failIf (invite.status ≠ .pending || invite.expiresAt ≤ t) .invalidInvite
  let user ← storeMapping .userNotFound .invalidInvite (.findByID userID)
  failIf (!inviteRecipientMatches cfg user invite.email) .invalidInvite
  storeMapping .inviteNotFound .invalidInvite (.acceptInvite invite.id invite.orgID userID t)
  pure { invite with status := .accepted, acceptedAt := some t, tokenHash := "" }

theorem acceptInvite_eq (cfg : Config) (userID token : String) :
    acceptInvite cfg userID token =
      (failIf (trimSpace userID = "" || trimSpace token = "") .invalidInvite).bind fun _ =>
        (storeMapping .inviteNotFound .invalidInvite
          (.findInviteByTokenHash (cfg.env.hashInviteToken (trimSpace token)))).bind
            (acceptFound cfg (trimSpace userID)) := rfl

theorem stale_iff {i : InviteRow} {t : Time} :
    (decide (i.invite.status ≠ .pending) || decide (i.invite.expiresAt ≤ t)) = true ↔
      ¬ (i.status = .pending ∧ t < i.expiresAt) := by
  rw [Bool.or_eq_true, decide_eq_true_iff, decide_eq_true_iff, not_and_or, not_lt]
  exact Iff.rfl

theorem acceptFound_outcome (hdb : w.db.Integrity) {i : InviteRow} (hi : i ∈ w.db.invites)
    (hemail : i.email ≠ "") (huser : Uuid.parse userID = some user)
    (hcs : ∀ n, (cs n).fails = false) :
    let out := (acceptFound cfg userID i.invite).run (exec cfg.env) cs w
    let t := max w.now (cs 0).now
    (Redeemable cfg w.db t user i ∧ (∃ invite, out.1 = .ok invite) ∧ Joined out.2.db user i) ∨
      ¬ Redeemable cfg w.db t user i ∧ out.1 = .error .invalidInvite ∧ out.2.db = w.db := by
  intro out t
  have hrun : out = (acceptFound cfg userID i.invite).run (exec cfg.env) cs w := rfl
  simp only [acceptFound, Program.bind_eq, Program.pure_eq, run_now, run_failIf] at hrun
  by_cases hopen : i.status = .pending ∧ t < i.expiresAt
  · rw [if_neg (mt stale_iff.mp (not_not.mpr hopen))] at hrun
    have hlookup : (Store.Op.findByID userID).exec cfg.env
        (max (w.advance (cs 0).now).now (cs 1).now) (cs 1).id (cs 1).pick w.db = _ :=
      Store.exec_findByID huser
    cases hfind : w.db.users.find? user with
    | none =>
        rw [hfind] at hlookup
        replace hrun := hrun.trans (run_storeMapping_error cfg.env _ _ (hcs 1) hlookup _)
        rw [hrun]
        -- a recipient has an account
        refine .inr ⟨?_, rfl, rfl⟩
        intro hred
        obtain ⟨r, hr, hid, _⟩ := hred.recipient
        exact find?_eq_none.mp hfind r hr hid
    | some r =>
        rw [hfind] at hlookup
        obtain ⟨hr, hid⟩ := find?_eq_some.mp hfind
        replace hrun := hrun.trans (run_storeMapping_ok cfg.env _ _ (hcs 1) hlookup _)
        rw [run_failIf] at hrun
        by_cases hmatch : inviteRecipientMatches cfg r.user i.email = true
        · have haddress := (matches_iff hemail).mp hmatch
          rw [if_neg (by simpa [InviteRow.invite, InviteRow.listed] using hmatch)] at hrun
          -- the invitation is still pending in the transaction, so only a suspended member is
          -- refused there
          let w₂ := (w.advance (cs 0).now).advance (cs 1).now
          rcases exec_acceptInvite_cases (max w₂.now (cs 2).now) t (cs 2).id
              (cs 2).pick hdb huser hi hopen.1 hr hid with
            ⟨hfree, db', hx, hjoined⟩ | ⟨⟨m, hm, horg, hmuser, hstatus⟩, hx⟩
          · replace hrun :=
              hrun.trans (run_storeMapping_ok cfg.env (fun n => cs (n + 2)) w₂ (hcs 2) hx _)
            rw [hrun]
            exact .inl ⟨⟨hi, hopen.1, hopen.2, ⟨r, hr, hid, haddress⟩, hfree⟩, ⟨_, rfl⟩, hjoined⟩
          · replace hrun := hrun.trans
              (run_storeMapping_error cfg.env (fun n => cs (n + 2)) w₂ (hcs 2) hx _)
            rw [hrun]
            exact .inr ⟨fun hred => hred.notSuspended m hm horg hmuser hstatus, rfl, rfl⟩
        · rw [if_pos (by simpa [InviteRow.invite, InviteRow.listed] using hmatch)] at hrun
          rw [hrun]
          -- the identifier names one account, and its address is another one
          refine .inr ⟨?_, rfl, rfl⟩
          intro hred
          obtain ⟨r', hr', hid', haddress⟩ := hred.recipient
          have hsame : r' = r := eq_of_key hr' hr (hid'.trans hid.symm)
          exact hmatch ((matches_iff hemail).mpr (hsame ▸ haddress))
  · rw [if_pos (stale_iff.mpr hopen)] at hrun
    rw [hrun]
    exact .inr ⟨fun hred => hopen ⟨hred.pending, hred.unexpired⟩, rfl, rfl⟩

variable (cfg) in
/-- One call that nothing disturbs. -/
theorem acceptInvite_outcome (token : String) (hdb : w.db.Integrity)
    (hemails : ∀ i ∈ w.db.invites, i.email ≠ "") (huser : Uuid.parse (trimSpace userID) = some user)
    (hcs : ∀ n, (cs n).fails = false) :
    let out := (Call.acceptInvite userID token).perform cfg cs w
    let t := max (max w.now (cs 0).now) (cs 1).now
    (trimSpace token ≠ "" ∧ ∃ i, Acceptable cfg w.db t user token i ∧
        (∃ reply, out.1 = .ok reply) ∧ Joined out.2.db user i) ∨
      (trimSpace token = "" ∨ ∀ i, ¬ Acceptable cfg w.db t user token i) ∧
        out.1 = .error .invalidInvite ∧ out.2.db = w.db := by
  intro out t
  have hrun : out = ((Service.acceptInvite cfg userID token).bind fun i => .done (.invite i)).run
      (exec cfg.env) cs w := rfl
  have hnamed : trimSpace userID ≠ "" := Uuid.ne_empty_of_parse huser
  simp only [acceptInvite_eq, Program.bind_assoc, run_failIf] at hrun
  by_cases hblank : trimSpace token = ""
  · rw [if_pos (by simp [hblank])] at hrun
    rw [hrun]
    exact .inr ⟨.inl hblank, rfl, rfl⟩
  rw [if_neg (by simp [hnamed, hblank])] at hrun
  have hlookup :
      (Store.Op.findInviteByTokenHash (cfg.env.hashInviteToken (trimSpace token))).exec cfg.env
        (max w.now (cs 0).now) (cs 0).id (cs 0).pick w.db = _ := Store.exec_findInviteByTokenHash _
  cases hfind : w.db.invites.rows.find? fun r => r.tokenHash =
    cfg.env.hashInviteToken (trimSpace token) with
  | none =>
      rw [hfind] at hlookup
      replace hrun := hrun.trans (run_storeMapping_error cfg.env cs w (hcs 0) hlookup _)
      rw [hrun]
      refine .inr ⟨.inr ?_, rfl, rfl⟩
      intro i hi
      have hnone := List.find?_eq_none.mp hfind i hi.stored
      exact hnone (by simp [hi.hash])
  | some i =>
      rw [hfind] at hlookup
      have hi : i ∈ w.db.invites := List.mem_of_find?_eq_some hfind
      have hhash : i.tokenHash = cfg.env.hashInviteToken (trimSpace token) := by
        simpa using List.find?_some hfind
      replace hrun := hrun.trans (run_storeMapping_ok cfg.env cs w (hcs 0) hlookup _)
      rcases acceptFound_outcome (w := w.advance (cs 0).now) hdb hi (hemails i hi) huser
          (fun n => hcs (n + 1)) with ⟨hred, ⟨invite, hok⟩, hjoined⟩ | ⟨hred, herror, hsame⟩
      · obtain ⟨n, hn⟩ := Program.run_bind_ok (f := fun i => .done (Reply.invite i))
          (Prod.ext hok rfl)
        replace hrun := hrun.trans hn
        rw [hrun]
        exact .inl ⟨hblank, i, ⟨hred, hhash⟩, ⟨_, rfl⟩, hjoined⟩
      · replace hrun := hrun.trans (Program.run_bind_error (Prod.ext herror rfl))
        rw [hrun]
        refine .inr ⟨.inr fun i' hi' => hred ?_, rfl, hsame⟩
        -- a token belongs to one invitation
        have hsame : i' = i := hdb.inviteToken i' hi'.stored i hi (hi'.hash.trans hhash.symm)
        exact hsame ▸ hi'.toRedeemable

end Call

/-! ## Reachable states -/

/-- The invitation has the hash of a real token and an address. -/
def Addressed (env : Env) (tokenHash email : String) : Prop :=
  tokenHash ≠ env.hashInviteToken "" ∧ email ≠ ""

def Genuine (env : Env) (db : DB) : Prop :=
  ∀ i ∈ db.invites, Addressed env i.tokenHash i.email

section Runs

variable {cfg : Config}

/-- Where an invitation's token and address come from. -/
theorem invite_source {env : Env} (now : Time) (id : Uuid) (pick : Nat) (o : Store.Op) (db : DB) :
    ∀ i' ∈ (o.exec env now id pick db).2.invites,
      (∃ i ∈ db.invites, i.tokenHash = i'.tokenHash ∧ i.email = i'.email) ∨
        ∃ invite, o = .createInvite invite ∧ i'.tokenHash = invite.tokenHash ∧
          i'.email = invite.email := by
  refine Store.exec_rel
    (R := fun db db' => ∀ i' ∈ db'.invites,
      (∃ i ∈ db.invites, i.tokenHash = i'.tokenHash ∧ i.email = i'.email) ∨
        ∃ invite, o = .createInvite invite ∧ i'.tokenHash = invite.tokenHash ∧
          i'.email = invite.email) ?_ ?_ ?_ (Store.body_invites now id o) pick db
  · intro db i hi
    exact .inl ⟨i, hi, rfl, rfl⟩
  -- two statements in a row: the origin is followed back through both
  · intro db₁ db₂ db₃ h₁₂ h₂₃ i₃ hi₃
    rcases h₂₃ i₃ hi₃ with ⟨i₂, hi₂, hhash, hemail⟩ | hnew
    · rcases h₁₂ i₂ hi₂ with ⟨i₁, hi₁, hhash', hemail'⟩ | ⟨invite, ho, hhash', hemail'⟩
      · exact .inl ⟨i₁, hi₁, hhash'.trans hhash, hemail'.trans hemail⟩
      · exact .inr ⟨invite, ho, hhash.symm.trans hhash', hemail.symm.trans hemail'⟩
    · exact .inr hnew
  · intro s pick db v ws hs heval i hi
    rcases invite_origin heval hi with ⟨i', hi', hsame⟩ | ⟨⟨expires, created, rfl⟩, _⟩
    · exact .inl ⟨i', hi', by rw [hsame], by rw [hsame]⟩
    · have hwrites := hs (by simp [Sql.writes])
      -- only the creating call inserts an invitation, and it inserts the one it was given
      generalize hinsert : Sql.createOrganizationInvite i.id i.orgID i.email i.tokenHash i.inviterID
        i.status expires created = s at hwrites
      cases hwrites with
      | create invite =>
          injection hinsert with _ _ hemail hhash
          exact .inr ⟨invite, rfl, hhash, hemail⟩
      | _ => cases hinsert

/-- A drawn secret has another hash than the blank token. -/
def Drawn (env : Env) : (o : Port) → o.Ans → Prop
  | .newSecret, .ok secret => env.hashInviteToken secret ≠ env.hashInviteToken ""
  | _, _ => True

/-- Invitations are stored only with the hash of a drawn secret and an address. -/
def Sends (env : Env) : Port → Prop
  | .store (.createInvite invite) => Addressed env invite.tokenHash invite.email
  | _ => True

theorem sends_plain {env : Env} (o : Port) (h : o.plain = true) : Sends env o := by
  cases o with
  | store o => cases o <;> trivial
  | _ => trivial

theorem inviteMember_makes (orgID inviterID email : String) :
    (inviteMember cfg orgID inviterID email).Makes (Drawn cfg.env)
    (Sends cfg.env) fun _ => True := by
  have hfree : ∀ {α : Type} {p : Action α}, p.Uses (Sends cfg.env) →
      p.Makes (Drawn cfg.env) (Sends cfg.env) fun _ => True := makes_of_uses
  refine makes_bind (hfree (uses_failIf _ _)) fun _ _ => ?_
  -- what passes the check has an at sign, so it is not blank
  have haddress : (failIf (!isEmail (cfg.env.normalizeEmail email)) .invalidEmail).Makes
      (Drawn cfg.env) (Sends cfg.env) fun _ => cfg.env.normalizeEmail email ≠ "" := by
    cases hemail : isEmail (cfg.env.normalizeEmail email) with
    | false => exact .fail _
    | true =>
        refine .done ?_
        intro hblank
        rw [hblank] at hemail
        exact absurd hemail (by decide)
  refine makes_bind haddress fun _ hemail => ?_
  refine makes_bind (hfree (uses_requireActiveMember sends_plain _ _)) fun _ _ => ?_
  refine makes_bind (hfree (uses_store trivial)) fun org _ => ?_
  refine makes_bind (hfree (uses_store trivial)) fun inviter _ => ?_
  -- what is drawn is not blank by the assumption on the answers
  have hsecret : newSecret.Makes (Drawn cfg.env) (Sends cfg.env)
      fun token => cfg.env.hashInviteToken token ≠ cfg.env.hashInviteToken "" := by
    refine .call trivial fun r hr => ?_
    cases r with
    | ok token => exact .done hr
    | error e => exact .fail e
  refine makes_bind hsecret fun token htoken => ?_
  refine makes_bind (hfree (uses_now trivial)) fun t _ => ?_
  refine makes_bind (hfree (uses_newID trivial)) fun id _ => ?_
  refine makes_bind (hfree (uses_store ⟨htoken, hemail⟩)) fun _ _ => ?_
  exact makes_bind (hfree (uses_sendInvite sends_plain (fun _ _ => trivial) _ _ _))
    fun _ _ => .done trivial

/-- No other call stores invitations. -/
theorem call_sends (call : Call) :
    (call.program cfg).Makes (Drawn cfg.env) (Sends cfg.env) fun _ => True := by
  have hother : ∀ {α : Type} {p : Action α} {f : α → Reply}, p.Uses (Sends cfg.env) →
      (f <$> p).Makes (Drawn cfg.env) (Sends cfg.env) fun _ => True :=
    fun hp => makes_map (makes_of_uses hp)
  cases call with
  | inviteMember orgID inviterID email => exact makes_map (inviteMember_makes _ _ _)
  | requestOTP => exact hother (uses_requestOTP sends_plain (fun _ => trivial) _ _ _)
  | verifyOTP =>
      exact hother (uses_verifyOTP (silent_of_plain sends_plain) (fun _ _ => trivial)
        (fun _ => trivial) (fun _ => trivial) (fun _ => trivial)
        (fun _ _ _ => trivial) fun _ _ _ _ => trivial)
  | loginWithPassword =>
      exact hother (uses_loginWithPassword sends_plain (fun _ => trivial) (fun _ _ _ => trivial)
        fun _ _ _ _ => trivial)
  | refresh =>
      exact hother (uses_refresh sends_plain (fun _ => trivial) (fun _ _ _ => trivial)
        fun _ _ _ _ => trivial)
  | selectOrg =>
      exact hother (uses_selectOrg sends_plain (fun _ => trivial) (fun _ _ _ => trivial)
        fun _ _ _ _ => trivial)
  | registerWithEmail =>
      exact hother (uses_registerWithEmail sends_plain (fun _ => trivial) (fun _ => trivial)
        (fun _ _ _ _ => trivial) fun _ _ _ _ => trivial)
  | verifySignup =>
      exact hother (uses_verifySignup (silent_of_plain sends_plain) (fun _ => trivial)
        (fun _ => trivial) (fun _ _ => trivial) (fun _ _ _ => trivial) fun _ _ _ _ => trivial)
  | purgeUnverifiedSignups before =>
      exact hother (uses_bind (uses_failIf _ _) fun _ => uses_store trivial)
  | createApiToken => exact hother (uses_createApiToken sends_plain fun _ => trivial)
  | listApiTokens => exact hother (uses_listApiTokens sends_plain _)
  | revokeApiToken => exact hother (uses_revokeApiToken fun _ _ => trivial)
  | validateApiToken => exact hother (uses_validateApiToken sends_plain _)
  | seedDemoUsers => exact hother (uses_seedDemoUsers sends_plain fun _ _ _ _ => trivial)
  | createOrg => exact hother (uses_createOrg sends_plain fun _ _ => trivial)
  | listOrgsForUser => exact hother (uses_listOrgsForUser sends_plain _)
  | listMembers => exact hother (uses_listMembers sends_plain _)
  | addMember => exact hother (uses_addMember sends_plain fun _ _ _ => trivial)
  | suspendMember => exact hother (uses_suspendMember sends_plain fun _ _ _ => trivial)
  | removeMember => exact hother (uses_removeMember sends_plain fun _ _ => trivial)
  | acceptInvite => exact hother (uses_acceptInvite sends_plain fun _ _ _ _ => trivial)
  | revokeInvite => exact hother (uses_revokeInvite sends_plain fun _ _ => trivial)
  | listInvites => exact hother (uses_listInvites sends_plain _)

/-- Along every run whose secrets are not blank, invitations are genuine. -/
theorem genuine_run {w : World} {calls : List Call} {sched : Schedule} (hw : Genuine cfg.env w.db)
    (hsecrets : ∀ step ∈ sched, cfg.env.hashInviteToken step.2.secret ≠
      cfg.env.hashInviteToken "") :
    Genuine cfg.env (runOn cfg (serve cfg w calls) sched).world.db := by
  have hok : Pool.Along (exec cfg.env)
      (fun _ _ c => cfg.env.hashInviteToken c.secret ≠ cfg.env.hashInviteToken "")
      (serve cfg w calls)
      sched := Pool.along_of_forall sched hsecrets _
  refine (Pool.run_makes _ (Drawn cfg.env) (fun _ => Sends cfg.env) (fun w => Genuine cfg.env w.db)
    ?_ ?_ hw sched hok).1
  · intro p i c o hc _ hgenuine hsends
    refine ⟨?_, ?_⟩
    · cases o with
      | newSecret =>
          cases hf : c.fails with
          | true => simp [exec, answer, attempt, hf, Drawn]
          | false => simpa [exec, answer, attempt, hf, Drawn] using hc
      | _ => trivial
    -- rows keep their hash and address, and a new one has them from the call
    · refine exec_db_rel (R := fun db db' => Genuine cfg.env db → Genuine cfg.env db')
        (fun _ h => h) ?_ c hgenuine
      rintro o' rfl now id pick hdb i hi
      rcases invite_source now id pick o' p.world.db i hi with
        ⟨i', hi', hhash, hemail⟩ | ⟨invite, rfl, hhash, hemail⟩
      · exact hhash ▸ hemail ▸ hdb i' hi'
      · exact hhash ▸ hemail ▸ hsends
  · intro i q hq
    rw [List.getElem?_map, Option.map_eq_some_iff] at hq
    obtain ⟨call, _, rfl⟩ := hq
    exact call_sends call

/-- `AcceptInvite` succeeds exactly on the token of an invitation open to the account.  Then the
account has joined; otherwise the answer is the one generic error and nothing has changed. -/
theorem acceptInvite_exact (cfg : Config) {w₀ : World} (hempty : w₀.db = DB.empty)
    (calls : List Call) {sched : Schedule}
    (hsecrets : ∀ step ∈ sched, cfg.env.hashInviteToken step.2.secret ≠ cfg.env.hashInviteToken "")
    {userID : String} {user : Uuid} (huser : Uuid.parse (trimSpace userID) = some user)
    (token : String) {cs : Nat → Choice} (hcs : ∀ n, (cs n).fails = false) :
    let w := (runOn cfg (serve cfg w₀ calls) sched).world
    let out := (Call.acceptInvite userID token).perform cfg cs w
    let t := max (max w.now (cs 0).now) (cs 1).now
    ((∃ reply, out.1 = .ok reply) ↔ ∃ i, Acceptable cfg w.db t user token i) ∧
      ((∃ reply, out.1 = .ok reply) → ∃ i ∈ w.db.invites,
        i.tokenHash = cfg.env.hashInviteToken (trimSpace token) ∧ Joined out.2.db user i) ∧
      ∀ e, out.1 = .error e → e = .invalidInvite ∧ out.2.db = w.db := by
  intro w
  have hdb : w.db.Integrity := serve_integrity cfg calls (hempty ▸ DB.integrity_empty) sched
  have hgenuine : Genuine cfg.env w.db := by
    refine genuine_run ?_ hsecrets
    rw [hempty]
    intro i hi
    exact absurd hi (not_mem_empty i)
  have houtcome := acceptInvite_outcome cfg token hdb (fun i hi => (hgenuine i hi).2) huser hcs
  dsimp only at houtcome ⊢
  generalize (Call.acceptInvite userID token).perform cfg cs w = out at houtcome ⊢
  generalize max (max w.now (cs 0).now) (cs 1).now = t at houtcome ⊢
  rcases houtcome with
    ⟨_, i, hi, ⟨reply, hok⟩, hjoined⟩ | ⟨hno, herror, hsame⟩
  · refine ⟨⟨fun _ => ⟨i, hi⟩, fun _ => ⟨reply, hok⟩⟩,
      fun _ => ⟨i, hi.stored, hi.hash, hjoined⟩, ?_⟩
    intro e he
    exact nomatch hok.symm.trans he
  · have hnone : ¬ ∃ i, Acceptable cfg w.db t user token i := by
      rintro ⟨i, hi⟩
      rcases hno with hblank | hno
      · -- the blank token is nobody's
        have hhash := hi.hash
        rw [hblank] at hhash
        exact (hgenuine i hi.stored).1 hhash
      · exact hno i hi
    have hfailed : ¬ ∃ reply, out.1 = .ok reply := by
      rintro ⟨reply, hok⟩
      exact nomatch hok.symm.trans herror
    refine ⟨⟨fun h => absurd h hfailed, fun h => absurd h hnone⟩, fun h => absurd h hfailed, ?_⟩
    intro e he
    have hee : Err.invalidInvite = e := Except.error.inj (herror.symm.trans he)
    exact ⟨hee.symm, hsame⟩

end Runs

/-! ## A run in which an invitation is accepted -/

/-- Ann has an organization, Bob an account, and Ann invites Bob. -/
def invitingCalls : List Call :=
  [.registerWithEmail "ann@example.com" "secret" "Ann" "" "acme" "",
    .registerWithEmail "bob@example.com" "hunter2" "Bob" "" "" "",
    .verifySignup "bob@example.com" "123456" "hunter2",
    .inviteMember (Uuid.ofNat 103).string (Uuid.ofNat 102).string "Bob@Example.com"]

def oneByOne : Schedule :=
  draws "welcome" 0 1000 100 12 ++ draws "welcome" 1 1100 200 11 ++ draws "welcome" 2 1200 300 11 ++
    draws "welcome" 3 1300 400 8

def invited : World :=
  (runOn toyConfig (serve toyConfig toyWorld invitingCalls) oneByOne).world

def bobAccepts : Except Err Reply × World :=
  (Call.acceptInvite (Uuid.ofNat 202).string " welcome").perform toyConfig
    (fun _ => { now := 1500 }) invited

set_option maxRecDepth 10000 in
/-- Bob may accept, and does. -/
theorem acceptInvite_exact_bob :
    (∃ reply, bobAccepts.1 = .ok reply) ∧
      (∃ i, Acceptable toyConfig invited.db (max (max invited.now 1500) 1500) (Uuid.ofNat 202)
        " welcome" i) ∧
      ∃ m ∈ bobAccepts.2.db.memberships, m.orgID = Uuid.ofNat 103 ∧ m.userID = Uuid.ofNat 202 := by
  have hsecrets : ∀ step ∈ oneByOne,
      toyConfig.env.hashInviteToken step.2.secret ≠
        toyConfig.env.hashInviteToken "" := by decide +kernel
  have huser : Uuid.parse (trimSpace (Uuid.ofNat 202).string) =
    some (Uuid.ofNat 202) := by decide +kernel
  have hempty : toyWorld.db = DB.empty := rfl
  have hcs : ∀ n, ((fun _ => { now := 1500 } : Nat → Choice) n).fails = false := fun _ => rfl
  have hexact := acceptInvite_exact toyConfig hempty invitingCalls hsecrets huser " welcome" hcs
  obtain ⟨hisOk, hmember⟩ : bobAccepts.1.isOk = true ∧ ∃ m ∈ bobAccepts.2.db.memberships,
      m.orgID = Uuid.ofNat 103 ∧ m.userID = Uuid.ofNat 202 := by decide +kernel
  have hok : ∃ reply, bobAccepts.1 = .ok reply := exists_ok hisOk
  exact ⟨hok, hexact.1.mp hok, hmember⟩

end Acceptance
end Service
end OrbitAuth
