import OrbitAuth.Postgres.Commits
import OrbitAuth.Service.Requests

/-!
# Invitations — what does using an invitation leave behind?

Three transactions use an invitation: `AcceptInvite` for an account that is logged in,
`CreateSignupUser` for a new account and `ReissuePendingSignup` for an account that is still
pending. Each should be all or nothing: the invitation is accepted, the account is an active member
and one event says so, or nothing happens.

`AcceptInvite` checks for a suspended membership, and a new account has none.  The third makes no
such check: a pending account that was added to the organization and suspended there uses up the
invitation, is announced as an active member and stays suspended.

* `invitation_all_or_nothing_iff` — in every reachable state, each of the three is all or nothing
  except in this case;
* `reissue_burns_invitation` — a history of service calls that ends in it.
-/

namespace OrbitAuth
namespace Service
namespace Invitations

open Domain Foundations Postgres

variable {challenge : Option OTPChallenge} {acceptedAt : Time} {invite : Invite}

open Postgres.Store (Commits)

/-- The store calls that use an invitation. -/
inductive Acceptance where
  | accept (inviteID orgID userID : String) (acceptedAt : Time)
  | create (user : User) (org : Option Organization) (invite : Invite) (acceptedAt : Time)
  | reissue (user : User) (challenge : Option OTPChallenge) (invite : Invite) (acceptedAt : Time)

namespace Acceptance

def op : Acceptance → Store.Op
  | accept inviteID orgID userID t => .acceptInvite inviteID orgID userID t
  | create user org invite t => .createSignupUser user org (some invite) t
  | reissue user challenge invite t => .reissuePendingSignup user challenge (some invite) t

/-- The identifier of the invitation, as the caller writes it. -/
def inviteID : Acceptance → String
  | accept inviteID _ _ _ => inviteID
  | create _ _ invite _ => invite.id
  | reissue _ _ invite _ => invite.id

/-- The organization that invites. -/
def orgID : Acceptance → String
  | accept _ orgID _ _ => orgID
  | create _ _ invite _ => invite.orgID
  | reissue _ _ invite _ => invite.orgID

/-- The account that uses the invitation; a retry finds it by its address. -/
def account (db : DB) : Acceptance → Option Uuid
  | accept _ _ userID _ => Uuid.parse userID
  | create user _ _ _ => Uuid.parse user.id
  | reissue user _ _ _ => ((db.users.select (UserRow.unverifiedAt user.email)).head?).map UserRow.id

/-- The organization founded along the way. -/
def founds : Acceptance → Option Organization
  | create _ org _ _ => org
  | _ => none

end Acceptance

/-- What an event says about new members. -/
def added : Event → Option (Option Uuid × Option Uuid × MembershipStatus)
  | .membershipAdded org user status _ => some (Uuid.parse org, Uuid.parse user, status)
  | _ => none

@[simp] theorem added_stamp (now : Time) (e : Event) : added (Store.stamp now e) = added e := by
  cases e <;> rfl

@[simp] theorem added_userCreated (user : String) (t : Time) :
    added (.userCreated user t) = none := rfl

@[simp] theorem added_orgCreated (org name : String) (t : Time) :
    added (.orgCreated org name t) = none := rfl

theorem added_member {orgID userID : String} {org user : Uuid} (horg : Uuid.parse orgID = some org)
    (huser : Uuid.parse userID = some user) (status : MembershipStatus) (t : Time) :
    added (.membershipAdded orgID userID status t) = some (some org, some user, status) := by
  simp [added, horg, huser]

/-- The events about new members: the organization that invites, then one founded along the way. -/
def announcements (a : Acceptance) (org user : Uuid) :
    List (Option Uuid × Option Uuid × MembershipStatus) :=
  (some org, some user, .active) ::
    (a.founds.map fun o => (Uuid.parse o.id, some user, MembershipStatus.active)).toList

/-- The invitation is accepted, the account is an active member, and this was announced once. -/
def Honoured (a : Acceptance) (db db' : DB) : Prop :=
  ∃ id org user, Uuid.parse a.inviteID = some id ∧ Uuid.parse a.orgID = some org ∧
    a.account db = some user ∧
    (∃ i ∈ db'.invites, i.id = id ∧ i.orgID = org ∧ i.status = .accepted) ∧
    (∃ m ∈ db'.memberships, m.orgID = org ∧ m.userID = user ∧ m.status = .active) ∧
    ∃ es, db'.outbox = db.outbox ++ es ∧ es.filterMap added = announcements a org user

def AllOrNothing (a : Acceptance) (db db' : DB) : Prop :=
  db' = db ∨ Honoured a db db'

/-- The code sent along with a retry can be stored. -/
def rotates (db : DB) (acceptedAt : Time) : Option OTPChallenge → Bool
  | none => true
  | some ch =>
      match Uuid.parse ch.id with
      | none => false
      | some id => ch.expiresAt ≠ 0 && Store.orNow acceptedAt ch.createdAt ≠ 0 &&
          !db.challenges.any fun r => r.id = id && !r.addressedTo ch.identifier ch.channel

/-- A retry uses the pending invitation of an organization in which the account is suspended. -/
def burns (db : DB) : Acceptance → Bool
  | .reissue user challenge invite t =>
      match (db.users.select (UserRow.unverifiedAt user.email)).head?, Uuid.parse invite.orgID,
          Uuid.parse invite.id with
      | some r, some org, some id =>
          rotates db t challenge && db.orgs.any (fun o => o.id = org) &&
            db.invites.any (InviteRow.stillPending id org) &&
            db.memberships.any fun m => m.orgID = org && m.userID = r.id && m.status = .suspended
      | _, _, _ => false
  | _ => false

/-! ## The tables after an invitation was used -/

section Consumed

variable {now : Time} {org user : Uuid} {t : Table MembershipRow}

theorem accepted_of_open {db : DB} {inviteID : Uuid} {acceptedAt : Option Time}
    (h : Store.Open db inviteID org) :
    ∃ i ∈ db.invites.update (InviteRow.stillPending inviteID org) (InviteRow.accepted acceptedAt),
      i.id = inviteID ∧ i.orgID = org ∧ i.status = .accepted := by
  obtain ⟨i, hi, hpending⟩ := h
  have hids : i.id = inviteID ∧ i.orgID = org := by
    simp only [InviteRow.stillPending, Bool.and_eq_true, decide_eq_true_eq] at hpending
    exact hpending.1
  have hmem := (mem_update (t := db.invites) (key_inviteAccepted acceptedAt)).mpr
    (.inl ⟨i, hi, hpending, rfl⟩)
  exact ⟨_, hmem, hids.1, hids.2, rfl⟩

/-- Whoever is not suspended is an active member afterwards. -/
theorem active_of_joined (h : ∀ m, t.find? (org, user) = some m → m.status ≠ .suspended) :
    ∃ m ∈ Store.joined now t org user, m.orgID = org ∧ m.userID = user ∧ m.status = .active := by
  unfold Store.joined
  cases hfind : t.find? (org, user) with
  | none => exact ⟨_, mem_put.mpr (.inl rfl), rfl, rfl, rfl⟩
  | some m =>
      obtain ⟨hm, hkey⟩ := find?_eq_some.mp hfind
      obtain ⟨rfl, rfl⟩ := Prod.mk.inj hkey
      dsimp only
      split
      · exact ⟨_, mem_put.mpr (.inl rfl), rfl, rfl, rfl⟩
      · rename_i hinvited
        refine ⟨m, hm, rfl, rfl, ?_⟩
        cases hstatus : m.status with
        | active => rfl
        | invited => exact absurd hstatus hinvited
        | suspended => exact absurd hstatus (h m hfind)

/-- Whoever is suspended stays so. -/
theorem joined_of_suspended {m : MembershipRow} (hfind : t.find? (org, user) = some m)
    (hstatus : m.status = .suspended) : Store.joined now t org user = t := by
  simp [Store.joined, hfind, hstatus]

end Consumed

/-! ## The three calls -/

section Calls

variable {env : Env} {now : Time} {id : Uuid} {pick : Nat} {db db' : DB}

/-- `AcceptInvite` looks at the membership first. -/
theorem accept_all_or_nothing (inviteID orgID userID : String) (acceptedAt : Time) :
    AllOrNothing (.accept inviteID orgID userID acceptedAt) db
      ((Store.Op.acceptInvite inviteID orgID userID acceptedAt).exec env now id pick db).2 := by
  rcases Store.exec_commits env now id pick (.acceptInvite inviteID orgID userID acceptedAt) db with
    ⟨_, _, hcommits⟩ | hsame
  · obtain ⟨iid, org, user, hid, horg, huser, _, hstatus, hopen, _, hdb'⟩ :=
      Store.commits_acceptInvite.mp hcommits
    rw [hdb']
    refine .inr ⟨iid, org, user, hid, horg, huser, accepted_of_open hopen,
      active_of_joined hstatus, _, rfl, ?_⟩
    simp [added_member horg huser, announcements, Acceptance.founds]
  · exact .inl hsame

/-- A new account is not suspended anywhere. -/
theorem create_all_or_nothing (hdb : db.Integrity) (user : User) (org : Option Organization)
    (invite : Invite) (acceptedAt : Time) :
    AllOrNothing (.create user org invite acceptedAt) db
      ((Store.Op.createSignupUser user org (some invite) acceptedAt).exec env now id
        pick db).2 := by
  rcases Store.exec_commits env now id pick (.createSignupUser user org (some invite) acceptedAt) db
      with
    ⟨_, _, hcommits⟩ | hsame
  · obtain ⟨uid, huser, ⟨_, _, hdb'⟩ | ⟨hfree, _, db₁, hjoin, hown⟩⟩ :=
      Store.commits_createSignupUser.mp hcommits
    · exact .inl hdb'
    · obtain ⟨oid, iid, horg, hid, _, hopen, _, rfl⟩ := Store.commits_joinInvite.mp hjoin
      -- the account is new, so nothing can be suspended
      have hnone : db.memberships.find? (oid, uid) = none := by
        refine find?_eq_none.mpr fun m hm hkey => ?_
        obtain ⟨r, hr, hrid⟩ := hdb.membershipUser m hm
        exact (hfree r hr).1 (hrid.trans (Prod.mk.inj hkey).2)
      have hjoined : ∃ m ∈ Store.joined now db.memberships oid uid,
          m.orgID = oid ∧ m.userID = uid ∧ m.status = .active := active_of_joined (by simp [hnone])
      refine .inr ⟨iid, oid, uid, hid, horg, huser, ?_⟩
      cases org with
      | none =>
          rw [(Store.commits_pure.mp hown).2]
          refine ⟨accepted_of_open hopen, hjoined, _, List.append_assoc _ _ _, ?_⟩
          simp [added_member horg huser, announcements, Acceptance.founds]
      | some o =>
          obtain ⟨own, hownID, _, _, _, _, hdb'⟩ := Store.commits_ownOrg.mp hown
          rw [hdb']
          refine ⟨accepted_of_open hopen, ?_, _, (List.append_assoc _ _ _).trans
            (List.append_assoc _ _ _), ?_⟩
          -- founding an own organization adds a second membership and keeps the first
          · obtain ⟨m, hm, hmo, hmu, hactive⟩ := hjoined
            exact ⟨m, Store.mem_enrolled_of_mem hm, hmo, hmu, hactive⟩
          · simp [added_member horg huser, added_member hownID huser, announcements,
              Acceptance.founds, hownID]
  · exact .inl hsame

/-- What is left when the code of a retry was stored. -/
theorem rotates_of_commits
    (h : Commits env now pick (Store.rotateChallenge acceptedAt challenge) db () db') :
    rotates db acceptedAt challenge = true ∧ ∃ t, db' = { db with challenges := t } := by
  cases challenge with
  | none => exact ⟨rfl, _, (Store.commits_pure.mp h).2⟩
  | some ch =>
      obtain ⟨cid, hcid, hexpires, hcreated, hfree, rfl⟩ := Store.commits_rotateChallenge.mp h
      refine ⟨?_, _, rfl⟩
      simp only [rotates, hcid, Bool.and_eq_true, decide_eq_true_eq, Bool.not_eq_true']
      refine ⟨⟨hexpires, hcreated⟩, any_eq_false.mpr fun r hr => ?_⟩
      by_contra hboth
      have hboth : r.id = cid ∧ r.addressedTo ch.identifier ch.channel =
        false := by simpa using hboth
      exact hfree r hr hboth.2 hboth.1

theorem commits_of_rotates (env : Env) (now : Time) (pick : Nat)
    (h : rotates db acceptedAt challenge = true) :
    ∃ t, Commits env now pick (Store.rotateChallenge acceptedAt challenge) db ()
      { db with challenges := t } := by
  cases challenge with
  | none => exact ⟨db.challenges, Store.commits_pure.mpr ⟨rfl, rfl⟩⟩
  | some ch =>
      unfold rotates at h
      cases hcid : Uuid.parse ch.id with
      | none => simp [hcid] at h
      | some cid =>
          simp only [hcid, Bool.and_eq_true, decide_eq_true_eq, Bool.not_eq_true'] at h
          obtain ⟨⟨hexpires, hcreated⟩, hfree⟩ := h
          refine ⟨_, Store.commits_rotateChallenge.mpr ⟨cid, hcid, hexpires, hcreated, ?_, rfl⟩⟩
          intro r hr hother hid
          have hnone := any_eq_false.mp hfree r hr
          simp [hid, hother] at hnone

/-- The retry that uses an invitation: the three tables it leaves. -/
structure Redeems (now : Time) (db db' : DB) (r : UserRow) (org inviteID : Uuid) (invite : Invite)
    (acceptedAt : Time) : Prop where
  invites : db'.invites = db.invites.update (InviteRow.stillPending inviteID org)
    (InviteRow.accepted (Store.timestamptz acceptedAt))
  memberships : db'.memberships = Store.joined now db.memberships org r.id
  outbox : db'.outbox = db.outbox ++
    [Store.stamp now (.membershipAdded invite.orgID r.id.string .active acceptedAt)]

theorem commits_reissue_invited {user : User} {v : String × Bool}
    (h : Commits env now pick
      (Store.reissuePendingSignup now user challenge (some invite) acceptedAt) db v db') :
    ∃ r org inviteID, (db.users.select (UserRow.unverifiedAt user.email)).head? = some r ∧
      Uuid.parse invite.orgID = some org ∧ Uuid.parse invite.id = some inviteID ∧
      rotates db acceptedAt challenge = true ∧ (∃ o ∈ db.orgs, o.id = org) ∧
      Store.Open db inviteID org ∧ Redeems now db db' r org inviteID invite acceptedAt := by
  obtain ⟨r, hhead, _, db₁, hrotate, hactivate⟩ := Store.commits_reissuePendingSignup.mp h
  obtain ⟨hrotates, t, rfl⟩ := rotates_of_commits hrotate
  obtain ⟨u, org, iid, huser, horg, hid, _, hexists, hopen, rfl⟩ :=
    Store.commits_activateByInvite.mp hactivate
  obtain rfl : r.id = u := by simpa [Uuid.parse_string] using huser
  exact ⟨r, org, iid, hhead, horg, hid, hrotates, hexists, hopen, rfl, rfl, rfl⟩

/-- A retry that meets a suspended membership still gets through. -/
theorem commits_of_burns (env : Env) (now : Time) (pick : Nat) {user : User}
    (h : burns db (.reissue user challenge invite acceptedAt) = true) :
    ∃ v db', Commits env now pick
      (Store.reissuePendingSignup now user challenge (some invite) acceptedAt) db v db' := by
  simp only [burns] at h
  split at h
  · rename_i r org iid hhead horg hid
    simp only [Bool.and_eq_true] at h
    obtain ⟨⟨⟨hrotates, horgs⟩, hinvites⟩, _⟩ := h
    have hexists : ∃ o ∈ db.orgs, o.id = org := by simpa using any_eq_true.mp horgs
    have hopen : Store.Open db iid org := any_eq_true.mp hinvites
    have hrotates' : rotates (Store.reissued now db user) acceptedAt challenge = true := hrotates
    obtain ⟨t, hrotate⟩ := commits_of_rotates env now pick hrotates'
    obtain ⟨db', hactivate⟩ : ∃ db', Commits env now pick
        (Store.activateByInvite now r.id.string acceptedAt (some invite))
          { Store.reissued now db user with challenges := t } () db' :=
      ⟨_, Store.commits_activateByInvite.mpr ⟨r.id, org, iid, Uuid.parse_string _, horg, hid,
        Store.unverified_reissued hhead, hexists, hopen, rfl⟩⟩
    exact ⟨_, db', Store.commits_reissuePendingSignup.mpr ⟨r, hhead, rfl, _, hrotate, hactivate⟩⟩
  · cases h

/-- A retry that uses an invitation changes the database. -/
theorem redeems_changes {r : UserRow} {org inviteID : Uuid}
    (h : Redeems now db db' r org inviteID invite acceptedAt) (hopen : Store.Open db inviteID org) :
    db' ≠ db := by
  intro hsame
  obtain ⟨j, hj, hjid, _, haccepted⟩ : ∃ j ∈ db'.invites,
      j.id = inviteID ∧ j.orgID = org ∧ j.status = .accepted := by
    rw [h.invites]
    exact accepted_of_open hopen
  rw [hsame] at hj
  obtain ⟨i, hi, hpending⟩ := hopen
  simp only [InviteRow.stillPending, Bool.and_eq_true, decide_eq_true_eq] at hpending
  have hij : i = j := eq_of_key hi hj (hpending.1.1.trans hjid.symm)
  rw [hij, haccepted] at hpending
  cases hpending.2

/-- For a retry that gets through, only the membership is in question. -/
theorem burns_eq {user : User} {r : UserRow} {org inviteID : Uuid}
    (hhead : (db.users.select (UserRow.unverifiedAt user.email)).head? = some r)
    (horg : Uuid.parse invite.orgID = some org) (hid : Uuid.parse invite.id = some inviteID)
    (hrotates : rotates db acceptedAt challenge = true) (hexists : ∃ o ∈ db.orgs, o.id = org)
    (hopen : Store.Open db inviteID org) :
    burns db (.reissue user challenge invite acceptedAt) =
      db.memberships.any fun m => m.orgID = org && m.userID = r.id && m.status = .suspended := by
  have horgs : db.orgs.any (fun o => o.id = org) = true := any_eq_true.mpr (by simpa using hexists)
  have hinvites : db.invites.any (InviteRow.stillPending inviteID org) = true :=
    any_eq_true.mpr hopen
  simp [burns, hhead, horg, hid, hrotates, horgs, hinvites]

theorem notSuspended_of_any {org user : Uuid}
    (h : (db.memberships.any fun m => m.orgID = org && m.userID = user && m.status = .suspended) =
      false) :
    Store.NotSuspended db org user := by
  intro m hfind hstatus
  obtain ⟨hm, hkey⟩ := find?_eq_some.mp hfind
  have hfalse := any_eq_false.mp h m hm
  have hkey' := Prod.mk.inj hkey
  simp [hkey'.1, hkey'.2, hstatus] at hfalse

/-- The retry is all or nothing unless it burns the invitation. -/
theorem reissue_all_or_nothing_iff (user : User) (challenge : Option OTPChallenge) (invite : Invite)
    (acceptedAt : Time) :
    AllOrNothing (.reissue user challenge invite acceptedAt) db
        ((Store.Op.reissuePendingSignup user challenge (some invite) acceptedAt).exec
          env now id pick db).2 ↔
      burns db (.reissue user challenge invite acceptedAt) = false := by
  rcases Store.exec_commits env now id pick
    (.reissuePendingSignup user challenge (some invite) acceptedAt) db with ⟨_, _, hcommits⟩ | hsame
  · obtain ⟨r, org, iid, hhead, horg, hid, hrotates, hexists, hopen, hredeems⟩ :=
      commits_reissue_invited hcommits
    generalize ((Store.Op.reissuePendingSignup user challenge (some invite) acceptedAt).exec env now
      id pick db).2 = db' at *
    have hburns := burns_eq hhead horg hid hrotates hexists hopen
    rw [hburns, any_eq_false]
    constructor
    · rintro (hsame | ⟨_, org', user', _, horg', huser', _, ⟨m', hm', hmo', hmu', hactive⟩, _⟩) m hm
      · exact absurd hsame (redeems_changes hredeems hopen)
      · obtain rfl : org = org' := by simpa [Acceptance.orgID, horg] using horg'
        obtain rfl : r.id = user' := by simpa [Acceptance.account, hhead] using huser'
        by_contra hsuspended
        have hs : m.orgID = org ∧ m.userID = r.id ∧ m.status = .suspended := by
          simpa using hsuspended
        have hkey : Keyed.key m = (org, r.id) := Prod.ext hs.1 hs.2.1
        rw [hredeems.memberships,
          joined_of_suspended (find?_eq_some.mpr ⟨hm, hkey⟩) hs.2.2] at hm'
        have hmm : m = m' := eq_of_key hm hm' (hkey.trans (Prod.ext hmo' hmu').symm)
        rw [← hmm, hs.2.2] at hactive
        cases hactive
    · intro hnone
      refine .inr ⟨iid, org, r.id, hid, horg, by simp [Acceptance.account, hhead], ?_, ?_, _,
        hredeems.outbox, ?_⟩
      · rw [hredeems.invites]
        exact accepted_of_open hopen
      · rw [hredeems.memberships]
        exact active_of_joined (notSuspended_of_any (any_eq_false.mpr hnone))
      · simp [added_member horg (Uuid.parse_string r.id), announcements, Acceptance.founds]
  · -- nothing happened; a burnt invitation would show
    refine ⟨fun _ => ?_, fun _ => .inl hsame⟩
    by_contra hburns
    obtain ⟨v, db', hcommits⟩ := commits_of_burns env now pick (Bool.of_not_eq_false hburns)
    obtain ⟨r, org, iid, _, _, _, _, _, hopen, hredeems⟩ := commits_reissue_invited hcommits
    have hexec :
      (Store.Op.reissuePendingSignup user challenge (some invite) acceptedAt).exec env now id pick
        db = (.ok v, db') := Store.exec_of_commits hcommits
    rw [hexec] at hsame
    exact redeems_changes hredeems hopen hsame

end Calls

/-! ## Reachable states -/

/-- In every state that any interleaving of service calls leads to, using an invitation is all or
nothing, except for a retry by an account that is suspended in the organization. -/
theorem invitation_all_or_nothing_iff (cfg : Config) (calls : List Call) {w : World}
    (hw : w.db = DB.empty) (sched : Schedule) (a : Acceptance) (now : Time) (id : Uuid)
    (pick : Nat) :
    let db := (runOn cfg (serve cfg w calls) sched).world.db
    AllOrNothing a db (a.op.exec cfg.env now id pick db).2 ↔ burns db a = false := by
  intro db
  have hdb : db.Integrity := serve_integrity cfg calls (hw ▸ DB.integrity_empty) sched
  cases a with
  | accept inviteID orgID userID t =>
      exact ⟨fun _ => rfl, fun _ => accept_all_or_nothing inviteID orgID userID t⟩
  | create user org invite t =>
      exact ⟨fun _ => rfl, fun _ => create_all_or_nothing hdb user org invite t⟩
  | reissue user challenge invite t => exact reissue_all_or_nothing_iff user challenge invite t

/-- Ann registers with an organization.  Bob registers and does not verify the address; Ann adds
him, suspends him and then sends an invitation to his address.  In the end Bob registers with it. -/
def inviteCalls : List Call :=
  [.registerWithEmail "ann@example.com" "secret" "Ann" "" "acme" "",
    .registerWithEmail "bob@example.com" "hunter2" "Bob" "" "" "",
    .addMember (Uuid.ofNat 103).string (Uuid.ofNat 202).string,
    .suspendMember (Uuid.ofNat 103).string (Uuid.ofNat 202).string,
    .inviteMember (Uuid.ofNat 103).string (Uuid.ofNat 102).string "bob@example.com",
    .registerWithEmail "bob@example.com" "hunter3" "Bob" "" "" "letmein"]

/-- One call after the other, up to the invitation; its token is `letmein`. -/
def invitedSched : Schedule :=
  turns 0 1000 100 12 ++ turns 1 1100 200 11 ++ turns 2 1200 300 3 ++ turns 3 1300 400 3 ++
    (turns 4 1400 500 8).map fun x => (x.1, { x.2 with secret := "letmein" })

def invited : ServicePool :=
  runOn toyConfig (serve toyConfig toyWorld inviteCalls) invitedSched

/-- The member who invited uses the invitation. -/
def annAccepts : Acceptance :=
  .accept (Uuid.ofNat 505).string (Uuid.ofNat 103).string (Uuid.ofNat 102).string 1500

set_option maxRecDepth 10000 in
/-- An active member is not in the way. -/
theorem invitation_all_or_nothing_iff_ann :
    toyWorld.db = DB.empty ∧ burns invited.world.db annAccepts = false ∧
      AllOrNothing annAccepts invited.world.db
        (annAccepts.op.exec toyConfig.env 1500 (Uuid.ofNat 0) 0 invited.world.db).2 := by
  refine ⟨rfl, rfl, ?_⟩
  unfold invited
  exact (invitation_all_or_nothing_iff toyConfig inviteCalls rfl invitedSched annAccepts _ _ _).mpr
    rfl

/-- The store call in Bob's second registration. -/
def bobRetries : Acceptance :=
  .reissue ⟨(Uuid.ofNat 604).string, "bob@example.com", "", "bcrypt:hunter3", "Bob",
    .active, true⟩ none ⟨(Uuid.ofNat 505).string, (Uuid.ofNat 103).string, "bob@example.com",
      "sha256:letmein", (Uuid.ofNat 102).string, .pending, 1400 + inviteTTL, none, 1400⟩ 1500

set_option maxRecDepth 10000 in
/-- Bob's registration uses up the invitation and is announced, and Bob stays suspended. -/
theorem reissue_burns_invitation :
    ¬ AllOrNothing bobRetries invited.world.db
        (bobRetries.op.exec toyConfig.env 1500 (Uuid.ofNat 0) 0 invited.world.db).2 ∧
      let db := (runOn toyConfig invited (turns 5 1500 600 7)).world.db
      (∀ i ∈ db.invites, i.status = .accepted) ∧
        (∀ m ∈ db.memberships, m.userID = Uuid.ofNat 202 → m.status = .suspended) ∧
        (db.outbox.drop invited.world.db.outbox.length).filterMap added =
          [(some (Uuid.ofNat 103), some (Uuid.ofNat 202), .active)] := by
  -- the two evaluations share the run
  have hrun : burns invited.world.db bobRetries = true ∧
      let db := (runOn toyConfig invited (turns 5 1500 600 7)).world.db
      (∀ i ∈ db.invites, i.status = .accepted) ∧
        (∀ m ∈ db.memberships, m.userID = Uuid.ofNat 202 → m.status = .suspended) ∧
        (db.outbox.drop invited.world.db.outbox.length).filterMap added =
          [(some (Uuid.ofNat 103), some (Uuid.ofNat 202), .active)] := by decide +kernel
  refine ⟨fun hall => ?_, hrun.2⟩
  have hnot : burns invited.world.db bobRetries = false :=
    (reissue_all_or_nothing_iff _ _ _ _).mp hall
  exact Bool.noConfusion (hrun.1.symm.trans hnot)

end Invitations
end Service
end OrbitAuth
