import OrbitAuth.Foundations.Replay
import OrbitAuth.Safety.Invitations

/-!
# EventLog — when do the lifecycle events reproduce the memberships?

Consumers rebuild the membership table from the outbox: `membership.added` sets a member's status,
`membership.suspended` sets it to suspended and `membership.removed` removes the member.  Every
transaction that writes memberships writes the matching event, with two exceptions: the cascade of
the purge removes memberships silently, and a retried sign-up with an invitation announces an active
member even when the account is suspended in that organization and stays so.

* `exec_mirrors` — every store call the service makes keeps the log and the table together, outside
  these two cases;
* `outbox_mirrors` — so do all interleavings of calls that stay outside of them;
* `purge_is_silent` — a history in which each of the two happens.
-/

namespace OrbitAuth
namespace Service
namespace EventLog

open Domain Foundations Postgres

variable {org user : Uuid} {e : Event}

/-! ## Replaying the outbox -/

abbrev MemberKey := Uuid × Uuid

/-- A change of the membership named by two identifiers in text form. -/
def memberChange (org user : String) (value : Option MembershipStatus) :
    Option (Change MemberKey MembershipStatus) :=
  match Uuid.parse org, Uuid.parse user with
  | some o, some u => some ⟨(o, u), value⟩
  | _, _ => none

/-- What an event says about memberships. -/
def change : Event → Option (Change MemberKey MembershipStatus)
  | .membershipAdded org user status _ => memberChange org user (some status)
  | .membershipSuspended org user _ _ => memberChange org user (some .suspended)
  | .membershipRemoved org user _ _ => memberChange org user none
  | .userCreated _ _ | .orgCreated _ _ _ => none

theorem change_created (user : String) (t : Time) : change (.userCreated user t) = none := rfl

@[simp] theorem change_stamp (now : Time) (e : Event) : change (Store.stamp now e) = change e := by
  cases e <;> rfl

theorem memberChange_eq {org user : String} {o u : Uuid} (ho : Uuid.parse org = some o)
    (hu : Uuid.parse user = some u) (value : Option MembershipStatus) :
    memberChange org user value = some ⟨(o, u), value⟩ := by
  simp [memberChange, ho, hu]

theorem change_added (now : Time) {orgID userID : String} (horg : Uuid.parse orgID = some org)
    (huser : Uuid.parse userID = some user) (status : MembershipStatus) (t : Time) :
    change (Store.stamp now (.membershipAdded orgID userID status t)) =
      some ⟨(org, user), some status⟩ := by
  rw [change_stamp]
  exact memberChange_eq horg huser _

/-- The status column of the membership table. -/
def statusOf (t : Table MembershipRow) (k : MemberKey) : Option MembershipStatus :=
  (t.find? k).map MembershipRow.status

/-- Replaying the outbox yields the table. -/
def Mirrors (t : Table MembershipRow) (outbox : List Event) : Prop :=
  Replays (outbox.filterMap change) (statusOf t)

section Mirrors

variable {t t' : Table MembershipRow} {outbox : List Event}

/-- Events about other things. -/
theorem mirrors_silent (h : Mirrors t outbox) {es : List Event} (hes : ∀ e ∈ es, change e = none) :
    Mirrors t (outbox ++ es) := by
  have hnone : es.filterMap change = [] := List.filterMap_eq_nil_iff.mpr hes
  unfold Mirrors
  rw [List.filterMap_append, hnone, List.append_nil]
  exact h

/-- One event, and one member with the status it announces. -/
theorem mirrors_event (h : Mirrors t outbox) {k : MemberKey} {value : Option MembershipStatus}
    (he : change e = some ⟨k, value⟩) (hkey : statusOf t' k = value)
    (hother : ∀ k', k' ≠ k → statusOf t' k' = statusOf t k') : Mirrors t' (outbox ++ [e]) := by
  unfold Mirrors
  rw [List.filterMap_append, show [e].filterMap change = [⟨k, value⟩] by simp [he]]
  exact replays_snoc h hkey hother

theorem statusOf_put (x : MembershipRow) (k : MemberKey) :
    statusOf (t.put x) k = if (x.orgID, x.userID) = k then some x.status else statusOf t k := by
  unfold statusOf
  rw [find?_put, key_membership]
  split <;> rfl

theorem statusOf_put_other {x : MembershipRow} {k : MemberKey} (h : k ≠ (x.orgID, x.userID)) :
    statusOf (t.put x) k = statusOf t k := by
  rw [statusOf_put, if_neg (Ne.symm h)]

theorem mirrors_put (h : Mirrors t outbox) {x : MembershipRow}
    (he : change e = some ⟨(x.orgID, x.userID), some x.status⟩) :
    Mirrors (t.put x) (outbox ++ [e]) := by
  refine mirrors_event h he ?_ fun k hk => statusOf_put_other hk
  rw [statusOf_put, if_pos rfl]

theorem mirrors_erase (h : Mirrors t outbox) {k : MemberKey} (he : change e = some ⟨k, none⟩) :
    Mirrors (t.erase k) (outbox ++ [e]) := by
  refine mirrors_event h he ?_ fun k' hk => ?_
  · simp [statusOf, find?_erase]
  · simp [statusOf, find?_erase, Ne.symm hk]

/-- A row that keeps its status needs no event. -/
theorem mirrors_rewrite (h : Mirrors t outbox) {x : MembershipRow}
    (hx : statusOf t (x.orgID, x.userID) = some x.status) : Mirrors (t.put x) outbox := by
  refine replays_congr h fun k => ?_
  rw [statusOf_put]
  split
  · rename_i hk
    rw [← hk, hx]
  · rfl

theorem statusOf_of_mem {m : MembershipRow} (hm : m ∈ t) :
    statusOf t (m.orgID, m.userID) = some m.status := by
  have hfind : t.find? (m.orgID, m.userID) = some m := find?_of_mem hm
  simp [statusOf, hfind]

/-- An invitation is used by somebody who is not suspended. -/
theorem mirrors_joined (h : Mirrors t outbox) {now : Time}
    (he : change e = some ⟨(org, user), some .active⟩)
    (hstatus : ∀ m, t.find? (org, user) = some m → m.status ≠ .suspended) :
    Mirrors (Store.joined now t org user) (outbox ++ [e]) := by
  refine mirrors_event h he ?_ fun k hk => ?_
  · obtain ⟨m, hm, rfl, rfl, hactive⟩ : ∃ m ∈ Store.joined now t org user,
        m.orgID = org ∧ m.userID = user ∧ m.status = .active := Invitations.active_of_joined hstatus
    rw [statusOf_of_mem hm, hactive]
  · unfold Store.joined
    split
    · rename_i m hfind
      split
      · have hkey : (m.orgID, m.userID) = (org, user) := (find?_eq_some.mp hfind).2
        exact statusOf_put_other (hkey ▸ hk)
      · rfl
    · exact statusOf_put_other hk

/-- A new organization gets its first member. -/
theorem mirrors_enrolled (h : Mirrors t outbox) {now : Time} {created added : Event}
    (hcreated : change created = none) (hadded : change added = some ⟨(org, user), some .active⟩)
    (hnone : t.find? (org, user) = none) :
    Mirrors (Store.enrolled now t org user .active) (outbox ++ [created, added]) := by
  have hsplit : outbox ++ [created, added] = (outbox ++ [created]) ++ [added] := by simp
  unfold Store.enrolled
  rw [hnone, hsplit]
  exact mirrors_put (mirrors_silent h (by simpa using hcreated)) hadded

end Mirrors

/-! ## Store calls -/

section Calls

variable {env : Env} {now : Time} {id : Uuid} {pick : Nat} {db : DB}

/-- Statements that say nothing about memberships. -/
def Quiet (s : Sql) : Prop :=
  TableName.memberships ∉ s.writes ∧
    (TableName.outbox ∈ s.writes → ∃ user t, s = .insertOutboxEvent (.userCreated user t))

theorem exec_quiet {o : Store.Op} (ho : (o.body now id).Uses Quiet)
    (h : Mirrors db.memberships db.outbox) :
    Mirrors (o.exec env now id pick db).2.memberships (o.exec env now id pick db).2.outbox := by
  have hrel : Mirrors db.memberships db.outbox →
      Mirrors (o.exec env now id pick db).2.memberships (o.exec env now id pick db).2.outbox := by
    refine Store.exec_rel
      (R := fun db db' => Mirrors db.memberships db.outbox → Mirrors db'.memberships db'.outbox)
      (fun _ h => h) (fun _ _ _ h₁ h₂ h => h₂ (h₁ h)) ?_ ho pick db
    intro s pick db v ws hs heval hdb
    have hmembers : (db.applyAll ws).memberships = db.memberships := eval_same heval hs.1
    rw [hmembers]
    by_cases hout : TableName.outbox ∈ s.writes
    · obtain ⟨user, t, rfl⟩ := hs.2 hout
      rw [ok_writes heval]
      exact mirrors_silent hdb (by simp [change])
    · have houtbox : (db.applyAll ws).outbox = db.outbox := eval_same heval hout
      rw [houtbox]
      exact hdb
  exact hrel h

theorem uses_userCreated {β : Type} (now : Time) (user : String) (t : Time) :
    (Store.emitEvents now [.userCreated user t] : Store.Tx β Unit).Uses Quiet :=
  uses_bind (Store.uses_stmt ⟨by simp [Sql.writes], fun _ => ⟨_, _, rfl⟩⟩) fun _ => .done _

/-- The calls that create accounts on first login. -/
theorem quiet_createByEmail (email : String) :
    ((Store.Op.createByEmail email).body now id).Uses Quiet := by
  refine uses_bind (Store.uses_stmt (by simp [Quiet, Sql.writes])) fun _ => ?_
  exact uses_bind (uses_userCreated now id.string now) fun _ => .done _

theorem quiet_createByMobile (mobile : String) :
    ((Store.Op.createByMobile mobile).body now id).Uses Quiet := by
  refine uses_bind (Store.uses_stmt (by simp [Quiet, Sql.writes])) fun _ => ?_
  exact uses_bind (uses_userCreated now id.string now) fun _ => .done _

theorem quiet_upsertDemoUser (email mobile hash name : String) :
    ((Store.Op.upsertDemoUser email mobile hash name).body now id).Uses Quiet := by
  refine uses_bind (.call ?_ fun r => ?_) fun created => ?_
  · unfold Store.demoLookup
    split <;> simp [Quiet, Sql.writes]
  · rcases r with e | v
    · cases e <;> first | exact .done _ | exact .fail _
    · exact .done _
  · refine uses_bind ?_ fun _ => ?_
    · unfold Store.demoUpsert
      split <;> exact Store.uses_stmt (by simp [Quiet, Sql.writes])
    · split
      · exact uses_userCreated now id.string now
      · exact .done _

/-- Nobody belongs to an organization or is an account that does not exist. -/
theorem find?_of_new_org (hdb : db.Integrity) (h : ∀ o ∈ db.orgs, o.id ≠ org) :
    db.memberships.find? (org, user) = none := by
  refine find?_eq_none.mpr fun m hm hkey => ?_
  obtain ⟨o, ho, hid⟩ := hdb.membershipOrg m hm
  exact h o ho (hid.trans (Prod.mk.inj hkey).1)

theorem find?_of_new_user (hdb : db.Integrity) (h : ∀ r ∈ db.users, r.id ≠ user) :
    db.memberships.find? (org, user) = none := by
  refine find?_eq_none.mpr fun m hm hkey => ?_
  obtain ⟨r, hr, hid⟩ := hdb.membershipUser m hm
  exact h r hr (hid.trans (Prod.mk.inj hkey).2)

/-- The calls whose memberships and events go together.  A purge must take no membership with it,
unless an API token refuses it, and a retry must not use an invitation to an organization that the
account is suspended in. -/
def announced (db : DB) : Store.Op → Bool
  | .purgeUnverifiedSignups before =>
      (db.apiTokens.any fun t => t.userID ∈ purgedIDs db (Store.timestamptz before)) ||
        !db.memberships.any fun m => m.userID ∈ purgedIDs db (Store.timestamptz before)
  | .reissuePendingSignup user challenge (some invite) t =>
      !Invitations.burns db (.reissue user challenge invite t)
  | _ => true

/-- Calls that do not write the two tables. -/
theorem exec_mirrors_same {o : Store.Op} (hm : TableName.memberships ∉ o.writes)
    (ho : TableName.outbox ∉ o.writes) (h : Mirrors db.memberships db.outbox) :
    Mirrors (o.exec env now id pick db).2.memberships (o.exec env now id pick db).2.outbox := by
  have hmembers : (o.exec env now id pick db).2.memberships = db.memberships :=
    Store.exec_same hm now id pick db
  have houtbox : (o.exec env now id pick db).2.outbox = db.outbox :=
    Store.exec_same ho now id pick db
  rw [hmembers, houtbox]
  exact h

/-- A registration announces the account, then the membership it comes with. -/
theorem createSignupUser_mirrors (hdb : db.Integrity) {user : User} {org : Option Organization}
    {invite : Option Invite} {acceptedAt : Time} {created : Bool} {db' : DB}
    (hboth : invite.isSome = true → org = none) (h : Mirrors db.memberships db.outbox)
    (hc : Store.Commits env now pick
      (Store.createSignupUser now user org invite acceptedAt) db created db') : Mirrors
        db'.memberships db'.outbox := by
  obtain ⟨uid, huser, ⟨_, _, hdb'⟩ | ⟨hfree, _, db₁, hjoin, hown⟩⟩ :=
    Store.commits_createSignupUser.mp hc
  · rw [hdb']
    exact h
  -- memberships refer to accounts, and this account is new
  · have hnone : ∀ org, db.memberships.find? (org, uid) = none :=
      fun org => find?_of_new_user hdb fun r hr => (hfree r hr).1
    have hregistered : Mirrors (Store.registered now db uid user acceptedAt).memberships
        (Store.registered now db uid user acceptedAt).outbox :=
      mirrors_silent h (by simp [change_created])
    cases invite with
    | some invite =>
        obtain rfl := hboth rfl
        obtain ⟨oid, iid, horg, _, _, _, _, rfl⟩ := Store.commits_joinInvite.mp hjoin
        rw [(Store.commits_pure.mp hown).2]
        refine mirrors_joined hregistered (change_added now horg huser _ _) fun m hm => ?_
        exact absurd hm (by simp [Store.registered, hnone])
    | none =>
        obtain ⟨_, rfl⟩ := Store.commits_pure.mp hjoin
        cases org with
        | none =>
            rw [(Store.commits_pure.mp hown).2]
            exact hregistered
        | some o =>
            obtain ⟨oid, horg, _, _, _, _, rfl⟩ := Store.commits_ownOrg.mp hown
            exact mirrors_enrolled hregistered (change_stamp now _)
              (change_added now horg huser _ _) (hnone oid)

/-- A retry with an invitation is announced; without one it changes neither table. -/
theorem reissue_mirrors {user : User} {challenge : Option OTPChallenge} {invite : Option Invite}
    {acceptedAt : Time} {v : String × Bool} {db' : DB}
    (hok : announced db (.reissuePendingSignup user challenge invite acceptedAt) = true)
    (h : Mirrors db.memberships db.outbox)
    (hc : Store.Commits env now pick
      (Store.reissuePendingSignup now user challenge invite acceptedAt) db v db') : Mirrors
        db'.memberships db'.outbox := by
  cases invite with
  | some invite =>
      obtain ⟨r, org, iid, hhead, horg, hid, hrotates, hexists, hopen, hredeems⟩ :=
        Invitations.commits_reissue_invited hc
      have hburns : Invitations.burns db (.reissue user challenge invite acceptedAt) = false := by
        simpa [announced] using hok
      rw [Invitations.burns_eq hhead horg hid hrotates hexists hopen] at hburns
      rw [hredeems.memberships, hredeems.outbox]
      exact mirrors_joined h (change_added now horg (Uuid.parse_string r.id) _ _)
        (Invitations.notSuspended_of_any hburns)
  | none =>
      obtain ⟨r, _, _, db₁, hrotate, hactivate⟩ := Store.commits_reissuePendingSignup.mp hc
      obtain ⟨_, t, rfl⟩ := Invitations.rotates_of_commits hrotate
      rw [(Store.commits_pure.mp hactivate).2]
      exact h

/-- A purge that takes no membership. -/
theorem purge_mirrors {before : Time} (hok : announced db (.purgeUnverifiedSignups before) = true)
    (h : Mirrors db.memberships db.outbox) :
    Mirrors ((Store.Op.purgeUnverifiedSignups before).exec env now id pick db).2.memberships
      ((Store.Op.purgeUnverifiedSignups before).exec env now id pick db).2.outbox := by
  by_cases hblocked : ∃ t ∈ db.apiTokens, t.userID ∈ purgedIDs db (Store.timestamptz before)
  · obtain ⟨e, hexec⟩ := @Store.exec_purge_blocked env now id pick db before hblocked
    rw [hexec]
    exact h
  · have hfree : ∀ t ∈ db.apiTokens, t.userID ∉ purgedIDs db (Store.timestamptz before) := by
      intro t ht hid
      exact hblocked ⟨t, ht, hid⟩
    have hkept : ∀ m ∈ db.memberships, m.userID ∉ purgedIDs db (Store.timestamptz before) := by
      simpa [announced, hblocked] using hok
    have hn : TableName.outbox ∉ (Store.Op.purgeUnverifiedSignups before).writes := by
      simp [Store.Op.writes]
    have houtbox : ((Store.Op.purgeUnverifiedSignups before).exec env now id pick db).2.outbox =
      db.outbox := Store.exec_same hn now id pick db
    rw [houtbox, (Store.exec_purge hfree).2.2.1]
    have hrows : ∀ m, (m ∈ db.memberships.delete fun m =>
        m.userID ∈ purgedIDs db (Store.timestamptz before)) ↔ m ∈ db.memberships := by
      intro m
      rw [mem_delete, decide_eq_false_iff_not]
      exact ⟨fun hm => hm.1, fun hm => ⟨hm, hkept m hm⟩⟩
    refine replays_congr h fun k => ?_
    unfold statusOf
    rw [Table.find?_congr hrows]

/-- Every store call the service makes keeps the log and the table together, unless it is one of the
two that do not. -/
theorem exec_mirrors {cfg : Config} {call : Call} {o : Store.Op} (hasks : Asks cfg call o)
    (hok : announced db o = true) (hdb : db.Integrity) (h : Mirrors db.memberships db.outbox) :
    Mirrors (o.exec env now id pick db).2.memberships (o.exec env now id pick db).2.outbox := by
  -- a transaction that rolls back leaves both as they were
  have hcommits : ∀ {P : DB → Prop}, P db →
      (∀ v db', Store.Commits env now pick (o.body now id) db v db' → P db') →
      P (o.exec env now id pick db).2 := by
    intro P hsame hc
    rcases Store.exec_commits env now id pick o db with ⟨v, _, hv⟩ | heq
    · exact hc v _ hv
    · rw [heq]
      exact hsame
  cases o with
  | createByEmail email => exact exec_quiet (quiet_createByEmail email) h
  | createByMobile mobile => exact exec_quiet (quiet_createByMobile mobile) h
  | upsertDemoUser email mobile hash name =>
      exact exec_quiet (quiet_upsertDemoUser email mobile hash name) h
  | createOrg org creatorID =>
      refine hcommits (P := fun db => Mirrors db.memberships db.outbox) h fun _ db' hc => ?_
      obtain ⟨oid, uid, horg, huser, _, _, hnew, _, rfl⟩ := Store.commits_createOrg.mp hc
      exact mirrors_enrolled h (change_stamp now _) (change_added now horg huser _ _)
        (find?_of_new_org hdb hnew)
  | addMember orgID userID status =>
      refine hcommits (P := fun db => Mirrors db.memberships db.outbox) h fun _ db' hc => ?_
      obtain ⟨org, user, horg, huser, _, ⟨_, rfl⟩ | ⟨_, _, rfl⟩⟩ := Store.commits_addMember.mp hc
      · exact h
      · exact mirrors_put h (change_added now horg huser _ _)
  | updateMemberStatus orgID userID status =>
      obtain rfl : status = .suspended := hasks
      refine hcommits (P := fun db => Mirrors db.memberships db.outbox) h fun _ db' hc => ?_
      obtain ⟨org, user, m, horg, huser, hfind, rfl⟩ := Store.commits_suspend hc
      obtain ⟨hm, hkey⟩ := find?_eq_some.mp hfind
      obtain ⟨rfl, rfl⟩ := Prod.mk.inj hkey
      dsimp only
      split
      · -- suspended already: the row is written again and nothing announced
        rename_i hstatus
        rw [List.append_nil]
        exact mirrors_rewrite h ((statusOf_of_mem hm).trans (congrArg some hstatus))
      · refine mirrors_put h ?_
        rw [change_stamp]
        exact memberChange_eq horg huser _
  | removeMember orgID userID =>
      refine hcommits (P := fun db => Mirrors db.memberships db.outbox) h fun _ db' hc => ?_
      obtain ⟨org, user, m, horg, huser, _, _, _, rfl⟩ := Store.commits_removeMember.mp hc
      refine mirrors_erase h ?_
      rw [change_stamp]
      exact memberChange_eq horg huser _
  | acceptInvite inviteID orgID userID t =>
      refine hcommits (P := fun db => Mirrors db.memberships db.outbox) h fun _ db' hc => ?_
      obtain ⟨iid, org, user, _, horg, huser, _, hstatus, _, _, rfl⟩ :=
        Store.commits_acceptInvite.mp hc
      exact mirrors_joined h (change_added now horg huser _ _) hstatus
  | createSignupUser user org invite t =>
      exact hcommits (P := fun db => Mirrors db.memberships db.outbox) h fun _ db' hc =>
        createSignupUser_mirrors hdb hasks.2.2.2.2 h hc
  | reissuePendingSignup user challenge invite t =>
      exact hcommits (P := fun db => Mirrors db.memberships db.outbox) h fun _ db' hc =>
        reissue_mirrors hok h hc
  | purgeUnverifiedSignups before => exact purge_mirrors hok h
  | _ => exact exec_mirrors_same (by simp [Store.Op.writes]) (by simp [Store.Op.writes]) h

end Calls

/-! ## Runs -/

/-- The step that thread `i` takes next keeps the log and the table together. -/
def stepAnnounced (p : ServicePool) (i : Nat) (_ : Choice) : Bool :=
  match p.head? i with
  | some (.store o) => announced p.world.db o
  | _ => true

/-- In every interleaving of service calls, as long as no step purges a membership and no retry uses
an invitation to an organization that the account is suspended in, replaying the outbox yields the
membership table. -/
theorem outbox_mirrors (cfg : Config) (calls : List Call) {w : World} (hw : w.db = DB.empty)
    (hnow : w.now ≠ 0) (sched : Schedule)
    (hok : Pool.Along (exec cfg.env) (fun p i c => stepAnnounced p i c = true)
      (serve cfg w calls) sched) :
    let db := (runOn cfg (serve cfg w calls) sched).world.db
    ∀ k, replay (db.outbox.filterMap change) k = statusOf db.memberships k := by
  have hempty : w.db.Integrity ∧ Mirrors w.db.memberships w.db.outbox := by
    rw [hw]
    exact ⟨DB.integrity_empty, replays_nil fun _ => rfl⟩
  have hrun := serve_keeps cfg calls (fun p i c => stepAnnounced p i c = true)
    (fun db => db.Integrity ∧ Mirrors db.memberships db.outbox) ?_ hnow hempty sched hok
  · exact hrun.1.2
  · intro p i c call o hp _ hhead hasks hI now _ id pick
    have hannounced : announced p.world.db o = true := by
      simpa [stepAnnounced, hhead] using hp
    exact ⟨Store.exec_integrity o hI.1, exec_mirrors hasks hannounced hI.1 hI.2⟩

/-- Ann registers with an organization; the address is never verified, and the account is purged. -/
def abandonedCalls : List Call :=
  [.registerWithEmail "ann@example.com" "secret" "Ann" "" "acme" "", .purgeUnverifiedSignups 1500]

set_option maxRecDepth 10000 in
/-- Up to the purge the log tells the truth. -/
theorem outbox_mirrors_registered :
    toyWorld.db = DB.empty ∧ toyWorld.now ≠ 0 ∧
      Pool.Along (exec toyConfig.env) (fun p i c => stepAnnounced p i c = true)
        (serve toyConfig toyWorld abandonedCalls) (turns 0 1000 100 12) ∧
      let db := (runOn toyConfig (serve toyConfig toyWorld abandonedCalls)
        (turns 0 1000 100 12)).world.db
      statusOf db.memberships (Uuid.ofNat 103, Uuid.ofNat 102) = some .active ∧
        ∀ k, replay (db.outbox.filterMap change) k = statusOf db.memberships k := by
  have hok : Pool.Along (exec toyConfig.env) (fun p i c => stepAnnounced p i c = true)
      (serve toyConfig toyWorld abandonedCalls) (turns 0 1000 100 12) := by decide +kernel
  exact ⟨rfl, by decide, hok, by decide +kernel,
    outbox_mirrors toyConfig abandonedCalls rfl (by decide) _ hok⟩

/-- The database after the purge. -/
def purged : DB :=
  (runOn toyConfig (serve toyConfig toyWorld abandonedCalls)
    (turns 0 1000 100 12 ++ turns 1 2000 200 2)).world.db

/-- The database after Bob, who is suspended, has used an invitation. -/
def burnt : DB :=
  (runOn toyConfig (serve toyConfig toyWorld Invitations.inviteCalls)
    (Invitations.invitedSched ++ turns 5 1500 600 7)).world.db

set_option maxRecDepth 10000 in
/-- After the purge the log still lists Ann's membership, and after the retry it lists Bob as an
active member. -/
theorem purge_is_silent :
    (replay (purged.outbox.filterMap change) (Uuid.ofNat 103, Uuid.ofNat 102) = some .active ∧
      statusOf purged.memberships (Uuid.ofNat 103, Uuid.ofNat 102) = none) ∧
    (replay (burnt.outbox.filterMap change) (Uuid.ofNat 103, Uuid.ofNat 202) = some .active ∧
      statusOf burnt.memberships (Uuid.ofNat 103, Uuid.ofNat 202) = some .suspended) := by
  refine ⟨by decide +kernel, by decide +kernel⟩

end EventLog
end Service
end OrbitAuth
