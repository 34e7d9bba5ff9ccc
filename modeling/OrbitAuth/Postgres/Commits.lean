import OrbitAuth.Postgres.Integrity

/-!
# Commits — the store calls that write memberships, as a whole

`Commits p db a db'` says that the transaction `p`, run alone on `db`, gets through with the value
`a` and leaves `db'`.  It is taken apart along the program (`commits_bind`) down to the statements,
so that each call has one lemma that lists what it requires and what it leaves:

* `commits_acceptInvite`, `commits_createSignupUser`, `commits_reissuePendingSignup` — the three
  ways to use an invitation;
* `commits_createOrg`, `commits_addMember`, `commits_restatus`, `commits_removeMember` — the other
  writes of memberships;
* `commits_createInvite`, `commits_revokeInvite` — the other writes of invitations.
-/

namespace OrbitAuth
namespace Postgres
namespace Store

open Domain Foundations

variable {acceptedAt : Time} {context : String} {orgID userID : String} {status : MembershipStatus}
  {org user : Uuid} {m : MembershipRow} {t : Table MembershipRow} {invite : Option Invite}
  {ch : OTPChallenge} {id : Uuid}

/-- Run alone from `db`, the transaction gets through with `a` and leaves `db'`. -/
def Commits {α β : Type} (env : Env) (now : Time) (pick : Nat) (p : Tx β α) (db : DB) (a : α)
    (db' : DB) : Prop :=
  p.run (statement env now) (fun _ => pick) db = (.ok a, db')

section Rules

variable {env : Env} {now : Time} {pick : Nat} {db db' : DB} {α β γ : Type}

/-! ## Along the program -/

theorem commits_bind {p : Tx β α} {f : α → Tx β γ} {c : γ} :
    Commits env now pick (p >>= f) db c db' ↔
      ∃ a db₁, Commits env now pick p db a db₁ ∧ Commits env now pick (f a) db₁ c db' :=
  Program.run_bind_eq_ok

theorem commits_pure {a b : α} :
    Commits env now pick (pure a : Tx β α) db b db' ↔ b = a ∧ db' = db := by
  unfold Commits
  rw [Program.pure_eq, Program.run_done, Prod.mk.injEq, Except.ok.injEq]
  exact ⟨fun h => ⟨h.1.symm, h.2.symm⟩, fun h => ⟨h.1.symm, h.2.symm⟩⟩

theorem not_commits_fail {x : Exit β} {a : α} : ¬ Commits env now pick (.fail x) db a db' := by
  intro h
  cases h

/-- A statement gets through when it succeeds, with its writes. -/
theorem commits_stmt {s : Sql} {v : s.Val} :
    Commits env now pick (stmt context s : Tx β s.Val) db v db' ↔
      ∃ ws, s.eval env now pick db = .ok (v, ws) ∧ db' = db.applyAll ws := by
  unfold Commits stmt
  rw [Program.run_call]
  cases heval : s.eval env now pick db with
  | error e => simp [statement, heval, fault]
  | ok out =>
      rcases out with ⟨u, ws⟩
      simp only [statement, heval, Program.run_done, Prod.mk.injEq, Except.ok.injEq]
      constructor
      · rintro ⟨rfl, rfl⟩
        exact ⟨ws, ⟨rfl, rfl⟩, rfl⟩
      · rintro ⟨ws', ⟨rfl, rfl⟩, rfl⟩
        exact ⟨rfl, rfl⟩

theorem commits_parseID {kind value : String} {u : Uuid} :
    Commits env now pick (parseID kind value : Tx β Uuid) db u db' ↔
      Uuid.parse value = some u ∧ db' = db := by
  unfold parseID
  cases hparse : Uuid.parse value with
  | none =>
      constructor
      · exact fun h => absurd h not_commits_fail
      · rintro ⟨h, _⟩
        cases h
  | some u' =>
      rw [Option.some.injEq]
      exact commits_pure.trans (and_congr_left fun _ => eq_comm)

theorem commits_failIf {c : Bool} {e : Err} :
    Commits env now pick (failIf c e : Tx β Unit) db () db' ↔ c = false ∧ db' = db := by
  unfold failIf
  cases c with
  | true =>
      constructor
      · exact fun h => absurd h not_commits_fail
      · rintro ⟨h, _⟩
        cases h
  | false =>
      rw [if_neg Bool.false_ne_true]
      exact ⟨fun h => ⟨rfl, (commits_pure.mp h).2⟩, fun h => commits_pure.mpr ⟨rfl, h.2⟩⟩

/-- A transaction of one statement that has its own answer to a missing row. -/
theorem commits_stmtOne {missing : Err} {s : Sql} {v : s.Val} :
    Commits env now pick (stmtOne missing s : Tx β s.Val) db v db' ↔
      ∃ ws, s.eval env now pick db = .ok (v, ws) ∧ db' = db.applyAll ws := by
  unfold Commits stmtOne
  rw [Program.run_call]
  cases heval : s.eval env now pick db with
  | error e => cases e <;> simp [statement, heval, fault]
  | ok out =>
      rcases out with ⟨u, ws⟩
      simp only [statement, heval, Program.run_done, Prod.mk.injEq, Except.ok.injEq]
      constructor
      · rintro ⟨rfl, rfl⟩
        exact ⟨ws, ⟨rfl, rfl⟩, rfl⟩
      · rintro ⟨ws', ⟨rfl, rfl⟩, rfl⟩
        exact ⟨rfl, rfl⟩

/-! ## Statements -/

/-- The database after some events. -/
def emitted (db : DB) (es : List Event) : DB :=
  { db with outbox := db.outbox ++ es }

theorem commits_emitEvents {es : List Event} :
    Commits env now pick (emitEvents now es : Tx β Unit) db () db' ↔
      db' = emitted db (es.map (stamp now)) := by
  induction es generalizing db with
  | nil =>
      refine commits_pure.trans ?_
      simp [emitted]
  | cons e es ih =>
      refine commits_bind.trans ?_
      constructor
      · rintro ⟨_, db₁, hstmt, hrest⟩
        obtain ⟨ws, heval, rfl⟩ := commits_stmt.mp hstmt
        cases heval
        rw [ih.mp hrest]
        simp [emitted, DB.apply]
      · rintro rfl
        refine ⟨(), _, commits_stmt.mpr ⟨_, rfl, rfl⟩, ih.mpr ?_⟩
        simp [emitted, DB.apply]

theorem commits_lockOrganization {org : Uuid} :
    Commits env now pick (lockOrganization org : Tx β Unit) db () db' ↔
      (∃ o ∈ db.orgs, o.id = org) ∧ db' = db := by
  refine commits_stmtOne.trans ?_
  simp only [Sql.eval, Postgres.lockOrganization]
  cases hfind : db.orgs.find? org with
  | none =>
      have hnone := find?_eq_none.mp hfind
      constructor
      · rintro ⟨ws, heval, _⟩
        cases heval
      · rintro ⟨⟨o, ho, hid⟩, _⟩
        exact absurd hid (hnone o ho)
  | some o =>
      obtain ⟨ho, hid⟩ := find?_eq_some.mp hfind
      constructor
      · rintro ⟨ws, heval, rfl⟩
        cases heval
        exact ⟨⟨o, ho, hid⟩, rfl⟩
      · rintro ⟨_, rfl⟩
        exact ⟨[], rfl, rfl⟩

theorem commits_getMembershipRow {m : Option Membership} :
    Commits env now pick (getMembershipRow org user : Tx β (Option Membership)) db m db' ↔
      m = (db.memberships.find? (org, user)).map MembershipRow.membership ∧ db' = db := by
  unfold Commits getMembershipRow
  rw [Program.run_call]
  cases hfind : db.memberships.find? (org, user) with
  | none => simp [statement, Sql.eval, getOrganizationMembership, hfind, one, eq_comm]
  | some r => simp [statement, Sql.eval, getOrganizationMembership, hfind, one, eq_comm]

/-- A membership of the two can be written: there is one, or both exist. -/
def Admits (db : DB) (org user : Uuid) : Prop :=
  (db.memberships.find? (org, user)).isSome = true ∨
    (∃ o ∈ db.orgs, o.id = org) ∧ ∃ u ∈ db.users, u.id = user

/-- The membership table after `ON CONFLICT DO NOTHING`. -/
def enrolled (now : Time) (t : Table MembershipRow) (org user : Uuid) (status : MembershipStatus) :
    Table MembershipRow :=
  match t.find? (org, user) with
  | some _ => t
  | none => t.put ⟨org, user, status, now, now⟩

theorem commits_addOrganizationMembership :
    Commits env now pick (stmt context (.addOrganizationMembership org user status) : Tx β Unit) db
        () db' ↔
      Admits db org user ∧
        db' = { db with memberships := enrolled now db.memberships org user status } := by
  refine commits_stmt.trans ?_
  simp only [Sql.eval, addOrganizationMembership, Admits, ← membershipRefs_iff, enrolled]
  cases hfind : db.memberships.find? (org, user) with
  | some m => simp
  | none =>
      by_cases hrefs : membershipRefs db org user = true
      · simp [hrefs, DB.apply]
      · simp [hrefs]

/-- The membership table after an invitation was used. -/
def joined (now : Time) (t : Table MembershipRow) (org user : Uuid) : Table MembershipRow :=
  match t.find? (org, user) with
  | some m => if m.status = .invited then t.put (m.restatused now .active) else t
  | none => t.put ⟨org, user, .active, now, now⟩

/-- Both kinds of inserts leave the memberships of other accounts alone. -/
theorem mem_put_other {x m : MembershipRow} (h : m.userID ≠ x.userID) : m ∈ t.put x ↔ m ∈ t := by
  rw [mem_put]
  constructor
  · rintro (rfl | ⟨hm, _⟩)
    · exact absurd rfl h
    · exact hm
  · intro hm
    refine .inr ⟨hm, fun hkey => h ?_⟩
    exact (Prod.mk.inj hkey).2

theorem mem_enrolled_of_mem (hm : m ∈ t) : m ∈ enrolled now t org user status := by
  unfold enrolled
  cases hfind : t.find? (org, user) with
  | some _ => exact hm
  | none =>
      refine mem_put.mpr (.inr ⟨hm, ?_⟩)
      exact find?_eq_none.mp hfind m hm

theorem mem_enrolled_other (h : m.userID ≠ user) : m ∈ enrolled now t org user status ↔ m ∈ t := by
  unfold enrolled
  split
  · exact Iff.rfl
  · exact mem_put_other h

/-- After either the two have a membership. -/
theorem exists_enrolled (now : Time) (t : Table MembershipRow) (org user : Uuid)
    (status : MembershipStatus) :
    ∃ m ∈ enrolled now t org user status, m.orgID = org ∧ m.userID = user := by
  unfold enrolled
  cases hfind : t.find? (org, user) with
  | some m =>
      obtain ⟨hm, hkey⟩ := find?_eq_some.mp hfind
      exact ⟨m, hm, Prod.mk.inj hkey⟩
  | none => exact ⟨_, mem_put.mpr (.inl rfl), rfl, rfl⟩

theorem exists_joined (now : Time) (t : Table MembershipRow) (org user : Uuid) :
    ∃ m ∈ joined now t org user, m.orgID = org ∧ m.userID = user := by
  unfold joined
  cases hfind : t.find? (org, user) with
  | some m =>
      obtain ⟨hm, hkey⟩ := find?_eq_some.mp hfind
      dsimp only
      split
      · exact ⟨_, mem_put.mpr (.inl rfl), Prod.mk.inj hkey⟩
      · exact ⟨m, hm, Prod.mk.inj hkey⟩
  | none => exact ⟨_, mem_put.mpr (.inl rfl), rfl, rfl⟩

theorem mem_joined_other (h : m.userID ≠ user) : m ∈ joined now t org user ↔ m ∈ t := by
  unfold joined
  split
  · rename_i r hfind
    split
    · refine mem_put_other fun heq => h ?_
      have hkey := (find?_eq_some.mp hfind).2
      exact heq.trans (Prod.mk.inj hkey).2
    · exact Iff.rfl
  · exact mem_put_other h

theorem commits_addActiveOrganizationMembership :
    Commits env now pick (stmt context (.addActiveOrganizationMembership org user) : Tx β Unit) db
        () db' ↔
      Admits db org user ∧ db' = { db with memberships := joined now db.memberships org user } := by
  refine commits_stmt.trans ?_
  simp only [Sql.eval, addActiveOrganizationMembership, Admits, ← membershipRefs_iff, joined]
  cases hfind : db.memberships.find? (org, user) with
  | some m =>
      by_cases hinvited : m.status = .invited
      · simp [hinvited, DB.apply, MembershipRow.restatused]
      · simp [hinvited]
  | none =>
      by_cases hrefs : membershipRefs db org user = true
      · simp [hrefs, DB.apply]
      · simp [hrefs]

theorem commits_acceptOrganizationInvite {id org : Uuid} {acceptedAt : Option Time} {n : Nat} :
    Commits env now pick (stmt context (.acceptOrganizationInvite id org acceptedAt) : Tx β Nat) db
        n db' ↔
      n = (db.invites.select (InviteRow.stillPending id org)).length ∧
        db' = { db with invites :=
          db.invites.update (InviteRow.stillPending id org) (InviteRow.accepted acceptedAt) } := by
  refine commits_stmt.trans ?_
  simp only [Sql.eval, acceptOrganizationInvite, Except.ok.injEq, Prod.mk.injEq]
  constructor
  · rintro ⟨ws, ⟨rfl, rfl⟩, rfl⟩
    exact ⟨rfl, DB.applyAll_putInvites db _⟩
  · rintro ⟨rfl, rfl⟩
    exact ⟨_, ⟨rfl, rfl⟩, (DB.applyAll_putInvites db _).symm⟩

/-! ## Using an invitation -/

/-- The database after an invitation was used: it is accepted, the account has joined and the event
is out. -/
def consumed (now : Time) (db : DB) (inviteID org user : Uuid) (acceptedAt : Option Time)
    (event : Event) : DB :=
  { db with
    invites := db.invites.update (InviteRow.stillPending inviteID org)
      (InviteRow.accepted acceptedAt)
    memberships := joined now db.memberships org user
    outbox := db.outbox ++ [event] }

/-- The invitation is still pending. -/
def Open (db : DB) (inviteID org : Uuid) : Prop :=
  ∃ i ∈ db.invites, i.stillPending inviteID org = true

theorem select_length_eq_zero {ρ κ : Type} [Keyed ρ κ] {t : Table ρ} {p : ρ → Bool} :
    (t.select p).length = 0 ↔ ∀ r ∈ t, p r = false := by
  rw [List.length_eq_zero_iff, Table.select, List.filter_eq_nil_iff]
  simp [Table.mem_def]

theorem commits_consumeInvite {contexts : String × String} {inviteID org user : Uuid}
    {orgText userText : String} {acceptedAt occurredAt : Time} :
    Commits env now pick (consumeInvite now contexts inviteID org user orgText userText acceptedAt
        occurredAt : Tx β Unit) db () db' ↔
      Open db inviteID org ∧ Admits db org user ∧
        db' = consumed now db inviteID org user (timestamptz acceptedAt)
          (stamp now (.membershipAdded orgText userText .active occurredAt)) := by
  constructor
  · intro h
    obtain ⟨n, db₁, haccept, h⟩ := commits_bind.mp h
    obtain ⟨rfl, rfl⟩ := commits_acceptOrganizationInvite.mp haccept
    obtain ⟨_, db₂, hcheck, h⟩ := commits_bind.mp h
    obtain ⟨hsome, rfl⟩ := commits_failIf.mp hcheck
    obtain ⟨_, db₃, hadd, h⟩ := commits_bind.mp h
    obtain ⟨hadmits, rfl⟩ := commits_addActiveOrganizationMembership.mp hadd
    -- the update counted a row, so there was one to accept
    refine ⟨?_, hadmits, commits_emitEvents.mp h⟩
    by_contra hnone
    have hzero := select_length_eq_zero.mpr fun r hr => by
      by_contra hp
      exact hnone ⟨r, hr, by simpa using hp⟩
    exact absurd hzero (by simpa using hsome)
  · rintro ⟨⟨i, hi, hpending⟩, hadmits, rfl⟩
    refine commits_bind.mpr ⟨_, _, commits_acceptOrganizationInvite.mpr ⟨rfl, rfl⟩, ?_⟩
    refine commits_bind.mpr ⟨(), _, commits_failIf.mpr ⟨?_, rfl⟩, ?_⟩
    · rw [decide_eq_false_iff_not, select_length_eq_zero]
      intro hall
      rw [hall i hi] at hpending
      cases hpending
    · refine commits_bind.mpr
        ⟨(), _, commits_addActiveOrganizationMembership.mpr ⟨hadmits, rfl⟩, ?_⟩
      exact commits_emitEvents.mpr rfl

/-- Both pairs of identifiers are parsed the same way. -/
theorem commits_parseTwo {kind kind' value value' : String} {ids : Uuid × Uuid} :
    Commits env now pick (do
        let u ← parseID kind value
        let v ← parseID kind' value'
        pure (u, v) : Tx β (Uuid × Uuid)) db ids db' ↔
      Uuid.parse value = some ids.1 ∧ Uuid.parse value' = some ids.2 ∧ db' = db := by
  constructor
  · intro h
    obtain ⟨u, db₁, hp₁, h₁⟩ := commits_bind.mp h
    obtain ⟨hu, rfl⟩ := commits_parseID.mp hp₁
    obtain ⟨v, db₂, hp₂, h₂⟩ := commits_bind.mp h₁
    obtain ⟨hv, rfl⟩ := commits_parseID.mp hp₂
    obtain ⟨rfl, rfl⟩ := commits_pure.mp h₂
    exact ⟨hu, hv, rfl⟩
  · rintro ⟨hu, hv, rfl⟩
    refine commits_bind.mpr ⟨_, _, commits_parseID.mpr ⟨hu, rfl⟩, ?_⟩
    refine commits_bind.mpr ⟨_, _, commits_parseID.mpr ⟨hv, rfl⟩, ?_⟩
    exact commits_pure.mpr ⟨rfl, rfl⟩

theorem commits_membershipIDs {ids : Uuid × Uuid} :
    Commits env now pick (membershipIDs orgID userID : Tx β (Uuid × Uuid)) db ids db' ↔
      Uuid.parse orgID = some ids.1 ∧ Uuid.parse userID = some ids.2 ∧ db' = db :=
  commits_parseTwo

theorem commits_inviteIDs {orgID inviteID : String} {ids : Uuid × Uuid} :
    Commits env now pick (inviteIDs orgID inviteID : Tx β (Uuid × Uuid)) db ids db' ↔
      Uuid.parse orgID = some ids.1 ∧ Uuid.parse inviteID = some ids.2 ∧ db' = db :=
  commits_parseTwo

/-- The member is not suspended. -/
def NotSuspended (db : DB) (org user : Uuid) : Prop :=
  ∀ m, db.memberships.find? (org, user) = some m → m.status ≠ .suspended

theorem commits_refuseSuspended :
    Commits env now pick (refuseSuspended org user) db () db' ↔ NotSuspended db org user ∧
    db' = db := by
  unfold NotSuspended
  constructor
  · intro h
    obtain ⟨m, db₁, hget, hcheck⟩ := commits_bind.mp h
    obtain ⟨rfl, rfl⟩ := commits_getMembershipRow.mp hget
    cases hfind : db₁.memberships.find? (org, user) with
    -- somebody who has no membership is not suspended
    | none =>
        rw [hfind] at hcheck
        obtain ⟨_, rfl⟩ := commits_pure.mp hcheck
        refine ⟨fun m hm => ?_, rfl⟩
        cases hm
    | some r =>
        rw [hfind] at hcheck
        obtain ⟨hstatus, rfl⟩ := commits_failIf.mp hcheck
        refine ⟨fun m hm => ?_, rfl⟩
        cases hm
        exact of_decide_eq_false hstatus
  · rintro ⟨hstatus, rfl⟩
    refine commits_bind.mpr ⟨_, _, commits_getMembershipRow.mpr ⟨rfl, rfl⟩, ?_⟩
    cases hfind : db'.memberships.find? (org, user) with
    | none => exact commits_pure.mpr ⟨rfl, rfl⟩
    | some r =>
        exact commits_failIf.mpr ⟨decide_eq_false (hstatus r hfind), rfl⟩

/-- `AcceptInvite`. -/
theorem commits_acceptInvite {inviteID orgID userID : String} :
    Commits env now pick (acceptInvite now inviteID orgID userID acceptedAt) db () db' ↔
      ∃ id org user, Uuid.parse inviteID = some id ∧ Uuid.parse orgID = some org ∧
        Uuid.parse userID = some user ∧ (∃ o ∈ db.orgs, o.id = org) ∧ NotSuspended db org user ∧
        Open db id org ∧ Admits db org user ∧
        db' = consumed now db id org user (timestamptz acceptedAt)
          (stamp now (.membershipAdded orgID userID .active acceptedAt)) := by
  constructor
  · intro h
    obtain ⟨⟨org, id⟩, db₁, hids, h₁⟩ := commits_bind.mp h
    obtain ⟨horg, hid, rfl⟩ := commits_inviteIDs.mp hids
    obtain ⟨user, db₂, hparse, h₂⟩ := commits_bind.mp h₁
    obtain ⟨huser, rfl⟩ := commits_parseID.mp hparse
    obtain ⟨_, db₃, hlock, h₃⟩ := commits_bind.mp h₂
    obtain ⟨hexists, rfl⟩ := commits_lockOrganization.mp hlock
    obtain ⟨_, db₄, hcheck, h₄⟩ := commits_bind.mp h₃
    obtain ⟨hstatus, rfl⟩ := commits_refuseSuspended.mp hcheck
    exact ⟨id, org, user, hid, horg, huser, hexists, hstatus, commits_consumeInvite.mp h₄⟩
  · rintro ⟨id, org, user, hid, horg, huser, hexists, hstatus, h⟩
    refine commits_bind.mpr ⟨(org, id), _, commits_inviteIDs.mpr ⟨horg, hid, rfl⟩, ?_⟩
    refine commits_bind.mpr ⟨_, _, commits_parseID.mpr ⟨huser, rfl⟩, ?_⟩
    refine commits_bind.mpr ⟨(), _, commits_lockOrganization.mpr ⟨hexists, rfl⟩, ?_⟩
    refine commits_bind.mpr ⟨(), _, commits_refuseSuspended.mpr ⟨hstatus, rfl⟩, ?_⟩
    exact commits_consumeInvite.mpr h

/-! ## Sign-up -/

/-- The invitation part of `CreateSignupUser`. -/
theorem commits_joinInvite {userID : Uuid} {userText : String} {acceptedAt occurredAt : Time}
    {invite : Invite} :
    Commits env now pick (joinInvite now userID userText acceptedAt occurredAt (some invite)) db ()
        db' ↔
      ∃ org id, Uuid.parse invite.orgID = some org ∧ Uuid.parse invite.id = some id ∧
        (∃ o ∈ db.orgs, o.id = org) ∧ Open db id org ∧ Admits db org userID ∧
        db' = consumed now db id org userID (timestamptz acceptedAt)
          (stamp now (.membershipAdded invite.orgID userText .active occurredAt)) := by
  constructor
  · intro h
    obtain ⟨org, db₁, hp₁, h₁⟩ := commits_bind.mp h
    obtain ⟨horg, rfl⟩ := commits_parseID.mp hp₁
    obtain ⟨id, db₂, hp₂, h₂⟩ := commits_bind.mp h₁
    obtain ⟨hid, rfl⟩ := commits_parseID.mp hp₂
    obtain ⟨_, db₃, hlock, h₃⟩ := commits_bind.mp h₂
    obtain ⟨hexists, rfl⟩ := commits_lockOrganization.mp hlock
    exact ⟨org, id, horg, hid, hexists, commits_consumeInvite.mp h₃⟩
  · rintro ⟨org, id, horg, hid, hexists, h⟩
    refine commits_bind.mpr ⟨_, _, commits_parseID.mpr ⟨horg, rfl⟩, ?_⟩
    refine commits_bind.mpr ⟨_, _, commits_parseID.mpr ⟨hid, rfl⟩, ?_⟩
    refine commits_bind.mpr ⟨(), _, commits_lockOrganization.mpr ⟨hexists, rfl⟩, ?_⟩
    exact commits_consumeInvite.mpr h

/-- A new organization with its first member. -/
def organized (now : Time) (db : DB) (org : OrgRow) (user : Uuid) (events : List Event) : DB :=
  { db with
    orgs := db.orgs.put org
    memberships := enrolled now db.memberships org.id user .active
    outbox := db.outbox ++ events }

theorem commits_createOrganization {name : String} {created updated : Option Time} :
    Commits env now pick (stmt context (.createOrganization id name created updated) : Tx β Unit) db
        () db' ↔
      ∃ t t', created = some t ∧ updated = some t' ∧ (∀ o ∈ db.orgs, o.id ≠ id) ∧
        db' = { db with orgs := db.orgs.put ⟨id, name, t, t'⟩ } := by
  refine commits_stmt.trans ?_
  simp only [Sql.eval, createOrganization]
  cases created with
  | none => simp
  | some t =>
      cases updated with
      | none => simp
      | some t' =>
          by_cases hfree : db.orgs.any (fun o => o.id = id) = true
          · have hfree' : ¬ ∀ o ∈ db.orgs, o.id ≠ id := by simpa using hfree
            simp only [hfree, if_true, reduceCtorEq, false_and, exists_false, false_iff]
            rintro ⟨_, _, _, _, h, _⟩
            exact hfree' h
          · have hfree' : ∀ o ∈ db.orgs, o.id ≠ id := by simpa using hfree
            dsimp only
            rw [if_neg hfree]
            simpa [DB.apply] using fun _ => hfree'

/-- An organization with its first member: `CreateOrg`, and the organization part of
`CreateSignupUser`. -/
theorem commits_found {create add : String} {orgID userID : Uuid} {name : String}
    {created updated : Time} {events : List Event} :
    Commits env now pick (do
        stmt create (.createOrganization orgID name (timestamptz created) (timestamptz updated))
        stmt add (.addOrganizationMembership orgID userID .active)
        emitEvents now events : Tx β Unit) db () db' ↔
      created ≠ 0 ∧ updated ≠ 0 ∧ (∀ o ∈ db.orgs, o.id ≠ orgID) ∧
        Admits { db with orgs := db.orgs.put ⟨orgID, name, created, updated⟩ } orgID userID ∧
        db' = organized now db ⟨orgID, name, created, updated⟩ userID (events.map (stamp now)) := by
  -- a zero time reaches the database as NULL, which both columns refuse
  have hstamp : ∀ {t t' : Time}, timestamptz t = some t' ↔ t ≠ 0 ∧ t' = t := by
    intro t t'
    by_cases ht : t = 0 <;> simp [timestamptz, ht, eq_comm]
  constructor
  · intro h
    obtain ⟨_, db₁, horg, h₁⟩ := commits_bind.mp h
    obtain ⟨t, t', hcreated, hupdated, hfree, rfl⟩ := commits_createOrganization.mp horg
    obtain ⟨hcreated, rfl⟩ := hstamp.mp hcreated
    obtain ⟨hupdated, rfl⟩ := hstamp.mp hupdated
    obtain ⟨_, db₂, hadd, h₂⟩ := commits_bind.mp h₁
    obtain ⟨hadmits, rfl⟩ := commits_addOrganizationMembership.mp hadd
    exact ⟨hcreated, hupdated, hfree, hadmits, commits_emitEvents.mp h₂⟩
  · rintro ⟨hcreated, hupdated, hfree, hadmits, rfl⟩
    refine commits_bind.mpr ⟨(), _, commits_createOrganization.mpr
      ⟨_, _, hstamp.mpr ⟨hcreated, rfl⟩, hstamp.mpr ⟨hupdated, rfl⟩, hfree, rfl⟩, ?_⟩
    refine commits_bind.mpr ⟨(), _, commits_addOrganizationMembership.mpr ⟨hadmits, rfl⟩, ?_⟩
    exact commits_emitEvents.mpr rfl

/-- `CreateOrg`. -/
theorem commits_createOrg {org : Organization} {creatorID : String} :
    Commits env now pick (createOrg now org creatorID) db () db' ↔
      ∃ orgID userID, Uuid.parse org.id = some orgID ∧ Uuid.parse creatorID = some userID ∧
        org.createdAt ≠ 0 ∧ org.updatedAt ≠ 0 ∧ (∀ o ∈ db.orgs, o.id ≠ orgID) ∧
        Admits { db with orgs := db.orgs.put ⟨orgID, org.name, org.createdAt, org.updatedAt⟩ } orgID
          userID ∧
        db' = organized now db ⟨orgID, org.name, org.createdAt, org.updatedAt⟩ userID
          [stamp now (.orgCreated org.id org.name (orNow now org.createdAt)),
            stamp now (.membershipAdded org.id creatorID .active (orNow now org.createdAt))] := by
  constructor
  · intro h
    obtain ⟨orgID, db₁, hp₁, h₁⟩ := commits_bind.mp h
    obtain ⟨horg, rfl⟩ := commits_parseID.mp hp₁
    obtain ⟨userID, db₂, hp₂, h₂⟩ := commits_bind.mp h₁
    obtain ⟨huser, rfl⟩ := commits_parseID.mp hp₂
    exact ⟨orgID, userID, horg, huser, commits_found.mp h₂⟩
  · rintro ⟨orgID, userID, horg, huser, h⟩
    refine commits_bind.mpr ⟨_, _, commits_parseID.mpr ⟨horg, rfl⟩, ?_⟩
    refine commits_bind.mpr ⟨_, _, commits_parseID.mpr ⟨huser, rfl⟩, ?_⟩
    exact commits_found.mpr h

/-- The organization part of `CreateSignupUser`. -/
theorem commits_ownOrg {userID : Uuid} {userText : String} {occurredAt : Time}
    {org : Organization} :
    Commits env now pick (ownOrg now userID userText occurredAt (some org)) db () db' ↔
      ∃ orgID, Uuid.parse org.id = some orgID ∧
        org.createdAt ≠ 0 ∧ org.updatedAt ≠ 0 ∧ (∀ o ∈ db.orgs, o.id ≠ orgID) ∧
        Admits { db with orgs := db.orgs.put ⟨orgID, org.name, org.createdAt, org.updatedAt⟩ } orgID
          userID ∧
        db' = organized now db ⟨orgID, org.name, org.createdAt, org.updatedAt⟩ userID
          [stamp now (.orgCreated org.id org.name occurredAt),
            stamp now (.membershipAdded org.id userText .active occurredAt)] := by
  constructor
  · intro h
    obtain ⟨orgID, db₁, hp₁, h₁⟩ := commits_bind.mp h
    obtain ⟨horg, rfl⟩ := commits_parseID.mp hp₁
    exact ⟨orgID, horg, commits_found.mp h₁⟩
  · rintro ⟨orgID, horg, h⟩
    refine commits_bind.mpr ⟨_, _, commits_parseID.mpr ⟨horg, rfl⟩, ?_⟩
    exact commits_found.mpr h

/-- The row `CreateSignupUser` inserts. -/
def signupRow (now : Time) (id : Uuid) (user : User) (acceptedAt : Time) : UserRow :=
  newUser now id (some user.email) none (some user.passwordHash) (some user.displayName) user.status
    (if user.emailVerified then timestamptz acceptedAt else none)

/-- The database after the insert of a sign-up and its event. -/
def registered (now : Time) (db : DB) (id : Uuid) (user : User) (acceptedAt : Time) : DB :=
  { db with
    users := db.users.put (signupRow now id user acceptedAt)
    outbox := db.outbox ++ [stamp now (.userCreated user.id (orNow now acceptedAt))] }

theorem commits_createSignupUser_insert {user : User} {n : Nat} :
    Commits env now pick (stmt context (.createSignupUser id user.email user.passwordHash
        user.displayName user.status
          (if user.emailVerified then timestamptz acceptedAt else none)) :
          Tx β Nat) db n db' ↔
      (∃ r ∈ db.users, r.email = some user.email) ∧ n = 0 ∧ db' = db ∨
        Untaken db.users (signupRow now id user acceptedAt) ∧ n = 1 ∧
          db' = { db with users := db.users.put (signupRow now id user acceptedAt) } := by
  refine commits_stmt.trans ?_
  simp only [Sql.eval, Postgres.createSignupUser]
  by_cases hemail : (db.users.any fun r => r.email = some user.email) = true
  -- ON CONFLICT (email) DO NOTHING: nothing is inserted, and that is no error
  · have hemail' : ∃ r ∈ db.users, r.email = some user.email := by simpa using hemail
    have htaken : ¬ Untaken db.users (signupRow now id user acceptedAt) := by
      intro hfree
      obtain ⟨r, hr, he⟩ := hemail'
      exact (hfree r hr).2.1 user.email rfl he
    rw [if_pos hemail]
    constructor
    · rintro ⟨ws, hok, rfl⟩
      cases hok
      exact .inl ⟨hemail', rfl, rfl⟩
    · rintro (⟨_, rfl, rfl⟩ | ⟨hfree, _⟩)
      · exact ⟨[], rfl, rfl⟩
      · exact absurd hfree htaken
  -- a conflict on the identifier is an error
  · have hemail' : ¬ ∃ r ∈ db.users, r.email = some user.email := by simpa using hemail
    rw [if_neg hemail]
    change (∃ ws, (insertUser db (signupRow now id user acceptedAt)).map _ = _ ∧ _) ↔ _
    constructor
    · rintro ⟨ws, hins, rfl⟩
      cases hi : insertUser db (signupRow now id user acceptedAt) with
      | error e =>
          rw [hi] at hins
          cases hins
      | ok out =>
          rw [hi] at hins
          cases hins
          obtain ⟨hfree, hws⟩ :=
            insertUser_eq_ok (show insertUser db _ = .ok (out.1, out.2) from hi)
          rw [hws]
          exact .inr ⟨hfree, rfl, rfl⟩
    · rintro (⟨h, _⟩ | ⟨hfree, rfl, rfl⟩)
      · exact absurd h hemail'
      · refine ⟨[.putUser (signupRow now id user acceptedAt)], ?_, rfl⟩
        rw [insertUser, taken_of_untaken hfree]
        rfl

/-- `CreateSignupUser`: nothing for an address that has an account, else the account with what came
with it. -/
theorem commits_createSignupUser {user : User} {org : Option Organization} {created : Bool} :
    Commits env now pick (createSignupUser now user org invite acceptedAt) db created db' ↔
      ∃ id, Uuid.parse user.id = some id ∧
        ((∃ r ∈ db.users, r.email = some user.email) ∧ created = false ∧ db' = db ∨
          Untaken db.users (signupRow now id user acceptedAt) ∧ created = true ∧
            ∃ db₁, Commits env now pick (joinInvite now id user.id acceptedAt (orNow now acceptedAt)
                invite) (registered now db id user acceptedAt) () db₁ ∧
              Commits env now pick (ownOrg now id user.id (orNow now acceptedAt) org)
                db₁ () db') := by
  constructor
  · intro h
    obtain ⟨id, db₁, hp, h₁⟩ := commits_bind.mp h
    obtain ⟨hid, rfl⟩ := commits_parseID.mp hp
    obtain ⟨n, db₂, hins, h₂⟩ := commits_bind.mp h₁
    refine ⟨id, hid, ?_⟩
    rcases commits_createSignupUser_insert.mp hins with ⟨hemail, rfl, rfl⟩ | ⟨hfree, rfl, rfl⟩
    -- the address has an account, and the transaction ends here
    · rw [if_pos rfl] at h₂
      obtain ⟨rfl, rfl⟩ := commits_pure.mp h₂
      exact .inl ⟨hemail, rfl, rfl⟩
    · rw [if_neg Nat.one_ne_zero] at h₂
      obtain ⟨_, db₃, hevent, h₃⟩ := commits_bind.mp h₂
      have hevent := commits_emitEvents.mp hevent
      subst hevent
      obtain ⟨_, db₄, hjoin, h₄⟩ := commits_bind.mp h₃
      obtain ⟨_, db₅, hown, h₅⟩ := commits_bind.mp h₄
      obtain ⟨rfl, rfl⟩ := commits_pure.mp h₅
      exact .inr ⟨hfree, rfl, db₄, hjoin, hown⟩
  · rintro ⟨id, hid, ⟨hemail, rfl, rfl⟩ | ⟨hfree, rfl, db₁, hjoin, hown⟩⟩
    · refine commits_bind.mpr ⟨_, _, commits_parseID.mpr ⟨hid, rfl⟩, ?_⟩
      refine commits_bind.mpr
        ⟨0, _, commits_createSignupUser_insert.mpr (.inl ⟨hemail, rfl, rfl⟩), ?_⟩
      exact commits_pure.mpr ⟨rfl, rfl⟩
    · refine commits_bind.mpr ⟨_, _, commits_parseID.mpr ⟨hid, rfl⟩, ?_⟩
      refine commits_bind.mpr
        ⟨1, _, commits_createSignupUser_insert.mpr (.inr ⟨hfree, rfl, rfl⟩), ?_⟩
      refine commits_bind.mpr ⟨(), _, commits_emitEvents.mpr rfl, ?_⟩
      refine commits_bind.mpr ⟨(), _, hjoin, ?_⟩
      refine commits_bind.mpr ⟨(), _, hown, ?_⟩
      exact commits_pure.mpr ⟨rfl, rfl⟩

/-- The row of a new challenge. -/
def challengeRow (id : Uuid) (ch : OTPChallenge) (createdAt : Time) : ChallengeRow where
  id := id
  identifier := ch.identifier
  channel := ch.channel
  codeHash := ch.codeHash
  expiresAt := ch.expiresAt
  attempts := 0
  createdAt := createdAt

theorem commits_upsertChallenge {created : Time} :
    Commits env now pick (stmt context (.upsertChallenge id ch.identifier ch.channel ch.codeHash
        (timestamptz ch.expiresAt) (timestamptz created)) : Tx β Unit) db () db' ↔
      ch.expiresAt ≠ 0 ∧ created ≠ 0 ∧ (∀ r ∈ db.challenges, r.id ≠ id) ∧
        db' = { db with challenges := db.challenges.put (challengeRow id ch created) } := by
  refine commits_stmt.trans ?_
  -- a zero time is NULL, which both columns refuse
  by_cases hexpires : ch.expiresAt = 0
  · simp [Sql.eval, Postgres.upsertChallenge, timestamptz, hexpires]
  · by_cases hcreated : created = 0
    · simp [Sql.eval, Postgres.upsertChallenge, timestamptz, hexpires, hcreated]
    · simp only [Sql.eval, Postgres.upsertChallenge, timestamptz, hexpires, hcreated, if_false]
      by_cases htaken : (db.challenges.any fun r => r.id = id) = true
      · rw [if_pos htaken]
        have htaken' : ¬ ∀ r ∈ db.challenges, r.id ≠ id := by simpa using htaken
        constructor
        · rintro ⟨ws, h, _⟩
          cases h
        · rintro ⟨_, _, h, _⟩
          exact absurd h htaken'
      · rw [if_neg htaken]
        have hfree : ∀ r ∈ db.challenges, r.id ≠ id := by simpa using htaken
        constructor
        · rintro ⟨ws, h, rfl⟩
          cases h
          exact ⟨hexpires, hcreated, hfree, rfl⟩
        · rintro ⟨_, _, _, rfl⟩
          exact ⟨_, rfl, rfl⟩

/-- The challenges after those of an address were replaced by `ch`. -/
def rotated (t : Table ChallengeRow) (id : Uuid) (ch : OTPChallenge) (createdAt : Time) :
    Table ChallengeRow :=
  (t.delete (ChallengeRow.addressedTo ch.identifier ch.channel)).put (challengeRow id ch createdAt)

theorem commits_deleteChallengesForIdentifier {context identifier channel : String} :
    Commits env now pick
        (stmt context (.deleteChallengesForIdentifier identifier channel) : Tx β Unit) db () db' ↔
      db' = { db with challenges :=
        db.challenges.delete (ChallengeRow.addressedTo identifier channel) } := by
  refine commits_stmt.trans ?_
  simp only [Sql.eval, deleteChallengesForIdentifier, Except.ok.injEq, Prod.mk.injEq, true_and]
  constructor
  · rintro ⟨ws, rfl, rfl⟩
    exact DB.applyAll_delChallenges db _
  · rintro rfl
    exact ⟨_, rfl, (DB.applyAll_delChallenges db _).symm⟩

/-- The challenge part of `ReissuePendingSignup`. -/
theorem commits_rotateChallenge :
    Commits env now pick (rotateChallenge acceptedAt (some ch)) db () db' ↔
      ∃ id, Uuid.parse ch.id = some id ∧ ch.expiresAt ≠ 0 ∧ orNow acceptedAt ch.createdAt ≠ 0 ∧
        (∀ r ∈ db.challenges, r.addressedTo ch.identifier ch.channel = false → r.id ≠ id) ∧
        db' = { db with
          challenges := rotated db.challenges id ch (orNow acceptedAt ch.createdAt) } := by
  have hkept : ∀ {id : Uuid}, (∀ r ∈ db.challenges.delete
        (ChallengeRow.addressedTo ch.identifier ch.channel), r.id ≠ id) ↔
      ∀ r ∈ db.challenges, r.addressedTo ch.identifier ch.channel = false → r.id ≠ id := by
    intro id
    simp only [mem_delete, and_imp]
  constructor
  · intro h
    obtain ⟨_, db₁, hdelete, h₁⟩ := commits_bind.mp h
    have hdelete := commits_deleteChallengesForIdentifier.mp hdelete
    subst hdelete
    obtain ⟨id, db₂, hp, h₂⟩ := commits_bind.mp h₁
    obtain ⟨hid, rfl⟩ := commits_parseID.mp hp
    obtain ⟨hexpires, hcreated, hfree, rfl⟩ := commits_upsertChallenge.mp h₂
    exact ⟨id, hid, hexpires, hcreated, hkept.mp hfree, rfl⟩
  · rintro ⟨id, hid, hexpires, hcreated, hfree, rfl⟩
    refine commits_bind.mpr ⟨(), _, commits_deleteChallengesForIdentifier.mpr rfl, ?_⟩
    refine commits_bind.mpr ⟨_, _, commits_parseID.mpr ⟨hid, rfl⟩, ?_⟩
    exact commits_upsertChallenge.mpr ⟨hexpires, hcreated, hkept.mpr hfree, rfl⟩

theorem commits_verifySignupUser {verifiedAt : Option Time} {n : Nat} :
    Commits env now pick (stmt context (.verifySignupUser id verifiedAt) : Tx β Nat) db n db' ↔
      n = (db.users.select (UserRow.unverifiedWith id)).length ∧
        db' = { db with users :=
          db.users.update (UserRow.unverifiedWith id) (UserRow.activated now verifiedAt) } := by
  refine commits_stmt.trans ?_
  simp only [Sql.eval, verifySignupUser, Except.ok.injEq, Prod.mk.injEq]
  constructor
  · rintro ⟨ws, ⟨rfl, rfl⟩, rfl⟩
    exact ⟨rfl, DB.applyAll_putUsers db _⟩
  · rintro ⟨rfl, rfl⟩
    exact ⟨_, ⟨rfl, rfl⟩, (DB.applyAll_putUsers db _).symm⟩

/-- The database after an invitation verified an account. -/
def verified (now : Time) (db : DB) (user : Uuid) (verifiedAt : Option Time) : DB :=
  { db with
    users := db.users.update (UserRow.unverifiedWith user) (UserRow.activated now verifiedAt) }

/-- The invitation part of `ReissuePendingSignup`.  The account and the organization exist, so the
membership can always be written. -/
theorem commits_activateByInvite {userID : String} {invite : Invite} :
    Commits env now pick (activateByInvite now userID acceptedAt (some invite)) db () db' ↔
      ∃ user org id, Uuid.parse userID = some user ∧ Uuid.parse invite.orgID = some org ∧
        Uuid.parse invite.id = some id ∧ (∃ r ∈ db.users, r.unverifiedWith user = true) ∧
        (∃ o ∈ db.orgs, o.id = org) ∧ Open db id org ∧
        db' = consumed now (verified now db user (timestamptz acceptedAt)) id org user
          (timestamptz acceptedAt)
          (stamp now (.membershipAdded invite.orgID userID .active acceptedAt)) := by
  have hselect : ∀ {user : Uuid}, (db.users.select (UserRow.unverifiedWith user)).length ≠ 0 ↔
      ∃ r ∈ db.users, r.unverifiedWith user = true := by
    intro user
    rw [Ne, select_length_eq_zero]
    simp
  constructor
  · intro h
    obtain ⟨user, db₁, hp₁, h₁⟩ := commits_bind.mp h
    obtain ⟨huser, rfl⟩ := commits_parseID.mp hp₁
    obtain ⟨org, db₂, hp₂, h₂⟩ := commits_bind.mp h₁
    obtain ⟨horg, rfl⟩ := commits_parseID.mp hp₂
    obtain ⟨id, db₃, hp₃, h₃⟩ := commits_bind.mp h₂
    obtain ⟨hid, rfl⟩ := commits_parseID.mp hp₃
    obtain ⟨n, db₄, hverify, h₄⟩ := commits_bind.mp h₃
    obtain ⟨rfl, rfl⟩ := commits_verifySignupUser.mp hverify
    by_cases hzero : (db₃.users.select (UserRow.unverifiedWith user)).length = 0
    -- no row was updated, and the transaction is given up
    · rw [if_pos hzero] at h₄
      exact absurd h₄ not_commits_fail
    · rw [if_neg hzero] at h₄
      obtain ⟨_, db₅, hlock, h₅⟩ := commits_bind.mp h₄
      obtain ⟨hexists, rfl⟩ := commits_lockOrganization.mp hlock
      obtain ⟨hopen, _, rfl⟩ := commits_consumeInvite.mp h₅
      exact ⟨user, org, id, huser, horg, hid, hselect.mp hzero, hexists, hopen, rfl⟩
  · rintro ⟨user, org, id, huser, horg, hid, hrow, hexists, hopen, rfl⟩
    refine commits_bind.mpr ⟨_, _, commits_parseID.mpr ⟨huser, rfl⟩, ?_⟩
    refine commits_bind.mpr ⟨_, _, commits_parseID.mpr ⟨horg, rfl⟩, ?_⟩
    refine commits_bind.mpr ⟨_, _, commits_parseID.mpr ⟨hid, rfl⟩, ?_⟩
    refine commits_bind.mpr ⟨_, _, commits_verifySignupUser.mpr ⟨rfl, rfl⟩, ?_⟩
    rw [if_neg (hselect.mpr hrow)]
    refine commits_bind.mpr ⟨(), _, commits_lockOrganization.mpr ⟨hexists, rfl⟩, ?_⟩
    refine commits_consumeInvite.mpr ⟨hopen, .inr ⟨hexists, ?_⟩, rfl⟩
    -- the update keeps identifiers, so the membership still has its user
    obtain ⟨r, hr, hwith⟩ := hrow
    obtain ⟨s, hs, hkey⟩ := Table.key_mem_update (p := UserRow.unverifiedWith user)
      (key_activated now (timestamptz acceptedAt)) hr
    have hrid : r.id = user := by
      simp only [UserRow.unverifiedWith, Bool.and_eq_true, decide_eq_true_eq] at hwith
      exact hwith.1
    exact ⟨s, hs, hkey.trans hrid⟩

/-- The database after the credentials of a pending account were replaced. -/
def reissued (now : Time) (db : DB) (user : User) : DB :=
  { db with
    users := db.users.update (UserRow.unverifiedAt user.email)
      (UserRow.reissued now user.passwordHash user.displayName) }

/-- The account is still unverified. -/
theorem unverified_reissued {user : User} {r : UserRow}
    (h : (db.users.select (UserRow.unverifiedAt user.email)).head? = some r) :
    ∃ s ∈ (reissued now db user).users, s.unverifiedWith r.id = true := by
  obtain ⟨hr, hunverified⟩ := mem_select.mp (List.mem_of_mem_head? h)
  refine ⟨r.reissued now user.passwordHash user.displayName, ?_, ?_⟩
  · exact (mem_update (key_reissued _ _ _)).mpr (.inl ⟨r, hr, hunverified, rfl⟩)
  · simp only [UserRow.unverifiedAt, Bool.and_eq_true] at hunverified
    exact Bool.and_eq_true_iff.mpr ⟨decide_eq_true rfl, hunverified.2⟩

/-- The first statement of the retry, for an address with a pending account. -/
theorem statement_reissue (env : Env) (now : Time) (pick : Nat) {user : User} {r : UserRow}
    (hhead : (db.users.select (UserRow.unverifiedAt user.email)).head? = some r) :
    statement env now (.reissueSignupUser user.email user.passwordHash user.displayName) pick db =
      (.ok r.id.string, reissued now db user) := by
  simp only [statement, Sql.eval, reissueSignupUser, hhead]
  exact congrArg _ (DB.applyAll_putUsers db _)

/-- Without a pending account at the address the retry ends here. -/
theorem run_reissue_none {user : User} {challenge : Option OTPChallenge}
    (hhead : (db.users.select (UserRow.unverifiedAt user.email)).head? = none) :
    (reissuePendingSignup now user challenge invite acceptedAt).run (statement env now)
      (fun _ => pick) db = (.error (.rollback ("", false)), db) := by
  simp [reissuePendingSignup, query, statement, Sql.eval, reissueSignupUser, hhead, discard]

/-- With one it goes on from the updated account. -/
theorem run_reissue {user : User} {challenge : Option OTPChallenge} {r : UserRow}
    (hhead : (db.users.select (UserRow.unverifiedAt user.email)).head? = some r) :
    (reissuePendingSignup now user challenge invite acceptedAt).run (statement env now)
      (fun _ => pick) db =
        (rotateChallenge acceptedAt challenge >>= fun _ =>
          activateByInvite now r.id.string acceptedAt invite >>= fun _ =>
            (pure (r.id.string, true) : Tx (String × Bool) (String × Bool))).run
          (statement env now) (fun _ => pick) (reissued now db user) := by
  change (Program.call _ _).run _ _ _ = _
  rw [Program.run_call, statement_reissue env now pick hhead]
  rfl

/-- `ReissuePendingSignup`. -/
theorem commits_reissuePendingSignup {user : User} {challenge : Option OTPChallenge}
    {v : String × Bool} :
    Commits env now pick (reissuePendingSignup now user challenge invite acceptedAt) db v db' ↔
      ∃ r, (db.users.select (UserRow.unverifiedAt user.email)).head? = some r ∧
        v = (r.id.string, true) ∧ ∃ db₁,
        Commits env now pick (rotateChallenge acceptedAt challenge) (reissued now db user) () db₁ ∧
        Commits env now pick (activateByInvite now r.id.string acceptedAt invite) db₁ () db' := by
  cases hhead : (db.users.select (UserRow.unverifiedAt user.email)).head? with
  -- no pending row: the call answers early, which is not a commit of the rest
  | none =>
      unfold Commits
      rw [run_reissue_none hhead]
      constructor
      · intro h
        cases h
      · rintro ⟨r, h, _⟩
        cases h
  | some r =>
      unfold Commits
      rw [run_reissue hhead]
      constructor
      · intro h
        obtain ⟨_, db₂, hrotate, h₂⟩ := commits_bind.mp h
        obtain ⟨_, db₃, hactivate, h₃⟩ := commits_bind.mp h₂
        obtain ⟨rfl, rfl⟩ := commits_pure.mp h₃
        exact ⟨r, rfl, rfl, db₂, hrotate, hactivate⟩
      · rintro ⟨r', hr', rfl, db₁, hrotate, hactivate⟩
        cases hr'
        refine commits_bind.mpr ⟨(), _, hrotate, ?_⟩
        refine commits_bind.mpr ⟨(), _, hactivate, ?_⟩
        exact commits_pure.mpr ⟨rfl, rfl⟩

/-! ## Members -/

/-- `AddMember`: nothing for somebody who has a membership already. -/
theorem commits_addMember :
    Commits env now pick (addMember now orgID userID status) db () db' ↔
      ∃ org user, Uuid.parse orgID = some org ∧ Uuid.parse userID = some user ∧
        (∃ o ∈ db.orgs, o.id = org) ∧
        ((db.memberships.find? (org, user)).isSome = true ∧ db' = db ∨
          db.memberships.find? (org, user) = none ∧ (∃ u ∈ db.users, u.id = user) ∧
            db' = { db with
              memberships := db.memberships.put ⟨org, user, status, now, now⟩
              outbox := db.outbox ++ [stamp now (.membershipAdded orgID userID status now)] }) := by
  constructor
  · intro h
    obtain ⟨⟨org, user⟩, db₁, hids, h₁⟩ := commits_bind.mp h
    obtain ⟨horg, huser, rfl⟩ := commits_membershipIDs.mp hids
    obtain ⟨_, db₂, hlock, h₂⟩ := commits_bind.mp h₁
    obtain ⟨hexists, rfl⟩ := commits_lockOrganization.mp hlock
    obtain ⟨m, db₃, hget, h₃⟩ := commits_bind.mp h₂
    obtain ⟨rfl, rfl⟩ := commits_getMembershipRow.mp hget
    refine ⟨org, user, horg, huser, hexists, ?_⟩
    -- the row that was read decides, and the lock keeps it as it was read
    cases hfind : db₃.memberships.find? (org, user) with
    | some r =>
        rw [hfind] at h₃
        obtain ⟨_, rfl⟩ := commits_pure.mp h₃
        exact .inl ⟨rfl, rfl⟩
    | none =>
        rw [hfind] at h₃
        obtain ⟨_, db₄, hadd, h₄⟩ := commits_bind.mp h₃
        obtain ⟨hadmits, rfl⟩ := commits_addOrganizationMembership.mp hadd
        simp only [Admits, enrolled, hfind] at hadmits h₄
        rcases hadmits with h | ⟨_, hu⟩
        · cases h
        · exact .inr ⟨rfl, hu, commits_emitEvents.mp h₄⟩
  · rintro ⟨org, user, horg, huser, hexists, h⟩
    refine commits_bind.mpr ⟨(org, user), _, commits_membershipIDs.mpr ⟨horg, huser, rfl⟩, ?_⟩
    refine commits_bind.mpr ⟨(), _, commits_lockOrganization.mpr ⟨hexists, rfl⟩, ?_⟩
    refine commits_bind.mpr ⟨_, _, commits_getMembershipRow.mpr ⟨rfl, rfl⟩, ?_⟩
    rcases h with ⟨hsome, rfl⟩ | ⟨hfind, hu, rfl⟩
    · obtain ⟨r, hfind⟩ := Option.isSome_iff_exists.mp hsome
      rw [hfind]
      exact commits_pure.mpr ⟨rfl, rfl⟩
    · rw [hfind]
      refine commits_bind.mpr
        ⟨(), _, commits_addOrganizationMembership.mpr ⟨.inr ⟨hexists, hu⟩, rfl⟩, ?_⟩
      simp only [enrolled, hfind]
      exact commits_emitEvents.mpr rfl

/-- The check that protects the last active member. -/
theorem commits_protected {atStake : Bool} {o : Uuid} :
    Commits env now pick (requireAnotherActive atStake o) db () db' ↔
      (atStake = true →
        1 < (db.memberships.select fun m => m.orgID = o && m.status = .active).length) ∧
        db' = db := by
  unfold requireAnotherActive
  cases atStake with
  | false =>
      refine commits_pure.trans ?_
      simp
  | true =>
      constructor
      · intro h
        obtain ⟨n, db₁, hcount, h₁⟩ := commits_bind.mp h
        obtain ⟨ws, heval, rfl⟩ := commits_stmt.mp hcount
        cases heval
        obtain ⟨hmany, rfl⟩ := commits_failIf.mp h₁
        exact ⟨fun _ => Nat.lt_of_not_le (of_decide_eq_false hmany), rfl⟩
      · rintro ⟨hmany, rfl⟩
        refine commits_bind.mpr ⟨_, _, commits_stmt.mpr ⟨[], rfl, rfl⟩, ?_⟩
        exact commits_failIf.mpr ⟨decide_eq_false (Nat.not_le_of_lt (hmany rfl)), rfl⟩

/-- How a change of a membership begins: it locks the organization, finds the row, and sees that the
organization keeps an active member.  None of this writes. -/
theorem commits_change {s : Membership → Bool} {f : Uuid → Uuid → Membership → Tx Unit Unit} :
    Commits env now pick (do
      let (org, user) ← membershipIDs orgID userID
      lockOrganization org
      match ← getMembershipRow org user with
      | none => fault .notMember
      | some current =>
          requireAnotherActive (s current) org
          f org user current) db () db' ↔
    ∃ org user m, Uuid.parse orgID = some org ∧ Uuid.parse userID = some user ∧
      (∃ r ∈ db.orgs, r.id = org) ∧ db.memberships.find? (org, user) = some m ∧
      (s m.membership = true →
        1 < (db.memberships.select fun m => m.orgID = org && m.status = .active).length) ∧
      Commits env now pick (f org user m.membership) db () db' := by
  constructor
  · intro h
    obtain ⟨⟨org, user⟩, db₁, hids, h₁⟩ := commits_bind.mp h
    obtain ⟨horg, huser, rfl⟩ := commits_membershipIDs.mp hids
    obtain ⟨_, db₂, hlock, h₂⟩ := commits_bind.mp h₁
    obtain ⟨hexists, rfl⟩ := commits_lockOrganization.mp hlock
    obtain ⟨m, db₃, hget, h₃⟩ := commits_bind.mp h₂
    obtain ⟨rfl, rfl⟩ := commits_getMembershipRow.mp hget
    cases hfind : db₃.memberships.find? (org, user) with
    | none =>
        rw [hfind] at h₃
        exact absurd h₃ not_commits_fail
    | some m =>
        rw [hfind] at h₃
        obtain ⟨_, db₄, hcheck, h₄⟩ := commits_bind.mp h₃
        obtain ⟨hmany, rfl⟩ := commits_protected.mp hcheck
        exact ⟨org, user, m, horg, huser, hexists, hfind, hmany, h₄⟩
  · rintro ⟨org, user, m, horg, huser, hexists, hfind, hmany, h⟩
    refine commits_bind.mpr ⟨(org, user), _, commits_membershipIDs.mpr ⟨horg, huser, rfl⟩, ?_⟩
    refine commits_bind.mpr ⟨(), _, commits_lockOrganization.mpr ⟨hexists, rfl⟩, ?_⟩
    refine commits_bind.mpr ⟨_, _, commits_getMembershipRow.mpr ⟨rfl, rfl⟩, ?_⟩
    rw [hfind]
    exact commits_bind.mpr ⟨(), _, commits_protected.mpr ⟨hmany, rfl⟩, h⟩

/-- The event of a change of status: only a suspension is announced. -/
def restatusEvents (now : Time) (orgID userID : String)
    (status current : MembershipStatus) : List Event :=
  if status = .suspended && current ≠ .suspended then
    [stamp now (.membershipSuspended orgID userID status now)]
  else []

/-- The write and the event at the end of `UpdateMemberStatus`. -/
theorem commits_restatus {current : Membership} {o u : Uuid}
    (hm : db.memberships.find? (o, u) = some m) :
    Commits env now pick (do
      stmt "" (.updateOrganizationMembershipStatus status o u)
      if status = .suspended && current.status ≠ .suspended then
        emitEvents now [.membershipSuspended orgID userID status now]
      else pure () : Tx Unit Unit) db () db' ↔
      db' = { db with
        memberships := db.memberships.put (m.restatused now status)
        outbox := db.outbox ++ restatusEvents now orgID userID status current.status } := by
  have heval : (Sql.updateOrganizationMembershipStatus status o u).eval env now pick db =
      .ok ((), [.putMembership (m.restatused now status)]) := by
    simp only [Sql.eval, updateOrganizationMembershipStatus, hm]
    rfl
  have hstmt : ∀ db₁, Commits env now pick
      (stmt "" (.updateOrganizationMembershipStatus status o u) : Tx Unit Unit) db () db₁ ↔
        db₁ = { db with memberships := db.memberships.put (m.restatused now status) } := by
    intro db₁
    rw [commits_stmt, heval]
    constructor
    · rintro ⟨ws, hok, rfl⟩
      cases hok
      rfl
    · rintro rfl
      exact ⟨_, rfl, rfl⟩
  unfold restatusEvents
  rw [commits_bind]
  simp only [hstmt]
  split
  · constructor
    · rintro ⟨_, db₁, rfl, h⟩
      exact commits_emitEvents.mp h
    · rintro rfl
      exact ⟨(), _, rfl, commits_emitEvents.mpr rfl⟩
  · rw [List.append_nil]
    constructor
    · rintro ⟨_, db₁, rfl, h⟩
      exact (commits_pure.mp h).2
    · rintro rfl
      exact ⟨(), _, rfl, commits_pure.mpr ⟨rfl, rfl⟩⟩

/-- What `UpdateMemberStatus` to suspended leaves. -/
theorem commits_suspend
    (h : Commits env now pick (updateMemberStatus now orgID userID .suspended) db () db') :
    ∃ org user m, Uuid.parse orgID = some org ∧ Uuid.parse userID = some user ∧
      db.memberships.find? (org, user) = some m ∧
      db' = { db with
        memberships := db.memberships.put (m.restatused now .suspended)
        outbox := db.outbox ++ if m.status = .suspended then []
          else [stamp now (.membershipSuspended orgID userID .suspended now)] } := by
  obtain ⟨org, user, m, horg, huser, _, hfind, _, h₁⟩ := (commits_change
    (s := fun current => MembershipStatus.suspended ≠ .active && current.status = .active)
    (f := fun org user current => do
      stmt "" (.updateOrganizationMembershipStatus .suspended org user)
      if MembershipStatus.suspended = .suspended && current.status ≠ .suspended then
        emitEvents now [.membershipSuspended orgID userID .suspended now]
      else pure ())).mp h
  refine ⟨org, user, m, horg, huser, hfind, ?_⟩
  rw [(commits_restatus hfind).mp h₁]
  by_cases hstatus :
    m.status = .suspended <;> simp [restatusEvents, MembershipRow.membership, hstatus]

theorem commits_removeMember :
    Commits env now pick (removeMember now orgID userID) db () db' ↔
    ∃ org user m, Uuid.parse orgID = some org ∧ Uuid.parse userID = some user ∧
      (∃ r ∈ db.orgs, r.id = org) ∧ db.memberships.find? (org, user) = some m ∧
      (m.status = .active →
        1 < (db.memberships.select fun m => m.orgID = org && m.status = .active).length) ∧
      db' = { db with
        memberships := db.memberships.erase (org, user)
        outbox := db.outbox ++ [stamp now (.membershipRemoved orgID userID m.status now)] } := by
  refine (commits_change (s := fun m => m.status = .active)
    (f := fun org user current => do
      stmt "" (.deleteOrganizationMembership org user)
      emitEvents now [.membershipRemoved orgID userID current.status now])).trans ?_
  constructor
  · rintro ⟨org, user, m, horg, huser, hexists, hfind, hmany, h⟩
    obtain ⟨_, db₁, hdelete, h₁⟩ := commits_bind.mp h
    obtain ⟨ws, heval, rfl⟩ := commits_stmt.mp hdelete
    cases heval
    exact ⟨org, user, m, horg, huser, hexists, hfind, fun h => hmany (decide_eq_true h),
      commits_emitEvents.mp h₁⟩
  · rintro ⟨org, user, m, horg, huser, hexists, hfind, hmany, rfl⟩
    refine ⟨org, user, m, horg, huser, hexists, hfind, fun h => hmany (of_decide_eq_true h), ?_⟩
    exact commits_bind.mpr ⟨(), _, commits_stmt.mpr ⟨_, rfl, rfl⟩, commits_emitEvents.mpr rfl⟩

/-! ## Invitations -/

theorem commits_revokeInvite {orgID inviteID : String} :
    Commits env now pick (revokeInvite orgID inviteID) db () db' ↔
      ∃ i o, Uuid.parse inviteID = some i ∧ Uuid.parse orgID = some o ∧ Open db i o ∧
        db' = { db with
          invites := db.invites.update (InviteRow.stillPending i o) InviteRow.revoked } := by
  have hrows :
      ∀ {i o : Uuid}, decide ((db.invites.select (InviteRow.stillPending i o)).length = 0) = false ↔
      Open db i o := by
    intro i o
    rw [decide_eq_false_iff_not, select_length_eq_zero]
    constructor
    · intro h
      by_contra hnone
      exact h fun r hr => Bool.eq_false_iff.mpr fun hp => hnone ⟨r, hr, hp⟩
    · rintro ⟨r, hr, hp⟩ hall
      rw [hall r hr] at hp
      cases hp
  constructor
  · intro h
    obtain ⟨⟨o, i⟩, db₁, hids, h₁⟩ := commits_bind.mp h
    obtain ⟨ho, hi, rfl⟩ := commits_inviteIDs.mp hids
    obtain ⟨n, db₂, hrevoke, h₂⟩ := commits_bind.mp h₁
    obtain ⟨ws, heval, rfl⟩ := commits_stmt.mp hrevoke
    cases heval
    obtain ⟨hopen, rfl⟩ := commits_failIf.mp h₂
    exact ⟨i, o, hi, ho, hrows.mp hopen, DB.applyAll_putInvites db₁ _⟩
  · rintro ⟨i, o, hi, ho, hopen, rfl⟩
    refine commits_bind.mpr ⟨(o, i), _, commits_inviteIDs.mpr ⟨ho, hi, rfl⟩, ?_⟩
    refine commits_bind.mpr ⟨_, _, commits_stmt.mpr ⟨_, rfl, rfl⟩, ?_⟩
    exact commits_failIf.mpr ⟨hrows.mpr hopen, (DB.applyAll_putInvites db _).symm⟩

/-- An invitation with a unique value of the new one. -/
def conflicts (env : Env) (id orgID : Uuid) (email hash : String) (status : InviteStatus)
    (r : InviteRow) : Bool :=
  r.id = id || r.tokenHash = hash || (status = .pending && r.pendingFor env orgID email)

/-- The row of a new invitation. -/
def inviteRow (invite : Invite) (i o inviter : Uuid) : InviteRow where
  id := i
  orgID := o
  email := invite.email
  tokenHash := invite.tokenHash
  inviterID := inviter
  status := invite.status
  expiresAt := invite.expiresAt
  acceptedAt := none
  createdAt := invite.createdAt

/-- The database after an invitation: the earlier ones are withdrawn. -/
def invited (env : Env) (db : DB) (invite : Invite) (i o inviter : Uuid) : DB :=
  let withdrawn := db.invites.update (InviteRow.pendingFor env o invite.email) InviteRow.revoked
  { db with invites := withdrawn.put (inviteRow invite i o inviter) }

/-- After the earlier ones were withdrawn, only the identifier and the link can be in the way. -/
theorem conflicts_withdrawn {invite : Invite} {i o : Uuid} :
    (db.invites.update (InviteRow.pendingFor env o invite.email) InviteRow.revoked).any
        (conflicts env i o invite.email invite.tokenHash invite.status) = false ↔
      ∀ r ∈ db.invites, r.id ≠ i ∧ r.tokenHash ≠ invite.tokenHash := by
  rw [any_eq_false]
  constructor
  · intro h r hr
    have hleft := h _ (update_mem key_inviteRevoked hr)
    simp only [conflicts, Bool.or_eq_false_iff, decide_eq_false_iff_not] at hleft
    split at hleft
    · exact hleft.1
    · exact hleft.1
  · intro h r hr
    simp only [conflicts, Bool.or_eq_false_iff, decide_eq_false_iff_not]
    rcases (mem_update key_inviteRevoked).mp hr with ⟨q, hq, _, rfl⟩ | ⟨hq, hpass⟩
    · exact ⟨h q hq, by simp [InviteRow.pendingFor, InviteRow.revoked]⟩
    · exact ⟨h r hq, by simp [hpass]⟩

theorem commits_createInvite {invite : Invite} :
    Commits env now pick (createInvite invite) db () db' ↔
      ∃ i o inviter, Uuid.parse invite.id = some i ∧ Uuid.parse invite.orgID = some o ∧
        Uuid.parse invite.inviterID = some inviter ∧ invite.expiresAt ≠ 0 ∧ invite.createdAt ≠ 0 ∧
        (∃ r ∈ db.orgs, r.id = o) ∧ (∃ r ∈ db.users, r.id = inviter) ∧
        (∀ r ∈ db.invites, r.id ≠ i ∧ r.tokenHash ≠ invite.tokenHash) ∧
        db' = invited env db invite i o inviter := by
  -- the last statement, in the database in which the earlier invitations are withdrawn
  have hcreate : ∀ {i o inviter : Uuid} {db₁ db₂ : DB}, (db₁.orgs = db.orgs ∧ db₁.users = db.users ∧
      db₁.invites = db.invites.update (InviteRow.pendingFor env o invite.email) InviteRow.revoked) →
      (Commits env now pick
          (stmt "postgres: create invite"
            (.createOrganizationInvite i o invite.email invite.tokenHash inviter invite.status
              (timestamptz invite.expiresAt)
          (timestamptz invite.createdAt)) : Tx Unit Unit) db₁ () db₂ ↔
        invite.expiresAt ≠ 0 ∧ invite.createdAt ≠ 0 ∧
          (∀ r ∈ db.invites, r.id ≠ i ∧ r.tokenHash ≠ invite.tokenHash) ∧
          ((∃ r ∈ db.orgs, r.id = o) ∧ ∃ r ∈ db.users, r.id = inviter) ∧
          db₂ = { db₁ with invites := db₁.invites.put (inviteRow invite i o inviter) }) := by
    rintro i o inviter db₁ db₂ ⟨horgs, husers, hinvites⟩
    have hfree :
        db₁.invites.any (conflicts env i o invite.email invite.tokenHash invite.status) = false ↔
        ∀ r ∈ db.invites, r.id ≠ i ∧ r.tokenHash ≠ invite.tokenHash := by
      rw [hinvites]
      exact conflicts_withdrawn
    rw [commits_stmt, ← hfree, ← horgs, ← husers, ← membershipRefs_iff]
    by_cases hexpires : invite.expiresAt = 0
    · simp [Sql.eval, createOrganizationInvite, timestamptz, hexpires]
    · by_cases hcreated : invite.createdAt = 0
      · simp [Sql.eval, createOrganizationInvite, timestamptz, hcreated]
      · simp only [Sql.eval, createOrganizationInvite, timestamptz, if_neg hexpires,
          if_neg hcreated]
        unfold conflicts
        constructor
        · rintro ⟨ws, heval, rfl⟩
          split at heval
          · cases heval
          · rename_i hfree
            split at heval
            · cases heval
            · rename_i hrefs
              cases heval
              exact ⟨hexpires, hcreated, Bool.eq_false_iff.mpr hfree, by simpa using hrefs, rfl⟩
        · rintro ⟨_, _, hfree, hrefs, rfl⟩
          refine ⟨[.putInvite (inviteRow invite i o inviter)], ?_, rfl⟩
          rw [hfree, hrefs]
          rfl
  constructor
  · intro h
    obtain ⟨i, db₁, hp₁, h₁⟩ := commits_bind.mp h
    obtain ⟨hi, rfl⟩ := commits_parseID.mp hp₁
    obtain ⟨o, db₂, hp₂, h₂⟩ := commits_bind.mp h₁
    obtain ⟨ho, rfl⟩ := commits_parseID.mp hp₂
    obtain ⟨inviter, db₃, hp₃, h₃⟩ := commits_bind.mp h₂
    obtain ⟨hinviter, rfl⟩ := commits_parseID.mp hp₃
    obtain ⟨_, db₄, hlock, h₄⟩ := commits_bind.mp h₃
    obtain ⟨_, rfl⟩ := commits_lockOrganization.mp hlock
    obtain ⟨_, db₅, hrevoke, h₅⟩ := commits_bind.mp h₄
    obtain ⟨ws, heval, hdb₅⟩ := commits_stmt.mp hrevoke
    cases heval
    rw [DB.applyAll_putInvites] at hdb₅
    have hfields : db₅.orgs = db₄.orgs ∧ db₅.users = db₄.users ∧ db₅.invites =
        db₄.invites.update (InviteRow.pendingFor env o invite.email) InviteRow.revoked := by
      rw [hdb₅]
      exact ⟨rfl, rfl, rfl⟩
    obtain ⟨hexpires, hcreated, hfree, ⟨hexists, hinviterExists⟩, rfl⟩ := (hcreate hfields).mp h₅
    refine ⟨i, o, inviter, hi, ho, hinviter, hexpires, hcreated, hexists, hinviterExists, hfree, ?_⟩
    rw [hdb₅]
    rfl
  · rintro ⟨i, o, inviter, hi, ho, hinviter, hexpires, hcreated, hexists,
      hinviterExists, hfree, rfl⟩
    refine commits_bind.mpr ⟨_, _, commits_parseID.mpr ⟨hi, rfl⟩, ?_⟩
    refine commits_bind.mpr ⟨_, _, commits_parseID.mpr ⟨ho, rfl⟩, ?_⟩
    refine commits_bind.mpr ⟨_, _, commits_parseID.mpr ⟨hinviter, rfl⟩, ?_⟩
    refine commits_bind.mpr ⟨(), _, commits_lockOrganization.mpr ⟨hexists, rfl⟩, ?_⟩
    refine commits_bind.mpr
      ⟨(), _, commits_stmt.mpr ⟨_, rfl, (DB.applyAll_putInvites db _).symm⟩, ?_⟩
    refine (hcreate ?_).mpr ⟨hexpires, hcreated, hfree, ⟨hexists, hinviterExists⟩, rfl⟩
    exact ⟨rfl, rfl, rfl⟩

end Rules

/-! ## Calls -/

section Calls

variable {env : Env} {now : Time} {id : Uuid} {pick : Nat} {db : DB} {o : Op}

/-- A call that gets through answers with its value and keeps what it wrote. -/
theorem exec_of_commits {v : o.Val} {db' : DB} (h : Commits env now pick (o.body now id) db v db') :
    o.exec env now id pick db = (.ok v, db') := by
  rw [exec_eq, show Program.run _ _ _ _ = _ from h]
  rfl

/-- A call gets through or leaves the database as it was. -/
theorem exec_commits (env : Env) (now : Time) (id : Uuid) (pick : Nat) (o : Op) (db : DB) :
    (∃ v, (o.exec env now id pick db).1 = .ok v ∧
        Commits env now pick (o.body now id) db v (o.exec env now id pick db).2) ∨
      (o.exec env now id pick db).2 = db := by
  rw [exec_eq]
  unfold Commits
  cases hrun : (o.body now id).run (statement env now) (fun _ => pick) db with
  | mk res db' =>
      cases res with
      | ok v => exact .inl ⟨v, rfl, rfl⟩
      | error x => cases x <;> exact .inr rfl

/-- A pending account is activated. -/
theorem exec_verifySignup_of_pending {r : UserRow} (hr : r ∈ db.users)
    (hunverified : r.unverified = true) (t : Time) :
    (Op.verifySignup r.id.string t).exec env now id pick db =
      (.ok (), verified now db r.id (timestamptz t)) := by
  have hwith : r.unverifiedWith r.id = true :=
    Bool.and_eq_true_iff.mpr ⟨decide_eq_true rfl, hunverified⟩
  have hsome : decide ((db.users.select (UserRow.unverifiedWith r.id)).length = 0) = false := by
    refine decide_eq_false fun hzero => ?_
    have hmem := mem_select.mpr ⟨hr, hwith⟩
    rw [List.length_eq_zero_iff.mp hzero] at hmem
    cases hmem
  refine exec_of_commits ?_
  refine commits_bind.mpr ⟨_, _, commits_parseID.mpr ⟨Uuid.parse_string _, rfl⟩, ?_⟩
  refine commits_bind.mpr ⟨_, _, commits_verifySignupUser.mpr ⟨rfl, rfl⟩, ?_⟩
  exact commits_failIf.mpr ⟨hsome, rfl⟩

/-- Without a pending account at the address the retry ends without an effect. -/
theorem exec_reissue_none {user : User} {challenge : Option OTPChallenge}
    (h : (db.users.select (UserRow.unverifiedAt user.email)).head? = none) :
    (Op.reissuePendingSignup user challenge invite acceptedAt).exec env now id pick db =
      (.ok ("", false), db) := by
  have hbody : ((Op.reissuePendingSignup user challenge invite acceptedAt).body now id).run
      (statement env now) (fun _ => pick) db = _ := run_reissue_none h
  rw [exec_eq, hbody]
  rfl

/-! ### Calls that never discard their transaction -/

/-- The program ends with a value or an error, never with a value and a rollback. -/
inductive Definite {α β : Type} : Tx β α → Prop
  | done (a : α) : Definite (.done a)
  | fault (e : Err) : Definite (fault e)
  | call {s : Sql} {k : Except SqlError s.Val → Tx β α} (hk : ∀ ans, Definite (k ans)) :
      Definite (.call s k)

section Definite

variable {α β γ : Type}

theorem definite_bind {p : Tx β α} {f : α → Tx β γ} (hp : Definite p) (hf : ∀ a, Definite (f a)) :
    Definite (p >>= f) := by
  induction hp with
  | done a => exact hf a
  | fault e => exact .fault e
  | call _ ih => exact .call ih

theorem definite_stmt (context : String) (s : Sql) : Definite (stmt context s : Tx β s.Val) := by
  refine .call fun ans => ?_
  cases ans with
  | ok v => exact .done v
  | error e => exact .fault _

theorem definite_parseID (kind value : String) : Definite (parseID kind value : Tx β Uuid) := by
  unfold parseID
  split
  · exact .done _
  · exact .fault _

theorem definite_stmtOne (missing : Err) (s : Sql) : Definite (stmtOne missing s : Tx β s.Val) := by
  refine .call fun ans => ?_
  cases ans with
  | ok v => exact .done v
  | error e => cases e <;> exact .fault _

theorem definite_failIf (c : Bool) (e : Err) : Definite (failIf c e : Tx β Unit) := by
  unfold failIf
  split
  · exact .fault _
  · exact .done _

theorem definite_emitEvents (now : Time) (es : List Event) :
    Definite (emitEvents now es : Tx β Unit) := by
  induction es with
  | nil => exact .done _
  | cons e es ih => exact definite_bind (definite_stmt _ _) fun _ => ih

theorem definite_joinInvite (now : Time) (userID : Uuid) (userText : String)
    (acceptedAt occurredAt : Time) (invite : Option Invite) :
    Definite (joinInvite now userID userText acceptedAt occurredAt invite) := by
  cases invite with
  | none => exact .done _
  | some invite =>
      refine definite_bind (definite_parseID _ _) fun _ => ?_
      refine definite_bind (definite_parseID _ _) fun _ => ?_
      refine definite_bind (definite_stmtOne _ _) fun _ => ?_
      refine definite_bind (definite_stmt _ _) fun _ => ?_
      refine definite_bind (definite_failIf _ _) fun _ => ?_
      exact definite_bind (definite_stmt _ _) fun _ => definite_emitEvents _ _

theorem definite_ownOrg (now : Time) (userID : Uuid) (userText : String) (occurredAt : Time)
    (org : Option Organization) : Definite (ownOrg now userID userText occurredAt org) := by
  cases org with
  | none => exact .done _
  | some org =>
      refine definite_bind (definite_parseID _ _) fun _ => ?_
      refine definite_bind (definite_stmt _ _) fun _ => ?_
      exact definite_bind (definite_stmt _ _) fun _ => definite_emitEvents _ _

theorem definite_createSignupUser (now : Time) (user : User) (org : Option Organization)
    (invite : Option Invite) (acceptedAt : Time) :
    Definite (createSignupUser now user org invite acceptedAt) := by
  refine definite_bind (definite_parseID _ _) fun _ => ?_
  refine definite_bind (definite_stmt _ _) fun created => ?_
  split
  · exact .done _
  · refine definite_bind (definite_emitEvents _ _) fun _ => ?_
    refine definite_bind (definite_joinInvite _ _ _ _ _ _) fun _ => ?_
    exact definite_bind (definite_ownOrg _ _ _ _ _) fun _ => .done _

theorem definite_run {p : Tx β α} (hp : Definite p) {cs : Nat → Nat} {x : Exit β} {db₀ db' : DB}
    (h : p.run (statement env now) cs db₀ = (.error x, db')) : ∃ e, x = .err e := by
  induction hp generalizing cs db₀ with
  | done a => cases h
  | fault e =>
      cases h
      exact ⟨e, rfl⟩
  | call _ ih => exact ih _ h

/-- The answer of such a call is that of its transaction. -/
theorem commits_of_exec (ho : Definite (o.body now id)) {v : o.Val}
    (h : (o.exec env now id pick db).1 = .ok v) :
    Commits env now pick (o.body now id) db v (o.exec env now id pick db).2 := by
  rw [exec_eq] at h ⊢
  unfold Commits
  cases hrun : (o.body now id).run (statement env now) (fun _ => pick) db with
  | mk res db' =>
      rw [hrun] at h
      cases res with
      | ok u =>
          cases h
          rfl
      | error x =>
          obtain ⟨e, rfl⟩ := definite_run ho hrun
          cases h

end Definite

theorem exec_upsertChallenge_inv
    (h : ((Op.upsertChallenge ch).exec env now id pick db).1 = .ok ()) :
    ∃ cid, Uuid.parse ch.id = some cid ∧ ch.expiresAt ≠ 0 ∧ orNow now ch.createdAt ≠ 0 ∧
      (∀ r ∈ db.challenges, r.id ≠ cid) ∧
      ((Op.upsertChallenge ch).exec env now id pick db).2 =
        { db with
          challenges := db.challenges.put (challengeRow cid ch (orNow now ch.createdAt)) } := by
  have hdefinite : Definite ((Op.upsertChallenge ch).body now id) :=
    definite_bind (definite_parseID _ _) fun _ => definite_stmt _ _
  obtain ⟨cid, db₁, hparse, h₁⟩ := commits_bind.mp (commits_of_exec hdefinite h)
  obtain ⟨hcid, rfl⟩ := commits_parseID.mp hparse
  obtain ⟨hexpires, hcreated, hfree, hdb⟩ := commits_upsertChallenge.mp h₁
  exact ⟨cid, hcid, hexpires, hcreated, hfree, hdb⟩

theorem definite_createInvite (invite : Invite) : Definite (createInvite invite) := by
  refine definite_bind (definite_parseID _ _) fun _ => ?_
  refine definite_bind (definite_parseID _ _) fun _ => ?_
  refine definite_bind (definite_parseID _ _) fun _ => ?_
  refine definite_bind (definite_stmtOne _ _) fun _ => ?_
  exact definite_bind (definite_stmt _ _) fun _ => definite_stmt _ _

/-- A new invitation supersedes the pending ones of its organization and address. -/
theorem exec_createInvite_inv {invite : Invite}
    (h : ((Op.createInvite invite).exec env now id pick db).1 = .ok ()) :
    ∃ r : InviteRow, Uuid.parse invite.id = some r.id ∧ Uuid.parse invite.orgID = some r.orgID ∧
      r.status = invite.status ∧ (∀ s ∈ db.invites, s.id ≠ r.id) ∧
      ((Op.createInvite invite).exec env now id pick db).2.invites =
        (db.invites.update (InviteRow.pendingFor env r.orgID invite.email) InviteRow.revoked).put
          r := by
  have hdefinite : Definite ((Op.createInvite invite).body now id) := definite_createInvite invite
  have hcommits := commits_of_exec hdefinite h
  obtain ⟨i, o, inviter, hi, ho, _, _, _, _, _, hfree, hdb⟩ := commits_createInvite.mp hcommits
  refine ⟨inviteRow invite i o inviter, hi, ho, rfl, fun s hs => (hfree s hs).1, ?_⟩
  rw [hdb]
  rfl

/-- A pending invitation is revoked. -/
theorem exec_revokeInvite_of_open {orgID inviteID : String} {org iid : Uuid}
    (horg : Uuid.parse orgID = some org) (hid : Uuid.parse inviteID = some iid)
    (hopen : Open db iid org) :
    ((Op.revokeInvite orgID inviteID).exec env now id pick db).1 = .ok () ∧
      ((Op.revokeInvite orgID inviteID).exec env now id pick db).2.invites =
        db.invites.update (InviteRow.stillPending iid org) InviteRow.revoked := by
  have hcommits : Commits env now pick ((Op.revokeInvite orgID inviteID).body now id) db () _ :=
    commits_revokeInvite.mpr ⟨iid, org, hid, horg, hopen, rfl⟩
  rw [exec_of_commits hcommits]
  exact ⟨rfl, rfl⟩

/-- The creating call answers whether the address was free. -/
theorem exec_createSignupUser_inv {user : User} {org : Option Organization} {created : Bool}
    (h : ((Op.createSignupUser user org invite acceptedAt).exec env now id pick db).1 =
      .ok created) :
    ((∃ r ∈ db.users, r.email = some user.email) ∧ created = false ∧
        ((Op.createSignupUser user org invite acceptedAt).exec env now id pick db).2 = db) ∨
      (∀ r ∈ db.users, r.email ≠ some user.email) ∧ created = true ∧
        ∃ r ∈ ((Op.createSignupUser user org invite acceptedAt).exec env now id pick db).2.users,
          r.email = some user.email := by
  have hdefinite : Definite ((Op.createSignupUser user org invite acceptedAt).body now id) :=
    definite_createSignupUser now user org invite acceptedAt
  have hcommits := commits_of_exec hdefinite h
  generalize ((Op.createSignupUser user org invite acceptedAt).exec env now id pick db).2 = db'
    at hcommits ⊢
  obtain ⟨uid, _, ⟨hemail, rfl, rfl⟩ | ⟨hfree, rfl, db₁, hjoin, hown⟩⟩ :=
    commits_createSignupUser.mp hcommits
  · exact .inl ⟨hemail, rfl, rfl⟩
  · refine .inr ⟨fun r hr => (hfree r hr).2.1 user.email rfl, rfl,
      signupRow now uid user acceptedAt, ?_, rfl⟩
    -- neither the invitation nor the organization touches the users
    have hjoined : db₁.users = (registered now db uid user acceptedAt).users := by
      cases invite with
      | none => rw [(commits_pure.mp hjoin).2]
      | some invite =>
          obtain ⟨_, _, _, _, _, _, _, rfl⟩ := commits_joinInvite.mp hjoin
          rfl
    have howned : db'.users = db₁.users := by
      cases org with
      | none => rw [(commits_pure.mp hown).2]
      | some org =>
          obtain ⟨_, _, _, _, _, _, rfl⟩ := commits_ownOrg.mp hown
          rfl
    rw [howned, hjoined]
    exact mem_put.mpr (.inl rfl)

/-- A retry without an invitation: nothing for an address without a pending account, else it gets
through. -/
theorem exec_reissue_inv {user : User} {challenge : Option OTPChallenge} {v : String × Bool}
    (h : ((Op.reissuePendingSignup user challenge none acceptedAt).exec env now id pick db).1 =
      .ok v) :
    ((db.users.select (UserRow.unverifiedAt user.email)).head? = none ∧ v = ("", false) ∧
        ((Op.reissuePendingSignup user challenge none acceptedAt).exec env now id pick db).2 = db) ∨
      ∃ r, (db.users.select (UserRow.unverifiedAt user.email)).head? = some r ∧
        v = (r.id.string, true) ∧
        Commits env now pick (rotateChallenge acceptedAt challenge) (reissued now db user) ()
          ((Op.reissuePendingSignup user challenge none acceptedAt).exec env now id pick db).2 := by
  cases hhead : (db.users.select (UserRow.unverifiedAt user.email)).head? with
  | none =>
      rw [exec_reissue_none hhead] at h ⊢
      exact .inl ⟨rfl, (Except.ok.inj h).symm, rfl⟩
  | some r =>
      refine .inr ⟨r, rfl, ?_⟩
      have hrotate : Definite (rotateChallenge acceptedAt challenge) := by
        cases challenge with
        | none => exact .done _
        | some ch =>
            refine definite_bind (definite_stmt _ _) fun _ => ?_
            exact definite_bind (definite_parseID _ _) fun _ => definite_stmt _ _
      -- what follows the update of the account does not discard it
      have hrest : Definite (rotateChallenge acceptedAt challenge >>= fun _ =>
          activateByInvite now r.id.string acceptedAt none >>= fun _ =>
            (pure (r.id.string, true) : Tx (String × Bool) (String × Bool))) :=
        definite_bind hrotate fun _ => definite_bind (.done _) fun _ => .done _
      have hbody : ((Op.reissuePendingSignup user challenge none acceptedAt).body now id).run
          (statement env now) (fun _ => pick) db = _ := run_reissue hhead
      rw [exec_eq, hbody] at h ⊢
      generalize hrun : Program.run _ _ _ (reissued now db user) = out at h ⊢
      rcases out with ⟨res, db'⟩
      cases res with
      | error x =>
          obtain ⟨e, rfl⟩ := definite_run hrest hrun
          cases h
      | ok u =>
          cases h
          obtain ⟨_, db₁, hrotated, h₁⟩ := commits_bind.mp hrun
          obtain ⟨_, db₂, hactivated, h₂⟩ := commits_bind.mp h₁
          obtain ⟨_, rfl⟩ := commits_pure.mp hactivated
          obtain ⟨rfl, rfl⟩ := commits_pure.mp h₂
          exact ⟨rfl, hrotated⟩

/-! ### Calls that get through -/

theorem exec_deleteExpiredChallenges :
    Op.deleteExpiredChallenges.exec env now id pick db =
      (.ok (), { db with challenges := db.challenges.delete fun r => r.expiresAt < now }) :=
  exec_of_commits (commits_stmt.mpr ⟨_, rfl, (DB.applyAll_delChallenges db _).symm⟩)

theorem exec_upsertChallenge_ok {cid : Uuid} (hcid : Uuid.parse ch.id = some cid)
    (hexpires : ch.expiresAt ≠ 0) (hcreated : ch.createdAt ≠ 0)
    (hfree : ∀ c ∈ db.challenges, c.id ≠ cid) :
    (Op.upsertChallenge ch).exec env now id pick db =
      (.ok (), { db with challenges := db.challenges.put (challengeRow cid ch ch.createdAt) }) := by
  have hstamp : orNow now ch.createdAt = ch.createdAt := by simp [orNow, hcreated]
  refine exec_of_commits (commits_bind.mpr ⟨_, _, commits_parseID.mpr ⟨hcid, rfl⟩, ?_⟩)
  rw [hstamp]
  exact commits_upsertChallenge.mpr ⟨hexpires, hcreated, hfree, rfl⟩

/-- A pending invitation of an organization that exists, as the lookup returned it. -/
def Usable (db : DB) (invite : Invite) : Prop :=
  ∃ i ∈ db.invites, invite = i.invite ∧ i.status = .pending ∧ ∃ o ∈ db.orgs, o.id = i.orgID

theorem open_of_pending {i : InviteRow} (hi : i ∈ db.invites) (hpending : i.status = .pending) :
    Open db i.id i.orgID :=
  ⟨i, hi, by simp [InviteRow.stillPending, hpending]⟩

/-- A suspended member's acceptance is refused before anything is written. -/
theorem exec_acceptInvite_suspended {inviteID orgID userID : String} {iid org user : Uuid}
    (hid : Uuid.parse inviteID = some iid) (horg : Uuid.parse orgID = some org)
    (huser : Uuid.parse userID = some user) (hexists : ∃ o ∈ db.orgs, o.id = org)
    (hm : db.memberships.find? (org, user) = some m) (hstatus : m.status = .suspended) :
    (Op.acceptInvite inviteID orgID userID acceptedAt).exec env now id pick db =
      (.error .invalidInvite, db) := by
  obtain ⟨o, ho⟩ : ∃ o, db.orgs.find? org = some o := by
    obtain ⟨o, ho, hoid⟩ := hexists
    exact ⟨o, find?_eq_some.mpr ⟨ho, hoid⟩⟩
  rw [exec_eq]
  simp [Op.body, acceptInvite, inviteIDs, parseID, hid, horg, huser, lockOrganization, stmtOne,
    statement, Sql.eval, Postgres.lockOrganization, ho, one, refuseSuspended, getMembershipRow,
    getOrganizationMembership, hm, MembershipRow.membership, hstatus, failIf, fault, settle]

/-- `CreateSignupUser` succeeds when what it was given is new or usable. -/
theorem exec_createSignupUser_ok (env : Env) (now : Time) (id : Uuid) (pick : Nat) (user : User)
    (org : Option Organization) (invite : Option Invite) (acceptedAt : Time) {uid : Uuid}
    (huid : Uuid.parse user.id = some uid) (hfree : ∀ r ∈ db.users, r.id ≠ uid)
    (hinvite : ∀ i, invite = some i → Usable db i)
    (horg : ∀ o, org = some o → ∃ oid, Uuid.parse o.id = some oid ∧ o.createdAt ≠ 0 ∧
    o.updatedAt ≠ 0 ∧
      ∀ x ∈ db.orgs, x.id ≠ oid) :
    ∃ created db', (Op.createSignupUser user org invite acceptedAt).exec env now id pick db =
        (.ok created, db') ∧ (created = false → db' = db) ∧ db'.challenges = db.challenges := by
  by_cases hemail : ∃ r ∈ db.users, r.email = some user.email
  · refine ⟨false, db, exec_of_commits ?_, fun _ => rfl, rfl⟩
    exact commits_createSignupUser.mpr ⟨uid, huid, .inl ⟨hemail, rfl, rfl⟩⟩
  · have huntaken : Untaken db.users (signupRow now uid user acceptedAt) := by
      intro s hs
      refine ⟨hfree s hs, ?_, ?_⟩
      · intro e he hse
        cases he
        exact hemail ⟨s, hs, hse⟩
      · intro m hm
        cases hm
    have hrow : ∃ u ∈ (registered now db uid user acceptedAt).users, u.id = uid :=
      ⟨_, mem_put.mpr (.inl rfl), rfl⟩
    -- the invitation part
    obtain ⟨db₁, hjoin, horgs, husers, hchallenges⟩ : ∃ db₁, Commits env now pick
        (joinInvite now uid user.id acceptedAt (orNow now acceptedAt) invite)
          (registered now db uid user acceptedAt) () db₁ ∧ db₁.orgs = db.orgs ∧
        db₁.users = (registered now db uid user acceptedAt).users ∧ db₁.challenges =
          db.challenges := by
      cases invite with
      | none => exact ⟨_, commits_pure.mpr ⟨rfl, rfl⟩, rfl, rfl, rfl⟩
      | some invite =>
          obtain ⟨i, hi, rfl, hpending, hexists⟩ := hinvite invite rfl
          refine ⟨_, commits_joinInvite.mpr ⟨i.orgID, i.id, Uuid.parse_string _,
            Uuid.parse_string _, hexists, open_of_pending hi hpending, .inr ⟨hexists, hrow⟩, rfl⟩,
            rfl, rfl, rfl⟩
    -- the organization part
    obtain ⟨db₂, hown, hchallenges'⟩ : ∃ db₂, Commits env now pick
        (ownOrg now uid user.id (orNow now acceptedAt) org) db₁ () db₂ ∧
          db₂.challenges = db₁.challenges := by
      cases org with
      | none => exact ⟨_, commits_pure.mpr ⟨rfl, rfl⟩, rfl⟩
      | some o =>
          obtain ⟨oid, hoid, hcreated, hupdated, hnew⟩ := horg o rfl
          refine ⟨_, commits_ownOrg.mpr ⟨oid, hoid, hcreated, hupdated, horgs ▸ hnew,
            .inr ⟨?_, ?_⟩, rfl⟩, rfl⟩
          · exact ⟨_, mem_put.mpr (.inl rfl), rfl⟩
          · exact husers ▸ hrow
    refine ⟨true, db₂, exec_of_commits ?_, fun h => Bool.noConfusion h,
      hchallenges'.trans hchallenges⟩
    exact commits_createSignupUser.mpr ⟨uid, huid, .inr ⟨huntaken, rfl, db₁, hjoin, hown⟩⟩

/-- `ReissuePendingSignup` succeeds, with or without an effect. -/
theorem exec_reissue_ok (env : Env) (now : Time) (id : Uuid) (pick : Nat) (user : User)
    (challenge : Option OTPChallenge) (invite : Option Invite) (acceptedAt : Time)
    (hchallenge : ∀ ch, challenge = some ch → ∃ cid, Uuid.parse ch.id = some cid ∧
    ch.expiresAt ≠ 0 ∧
      ch.createdAt ≠ 0 ∧ ∀ c ∈ db.challenges, c.id ≠ cid)
    (hinvite : ∀ i, invite = some i → Usable db i) :
    ∃ v db', (Op.reissuePendingSignup user challenge invite acceptedAt).exec env now id pick db =
      (.ok v, db') := by
  cases hhead : (db.users.select (UserRow.unverifiedAt user.email)).head? with
  | none => exact ⟨_, _, exec_reissue_none hhead⟩
  | some r =>
      -- the new challenge, if there is one, has an identifier of its own
      obtain ⟨db₁, hrotate, hsame⟩ :
          ∃ db₁, Commits env now pick (rotateChallenge acceptedAt challenge) (reissued now db user)
            () db₁ ∧ db₁.users = (reissued now db user).users ∧
            db₁.orgs = db.orgs ∧ db₁.invites = db.invites := by
        cases challenge with
        | none => exact ⟨_, commits_pure.mpr ⟨rfl, rfl⟩, rfl, rfl, rfl⟩
        | some ch =>
            obtain ⟨cid, hcid, hexpires, hcreated, hnew⟩ := hchallenge ch rfl
            have hstamp : orNow acceptedAt ch.createdAt ≠ 0 := by simp [orNow, hcreated]
            refine ⟨_, commits_rotateChallenge.mpr ⟨cid, hcid, hexpires, hstamp, ?_, rfl⟩,
              rfl, rfl, rfl⟩
            intro c hc _
            exact hnew c hc
      obtain ⟨husers, horgs, hinvites⟩ := hsame
      -- the invitation, if there is one, is still pending
      obtain ⟨db₂, hactivate⟩ : ∃ db₂, Commits env now pick
          (activateByInvite now r.id.string acceptedAt invite) db₁ () db₂ := by
        cases invite with
        | none => exact ⟨_, commits_pure.mpr ⟨rfl, rfl⟩⟩
        | some invite =>
            obtain ⟨i, hi, rfl, hpending, hexists⟩ := hinvite invite rfl
            refine ⟨_, commits_activateByInvite.mpr ⟨r.id, i.orgID, i.id, Uuid.parse_string _,
              Uuid.parse_string _, Uuid.parse_string _, ?_, horgs ▸ hexists, ?_, rfl⟩⟩
            · rw [husers]
              exact unverified_reissued hhead
            · exact open_of_pending (hinvites ▸ hi) hpending
      exact ⟨_, db₂, exec_of_commits
        (commits_reissuePendingSignup.mpr ⟨r, hhead, rfl, db₁, hrotate, hactivate⟩)⟩

end Calls

end Store
end Postgres
end OrbitAuth
