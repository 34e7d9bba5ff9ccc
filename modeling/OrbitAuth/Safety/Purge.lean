import OrbitAuth.Safety.Governance
import OrbitAuth.Service.Steps

/-!
# Purge — what the purge of abandoned sign-ups removes, and what it leaves behind

`PurgeUnverifiedSignups` takes the memberships of the accounts it deletes through a foreign-key
cascade, past the count that protects the last active member, and then removes the organizations
that nobody belongs to any more.  An organization whose only active member is a pending account and
that somebody else belongs to, suspended say, stays behind without an active member.

* `purge_governed_iff` — from a governed state the purge leads to a governed state exactly when
  every organization that keeps a member keeps an active one, or an API token blocks the purge;
* `purge_strands_org` — a history of service calls after which it does not;
* `purgesExactly_iff` — the purge removes exactly what it should unless an account that it would
  delete owns an API token, whose foreign key does not cascade.
-/

namespace OrbitAuth
namespace Service
namespace Purge

open Domain Foundations Postgres Postgres.Governance

variable {before : Time}

/-- A sign-up that is pending, unverified and older than the cutoff. -/
def Overdue (before : Time) (r : UserRow) : Prop :=
  r.status = .signupPending ∧ r.emailVerifiedAt = none ∧ r.createdAt < before

instance (before : Time) (r : UserRow) : Decidable (Overdue before r) :=
  inferInstanceAs (Decidable (_ ∧ _))

/-- `u` is the account of such a sign-up. -/
def Purged (before : Time) (db : DB) (u : Uuid) : Prop :=
  ∃ r ∈ db.users, r.id = u ∧ Overdue before r

instance (before : Time) (db : DB) (u : Uuid) : Decidable (Purged before db u) :=
  inferInstanceAs (Decidable (∃ r ∈ db.users, _ ∧ _))

/-- An organization that keeps a member keeps an active one, unless the purge is refused because of
an API token. -/
def KeepsActiveMember (before : Time) (db : DB) : Prop :=
  (∃ t ∈ db.apiTokens, Purged before db t.userID) ∨
    ∀ o ∈ db.orgs, (∃ m ∈ db.memberships, m.orgID = o.id ∧ ¬ Purged before db m.userID) →
      ∃ m ∈ db.memberships, m.orgID = o.id ∧ m.status = .active ∧ ¬ Purged before db m.userID

instance (before : Time) (db : DB) : Decidable (KeepsActiveMember before db) :=
  inferInstanceAs (Decidable (_ ∨ _))

section Store

variable {before : Time} {db : DB}

/-- The query selects these rows; nothing is older than the zero instant, which is sent as `NULL`.
-/
theorem purged_iff {r : UserRow} :
    r.purged (Store.timestamptz before) = true ↔ Overdue before r := by
  by_cases hcutoff : before = 0
  · simp [UserRow.purged, Store.timestamptz, Overdue, hcutoff]
  · simp [UserRow.purged, UserRow.unverified, Store.timestamptz, Overdue, hcutoff, and_assoc]

theorem mem_purgedIDs {u : Uuid} :
    u ∈ purgedIDs db (Store.timestamptz before) ↔ Purged before db u := by
  simp only [purgedIDs, List.mem_map, mem_select, key_user, Purged, purged_iff]
  constructor
  · rintro ⟨r, ⟨hr, hp⟩, hid⟩
    exact ⟨r, hr, hid, hp⟩
  · rintro ⟨r, hr, hid, hp⟩
    exact ⟨r, ⟨hr, hp⟩, hid⟩

/-- The memberships that remain are those of the accounts that remain. -/
theorem mem_memberships_delete {m : MembershipRow} :
    (m ∈ db.memberships.delete fun m => m.userID ∈ purgedIDs db (Store.timestamptz before)) ↔
      m ∈ db.memberships ∧ ¬ Purged before db m.userID := by
  rw [mem_delete, decide_eq_false_iff_not, mem_purgedIDs]

/-- The store call by itself. -/
theorem exec_purge_governed_iff {env : Env} {now : Time} {id : Uuid} {pick : Nat}
    (hgoverned : Governed db) :
    Governed ((Store.Op.purgeUnverifiedSignups before).exec env now id pick db).2 ↔
      KeepsActiveMember before db := by
  by_cases hblocked : ∃ t ∈ db.apiTokens, Purged before db t.userID
  · -- the statement fails and the transaction is rolled back
    rcases hblocked with ⟨t, ht, hp⟩
    obtain ⟨e, hexec⟩ :=
      @Store.exec_purge_blocked env now id pick db before ⟨t, ht, mem_purgedIDs.2 hp⟩
    rw [hexec]
    exact ⟨fun _ => .inl ⟨t, ht, hp⟩, fun _ => hgoverned⟩
  · have hfree : ∀ t ∈ db.apiTokens, t.userID ∉ purgedIDs db (Store.timestamptz before) := by
      intro t ht hmem
      exact hblocked ⟨t, ht, mem_purgedIDs.1 hmem⟩
    rcases @Store.exec_purge env now id pick db before hfree with ⟨_, _, hmembers, horgs⟩
    generalize ((Store.Op.purgeUnverifiedSignups before).exec env now id pick db).2 = db' at *
    have hmem : ∀ m, m ∈ db'.memberships ↔ m ∈ db.memberships ∧ ¬ Purged before db m.userID := by
      intro m
      rw [hmembers]
      exact mem_memberships_delete
    have horg : ∀ o, o ∈ db'.orgs ↔ o ∈ db.orgs ∧ ∃ m ∈ db'.memberships, m.orgID = o.id := by
      intro o
      rw [horgs, mem_delete]
      simp
    constructor
    · intro hafter
      refine .inr fun o ho hkeeps => ?_
      rcases hkeeps with ⟨m, hm, hmo, hstays⟩
      have ho' : o ∈ db'.orgs := (horg o).2 ⟨ho, m, (hmem m).2 ⟨hm, hstays⟩, hmo⟩
      rcases hafter o ho' with ⟨m', hm', hm'o, hactive⟩
      exact ⟨m', ((hmem m').1 hm').1, hm'o, hactive, ((hmem m').1 hm').2⟩
    · rintro (h | h)
      · exact absurd h hblocked
      · intro o ho'
        rcases (horg o).1 ho' with ⟨ho, m, hm, hmo⟩
        rcases h o ho ⟨m, ((hmem m).1 hm).1, hmo, ((hmem m).1 hm).2⟩
          with ⟨m', hm', hm'o, hactive, hstays⟩
        exact ⟨m', (hmem m').2 ⟨hm', hstays⟩, hm'o, hactive⟩

end Store

/-! ## The service call -/

theorem program_purge (cfg : Config) (hcutoff : before ≠ 0) :
    (Call.purgeUnverifiedSignups before).program cfg =
      .call (.store (.purgeUnverifiedSignups before)) fun r =>
        (orReturn r).bind fun n => .done (.count n) := by
  simp [Call.program, purgeUnverifiedSignups, failIf, hcutoff, store]

theorem perform_purge (cfg : Config) (hcutoff : before ≠ 0) (choices : Nat → Choice) (w : World) :
    ((Call.purgeUnverifiedSignups before).perform cfg choices w).2 =
      (exec cfg.env (.store (.purgeUnverifiedSignups before)) (choices 0) w).2 := by
  unfold Call.perform
  rw [program_purge cfg hcutoff, Program.run_call]
  cases (exec cfg.env (.store (.purgeUnverifiedSignups before)) (choices 0) w).1 <;> rfl

theorem perform_purge_res (cfg : Config) (hcutoff : before ≠ 0) (choices : Nat → Choice)
    (w : World) :
    ((Call.purgeUnverifiedSignups before).perform cfg choices w).1 =
      (exec cfg.env (.store (.purgeUnverifiedSignups before)) (choices 0) w).1.map Reply.count := by
  unfold Call.perform
  rw [program_purge cfg hcutoff, Program.run_call]
  cases (exec cfg.env (.store (.purgeUnverifiedSignups before)) (choices 0) w).1 <;> rfl

theorem not_purged_zero (db : DB) (u : Uuid) : ¬ Purged 0 db u := by
  rintro ⟨r, _, _, _, _, hold⟩
  exact Nat.not_lt_zero _ hold

/-- The purge keeps the organizations of a governed state governed, whatever the environment does,
exactly when every organization that keeps a member keeps an active one. -/
theorem purge_governed_iff (cfg : Config) (before : Time) {w : World} (hgoverned : Governed w.db) :
    (∀ choices, Governed ((Call.purgeUnverifiedSignups before).perform cfg choices w).2.db) ↔
      KeepsActiveMember before w.db := by
  by_cases hcutoff : before = 0
  · subst hcutoff
    refine ⟨fun _ => .inr fun o ho _ => ?_, fun _ _ => hgoverned⟩
    rcases hgoverned o ho with ⟨m, hm, hmo, hactive⟩
    exact ⟨m, hm, hmo, hactive, not_purged_zero w.db m.userID⟩
  · simp only [perform_purge cfg hcutoff]
    constructor
    · intro h
      have hrun := h fun _ => {}
      rw [exec_store_runs cfg.env _ rfl w] at hrun
      exact (exec_purge_governed_iff hgoverned).1 hrun
    · intro h choices
      rcases exec_store cfg.env (.purgeUnverifiedSignups before) (choices 0) w with hx | hx
      · rw [hx]
        exact hgoverned
      · rw [hx]
        exact (exec_purge_governed_iff hgoverned).2 h

/-! ## What is removed -/

/-- The purge answers with the number of accounts it deleted.  The others are as they were, and so
are their memberships in the organizations that remain: those that somebody belongs to. -/
structure PurgesExactly (before : Time) (db : DB) (res : Except Err Reply) (db' : DB) : Prop where
  counts : ∃ n, res = .ok (.count n) ∧ db'.users.rows.length + n = db.users.rows.length
  users : ∀ r, r ∈ db'.users ↔ r ∈ db.users ∧ ¬ Overdue before r
  memberships : ∀ m : MembershipRow, (∃ r ∈ db'.users, r.id = m.userID) →
    (∃ o ∈ db'.orgs, o.id = m.orgID) → (m ∈ db'.memberships ↔ m ∈ db.memberships)
  orgs : ∀ o, o ∈ db'.orgs ↔ o ∈ db.orgs ∧ ∃ m ∈ db'.memberships, m.orgID = o.id

/-- An API token of an account to be purged. -/
def blocked (before : Time) (db : DB) : Bool :=
  db.apiTokens.any fun t => db.users.any fun r => r.id = t.userID && Overdue before r

theorem blocked_iff {db : DB} :
    blocked before db = true ↔
      ∃ t ∈ db.apiTokens, t.userID ∈ purgedIDs db (Store.timestamptz before) := by
  simp only [blocked, any_eq_true, Bool.and_eq_true, decide_eq_true_eq, mem_purgedIDs]
  rfl

/-- Unless it is blocked, the store call removes what it should. -/
theorem exec_purgesExactly {db : DB} (env : Env) (now : Time) (id : Uuid) (pick : Nat)
    (h : blocked before db = false) :
    PurgesExactly before db
      (((Store.Op.purgeUnverifiedSignups before).exec env now id pick db).1.map Reply.count)
      ((Store.Op.purgeUnverifiedSignups before).exec env now id pick db).2 := by
  have hfree : ∀ t ∈ db.apiTokens, t.userID ∉ purgedIDs db (Store.timestamptz before) := by
    intro t ht hid
    rw [blocked_iff.mpr ⟨t, ht, hid⟩] at h
    cases h
  obtain ⟨hres, husers, hmembers, horgs⟩ := @Store.exec_purge env now id pick db before hfree
  generalize (Store.Op.purgeUnverifiedSignups before).exec env now id pick db = out at *
  have hrows : ∀ r, r ∈ out.2.users ↔ r ∈ db.users ∧ ¬ Overdue before r := by
    intro r
    rw [husers, mem_delete, ← purged_iff, Bool.not_eq_true]
  refine ⟨⟨_, congrArg (Except.map Reply.count) hres, ?_⟩, hrows, ?_, ?_⟩
  · rw [husers, purgedIDs, List.length_map]
    exact Table.length_delete db.users _
  · rintro m ⟨r, hr, hid⟩ _
    rw [hmembers, mem_memberships_delete]
    refine ⟨fun hm => hm.1, fun hm => ⟨hm, ?_⟩⟩
    -- the account of the membership stays, and no other has its identifier
    rintro ⟨s, hs, hsid, hpurged⟩
    rw [eq_of_key hs ((hrows r).mp hr).1 (hsid.trans hid.symm)] at hpurged
    exact ((hrows r).mp hr).2 hpurged
  · intro o
    rw [horgs, mem_delete, Bool.not_eq_false', any_eq_true]
    simp only [decide_eq_true_eq]

/-- When the store does not fail, the purge removes exactly what it should unless an account to be
purged owns an API token. -/
theorem purgesExactly_iff (cfg : Config) {before : Time} (hcutoff : before ≠ 0)
    {choices : Nat → Choice} (hfails : (choices 0).fails = false) (w : World) :
    PurgesExactly before w.db ((Call.purgeUnverifiedSignups before).perform cfg choices w).1
        ((Call.purgeUnverifiedSignups before).perform cfg choices w).2.db ↔
      blocked before w.db = false := by
  have hdb := congrArg World.db (perform_purge cfg hcutoff choices w)
  have hres := perform_purge_res cfg hcutoff choices w
  rw [exec_store_runs cfg.env _ hfails w] at hdb hres
  rw [hdb, hres]
  constructor
  · rintro ⟨⟨n, hcount, _⟩, _, _, _⟩
    refine Bool.eq_false_iff.mpr fun hblocked => ?_
    obtain ⟨e, hexec⟩ := @Store.exec_purge_blocked cfg.env (max w.now (choices 0).now)
      (choices 0).id (choices 0).pick w.db before (blocked_iff.mp hblocked)
    rw [hexec] at hcount
    cases hcount
  · exact exec_purgesExactly cfg.env _ _ _

/-! ## Histories -/

/-- The calls that make up an organization's history. -/
inductive IsHistoryCall : Call → Prop
  | createOrg (creatorID name : String) : IsHistoryCall (.createOrg creatorID name)
  | addMember (orgID userID : String) : IsHistoryCall (.addMember orgID userID)
  | suspendMember (orgID userID : String) : IsHistoryCall (.suspendMember orgID userID)
  | removeMember (orgID userID : String) : IsHistoryCall (.removeMember orgID userID)
  | inviteMember (orgID inviterID email : String) :
      IsHistoryCall (.inviteMember orgID inviterID email)
  | acceptInvite (userID token : String) : IsHistoryCall (.acceptInvite userID token)
  | revokeInvite (orgID inviteID callerID : String) :
      IsHistoryCall (.revokeInvite orgID inviteID callerID)
  | registerWithEmail (email password displayName locale orgName inviteToken : String) :
      IsHistoryCall (.registerWithEmail email password displayName locale orgName inviteToken)
  | verifySignup (email code password : String) : IsHistoryCall (.verifySignup email code password)

/-- One call of the small deployment at the instant `t`, drawing identifiers from `first` on. -/
def play (t : Time) (first : Nat) (call : Call) (w : World) : World :=
  (call.perform toyConfig (fun n => { now := t, id := Uuid.ofNat (first + n), code := "123456" })
    w).2

theorem reachable_play {allowed : Call → Prop} {w : World}
    (h : Reachable toyConfig allowed World.empty w) (t : Time) (first : Nat) {call : Call}
    (hcall : allowed call) :
    Reachable toyConfig allowed World.empty (play t first call w) :=
  .step h call hcall _

/-- Ann has an account and an organization, Bob has registered and not verified the address. -/
def founded : World :=
  play 1300 400 (.registerWithEmail "bob@example.com" "hunter2" "Bob" "" "" "")
    (play 1200 300 (.createOrg (Uuid.ofNat 102).string "acme")
      (play 1100 200 (.verifySignup "ann@example.com" "123456" "secret")
        (play 1000 100 (.registerWithEmail "ann@example.com" "secret" "Ann" "" "" "")
          World.empty)))

/-- The pending account is added to the organization. -/
def joined : World :=
  play 1400 500 (.addMember (Uuid.ofNat 301).string (Uuid.ofNat 402).string) founded

/-- Bob's account is purged, and the organization stays with Ann. -/
theorem purge_governed_iff_joined :
    Governed joined.db ∧ KeepsActiveMember 1900 joined.db ∧
      Purged 1900 joined.db (Uuid.ofNat 402) ∧
      (play 2000 700 (.purgeUnverifiedSignups 1900) joined).db.orgs.rows = joined.db.orgs.rows ∧
      ∀ choices, Governed ((Call.purgeUnverifiedSignups 1900).perform toyConfig choices
        joined).2.db := by
  obtain ⟨hgoverned, hkeeps, hpurged, horgs⟩ :
      Governed joined.db ∧ KeepsActiveMember 1900 joined.db ∧
        Purged 1900 joined.db (Uuid.ofNat 402) ∧
        (play 2000 700 (.purgeUnverifiedSignups 1900) joined).db.orgs.rows =
          joined.db.orgs.rows := by
    decide +kernel
  exact ⟨hgoverned, hkeeps, hpurged, horgs, (purge_governed_iff toyConfig 1900 hgoverned).2 hkeeps⟩

/-- Somebody registers with an organization and never verifies the address. -/
def abandoned : World :=
  play 1000 100 (.registerWithEmail "ann@example.com" "secret" "Ann" "" "acme" "") World.empty

/-- The account and its organization are all that is removed. -/
theorem purgesExactly_abandoned :
    blocked 2000 abandoned.db = false ∧ PurgesExactly 2000 abandoned.db
      ((Call.purgeUnverifiedSignups 2000).perform toyConfig (fun _ => {}) abandoned).1
      ((Call.purgeUnverifiedSignups 2000).perform toyConfig (fun _ => {}) abandoned).2.db := by
  have hfree : blocked 2000 abandoned.db = false := by decide +kernel
  exact ⟨hfree, (purgesExactly_iff toyConfig (by decide) rfl abandoned).mpr hfree⟩

/-- The abandoned account has created an API token. -/
def tokenOwner : World :=
  play 1100 200 (.createApiToken (Uuid.ofNat 102).string "ci" (some []) none) abandoned

/-- A reachable state in which the purge removes nothing at all. -/
theorem purge_blocked_by_token :
    Reachable toyConfig (fun _ => True) World.empty tokenOwner ∧
      (∃ r ∈ tokenOwner.db.users, Overdue 2000 r) ∧
      ((Call.purgeUnverifiedSignups 2000).perform toyConfig (fun _ => {}) tokenOwner).1.isOk =
        false ∧
      ((Call.purgeUnverifiedSignups 2000).perform toyConfig (fun _ => {})
        tokenOwner).2.db.users.rows =
        tokenOwner.db.users.rows ∧
      ¬ PurgesExactly 2000 tokenOwner.db
        ((Call.purgeUnverifiedSignups 2000).perform toyConfig (fun _ => {}) tokenOwner).1
        ((Call.purgeUnverifiedSignups 2000).perform toyConfig (fun _ => {}) tokenOwner).2.db := by
  have hout : (∃ r ∈ tokenOwner.db.users, Overdue 2000 r) ∧
      ((Call.purgeUnverifiedSignups 2000).perform toyConfig (fun _ => {}) tokenOwner).1.isOk =
        false ∧
      ((Call.purgeUnverifiedSignups 2000).perform toyConfig (fun _ => {})
        tokenOwner).2.db.users.rows =
        tokenOwner.db.users.rows := by
    decide +kernel
  have hreached : Reachable toyConfig (fun _ => True) World.empty tokenOwner :=
    reachable_play (reachable_play .start 1000 100 trivial) 1100 200 trivial
  refine ⟨hreached, hout.1, hout.2.1, hout.2.2, fun hexact => ?_⟩
  obtain ⟨n, hres, _⟩ := hexact.counts
  rw [hres] at hout
  cases hout.2.1

/-- With the pending account in the organization, its owner is suspended. -/
def stranded : World :=
  play 1500 600 (.suspendMember (Uuid.ofNat 301).string (Uuid.ofNat 102).string) joined

/-- A reachable, governed state from which the purge leaves an organization with a suspended member
only. -/
theorem purge_strands_org :
    Reachable toyConfig IsHistoryCall World.empty stranded ∧ Governed stranded.db ∧
      ¬ Governed (play 2000 700 (.purgeUnverifiedSignups 1900) stranded).db := by
  have hruns : Governed stranded.db ∧
      ¬ Governed (play 2000 700 (.purgeUnverifiedSignups 1900) stranded).db := by decide +kernel
  have hfounded : Reachable toyConfig IsHistoryCall World.empty founded :=
    reachable_play (reachable_play (reachable_play (reachable_play .start
      1000 100 (.registerWithEmail ..)) 1100 200 (.verifySignup ..)) 1200 300 (.createOrg ..))
      1300 400 (.registerWithEmail ..)
  have hstranded : Reachable toyConfig IsHistoryCall World.empty stranded :=
    reachable_play (reachable_play hfounded 1400 500 (.addMember ..)) 1500 600 (.suspendMember ..)
  exact ⟨hstranded, hruns⟩

end Purge
end Service
end OrbitAuth
