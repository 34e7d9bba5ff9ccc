import OrbitAuth.Postgres.Queries

/-!
# Effects — what a statement can do to each table

`eval_about` says which tables a statement writes; every other table is framed.  For the tables
whose contents matter to the invariants, a `…Change` relation lists once and for all how a
statement can change them, with the guards under which it does.  Invariants are proved by cases on
these relations and never by unfolding the statements again.
-/

namespace OrbitAuth
namespace Postgres

open Domain Foundations

variable {ws : List Write} {db : DB} {now : Time} {pick : Nat} {env : Env} {s : Sql} {r : UserRow}
  {n : Nat} {v : s.Val}

/-- The tables a statement can write. -/
def Sql.writes : Sql → List TableName
  | .createUserWithEmail _ _ _ | .createUserWithMobile _ _ | .updateLastLogin _
  | .createSignupUser _ _ _ _ _ _ | .reissueSignupUser _ _ _ | .verifySignupUser _ _
  | .upsertDemoUserByEmail _ _ _ _ _ | .upsertDemoUserByMobile _ _ _ _ _ => [.users]
  | .purgeUnverifiedSignups _ => [.users, .memberships, .invites]
  | .upsertChallenge _ _ _ _ _ _ | .incrementChallengeAttempts _ | .consumeChallenge _
  | .deleteChallengesForIdentifier _ _ | .deleteExpiredChallenges => [.challenges]
  | .storeRefreshToken _ _ _ _ _ | .revokeRefreshToken _ => [.refreshTokens]
  | .createAPIToken _ _ _ _ _ _ _ | .revokeAPIToken _ _ => [.apiTokens]
  | .createOrganization _ _ _ _ => [.orgs]
  | .addOrganizationMembership _ _ _ | .updateOrganizationMembershipStatus _ _ _
  | .deleteOrganizationMembership _ _ | .addActiveOrganizationMembership _ _ => [.memberships]
  | .deleteEmptyOrganizations => [.orgs, .invites]
  | .revokePendingOrganizationInvitesForEmail _ _ | .createOrganizationInvite _ _ _ _ _ _ _ _
  | .revokeOrganizationInvite _ _ | .acceptOrganizationInvite _ _ _ => [.invites]
  | .insertOutboxEvent _ => [.outbox]
  | _ => []

@[simp] theorem table_putUser (r : UserRow) : (Write.putUser r).table = .users := rfl
@[simp] theorem table_delUser (id : Uuid) : (Write.delUser id).table = .users := rfl
@[simp] theorem table_putChallenge (r : ChallengeRow) :
    (Write.putChallenge r).table = .challenges := rfl
@[simp] theorem table_delChallenge (id : Uuid) : (Write.delChallenge id).table = .challenges := rfl
@[simp] theorem table_putRefresh (r : RefreshRow) :
    (Write.putRefresh r).table = .refreshTokens := rfl
@[simp] theorem table_putAPIToken (r : APITokenRow) :
    (Write.putAPIToken r).table = .apiTokens := rfl
@[simp] theorem table_putOrg (r : OrgRow) : (Write.putOrg r).table = .orgs := rfl
@[simp] theorem table_delOrg (id : Uuid) : (Write.delOrg id).table = .orgs := rfl
@[simp] theorem table_putMembership (r : MembershipRow) :
    (Write.putMembership r).table = .memberships := rfl
@[simp] theorem table_delMembership (o u : Uuid) :
    (Write.delMembership o u).table = .memberships := rfl
@[simp] theorem table_putInvite (r : InviteRow) : (Write.putInvite r).table = .invites := rfl
@[simp] theorem table_delInvite (id : Uuid) : (Write.delInvite id).table = .invites := rfl
@[simp] theorem table_emit (e : Event) : (Write.emit e).table = .outbox := rfl

/-- All writes of an outcome go to the tables `ns`. -/
def About {β : Type} (ns : List TableName) : Outcome β → Prop
  | .ok o => ∀ w ∈ o.2, w.table ∈ ns
  | .error _ => True

@[simp] theorem about_ok {β : Type} (ns : List TableName) (b : β) (ws : List Write) :
    About ns (.ok (b, ws)) ↔ ∀ w ∈ ws, w.table ∈ ns := Iff.rfl

@[simp] theorem about_error {β : Type} (ns : List TableName) (e : SqlError) :
    About ns (.error e : Outcome β) := trivial

@[simp] theorem about_one {β : Type} (ns : List TableName) (b : Option β) : About ns (one b) := by
  cases b with
  | none => exact trivial
  | some b => simp [one]

theorem about_batch {β ρ : Type} {ns : List TableName} {mk : ρ → Write}
    (h : ∀ r, (mk r).table ∈ ns) (b : β) (rs : List ρ) : About ns (.ok (b, rs.map mk)) := by
  intro w hw
  rcases List.mem_map.1 hw with ⟨r, _, rfl⟩
  exact h r

theorem about_insertUser (db : DB) (r : UserRow) : About [.users] (insertUser db r) := by
  unfold insertUser
  split <;> simp

theorem about_upsertDemoUser (conflict : UserRow → Bool) (now : Time) (db : DB) (id : Uuid)
    (email mobile : Option String) (hash name : String) :
    About [.users] (upsertDemoUser conflict now db id email mobile hash name) := by
  unfold upsertDemoUser
  split
  · dsimp only
    split <;> simp
  · exact about_insertUser db _

theorem about_createSignupUser (now : Time) (db : DB) (id : Uuid) (email hash name : String)
    (status : UserStatus) (verified : Option Time) :
    About [.users] (createSignupUser now db id email hash name status verified) := by
  unfold createSignupUser insertUser
  split
  · simp
  · split <;> simp [Except.map]

theorem about_reissueSignupUser (now : Time) (db : DB) (email hash name : String) :
    About [.users] (reissueSignupUser now db email hash name) := by
  unfold reissueSignupUser
  dsimp only
  split
  · simp
  · exact about_batch (by simp) _ _

theorem userCascade_table (db : DB) (ids : List Uuid) :
    ∀ w ∈ userCascade db ids, w.table = .memberships ∨ w.table = .invites := by
  simp only [userCascade, List.forall_mem_append, List.forall_mem_map]
  simp

theorem about_purgeUnverifiedSignups (db : DB) (before : Option Time) :
    About [.users, .memberships, .invites] (purgeUnverifiedSignups db before) := by
  unfold purgeUnverifiedSignups
  dsimp only
  split
  · simp
  · simp only [about_ok, List.forall_mem_append, List.forall_mem_map]
    refine ⟨by simp, ?_⟩
    intro w hw
    rcases userCascade_table db _ w hw with h | h <;> simp [h]

theorem about_deleteEmptyOrganizations (db : DB) :
    About [.orgs, .invites] (deleteEmptyOrganizations db) := by
  simp only [deleteEmptyOrganizations, about_ok, List.forall_mem_append, List.forall_mem_map]
  simp

/-- A statement writes only the tables listed for it. -/
theorem eval_about (env : Env) (now : Time) (pick : Nat) (db : DB) (s : Sql) :
    About s.writes (s.eval env now pick db) := by
  cases s with
  | createUserWithEmail | createUserWithMobile => exact about_insertUser _ _
  | createSignupUser => exact about_createSignupUser _ _ _ _ _ _ _ _
  | reissueSignupUser => exact about_reissueSignupUser _ _ _ _ _
  | upsertDemoUserByEmail | upsertDemoUserByMobile => exact about_upsertDemoUser _ _ _ _ _ _ _ _
  | purgeUnverifiedSignups => exact about_purgeUnverifiedSignups _ _
  | deleteEmptyOrganizations => exact about_deleteEmptyOrganizations _
  -- updates and deletes of the rows that match
  | updateLastLogin | verifySignupUser | incrementChallengeAttempts | revokeRefreshToken
  | deleteChallengesForIdentifier | deleteExpiredChallenges | revokeAPIToken
  | revokePendingOrganizationInvitesForEmail | revokeOrganizationInvite
  | acceptOrganizationInvite => exact about_batch (by simp [Sql.writes]) _ _
  -- inserts: refused for a NULL or a key that is taken, else one row
  | upsertChallenge | createOrganization =>
      simp only [Sql.eval, upsertChallenge, createOrganization]
      split
      · split <;> simp [Sql.writes]
      · simp
  | storeRefreshToken =>
      simp only [Sql.eval, storeRefreshToken]
      split
      · split <;> simp [Sql.writes]
      · simp
  | createAPIToken =>
      simp only [Sql.eval, createAPIToken]
      split
      · simp
      · split
        · simp
        · split <;> simp [Sql.writes]
  | createOrganizationInvite =>
      simp only [Sql.eval, createOrganizationInvite]
      split
      · split
        · simp
        · split <;> simp [Sql.writes]
      · simp
  -- inserts with ON CONFLICT: the row there decides
  | addOrganizationMembership | updateOrganizationMembershipStatus =>
      simp only [Sql.eval, addOrganizationMembership, updateOrganizationMembershipStatus]
      split <;> (try split) <;> simp [Sql.writes]
  | addActiveOrganizationMembership =>
      simp only [Sql.eval, addActiveOrganizationMembership]
      split <;> split <;> simp [Sql.writes]
  | deleteOrganizationMembership | consumeChallenge | insertOutboxEvent =>
      simp [Sql.eval, deleteOrganizationMembership, consumeChallenge, Sql.writes]
  -- the rest only reads
  | countActiveOrganizationMembers | listAPITokensByUser | listOrganizationsForUser
  | listOrganizationMembers | listOrganizationInvites =>
      simp [Sql.eval, countActiveOrganizationMembers, listAPITokensByUser,
        listOrganizationsForUser, listOrganizationMembers, listOrganizationInvites]
  | findUserByEmail | findUserByMobile | findUserByID | getLatestChallenge
  | findValidRefreshToken | findAPITokenByPrefix | getOrganization | lockOrganization
  | getOrganizationMembership | findOrganizationInviteByTokenHash => exact about_one _ _

/-- The frame rule for statements. -/
theorem eval_same (h : s.eval env now pick db = .ok (v, ws)) {n : TableName} (hn : n ∉ s.writes) :
    DB.Same db (db.applyAll ws) n := by
  have habout : ∀ w ∈ ws, w.table ∈ s.writes := by
    have := eval_about env now pick db s
    rwa [h] at this
  refine DB.same_applyAll ?_ db
  intro w hw heq
  exact hn (heq ▸ habout w hw)

theorem ok_writes {β : Type} {b v : β} {ws vs : List Write}
    (h : (.ok (b, ws) : Outcome β) = .ok (v, vs)) : vs = ws :=
  (Prod.mk.inj (Except.ok.inj h)).2.symm

/-! ## users -/

/-- The row an inserting statement inserts. -/
def Sql.insertedUser (now : Time) : Sql → Option UserRow
  | .createUserWithEmail id email status =>
      some (newUser now id (some email) none none none status (some now))
  | .createUserWithMobile id mobile =>
      some (newUser now id none (some mobile) none none .active none)
  | .createSignupUser id email hash name status verified =>
      some (newUser now id (some email) none (some hash) (some name) status verified)
  | .upsertDemoUserByEmail id email mobile hash name
  | .upsertDemoUserByMobile id email mobile hash name =>
      some (newUser now id email mobile (some hash) (some name) .active
        (if email.isSome then some now else none))
  | _ => none

/-- No row shares a unique column with `r`. -/
def Untaken (t : Table UserRow) (r : UserRow) : Prop :=
  ∀ s ∈ t, s.id ≠ r.id ∧ (∀ e, r.email = some e → s.email ≠ some e) ∧
    ∀ m, r.mobile = some m → s.mobile ≠ some m

/-- How a statement can change the users. -/
inductive UserChange (now : Time) (t : Table UserRow) : Sql → Table UserRow → Prop
  | same (s : Sql) : UserChange now t s t
  | inserted {s : Sql} (r : UserRow) (hs : s.insertedUser now = some r) (hr : Untaken t r) :
      UserChange now t s (t.put r)
  | loggedIn (id : Uuid) :
      UserChange now t (.updateLastLogin id) (t.update (fun r => r.id = id) (UserRow.loggedIn now))
  | reissued (email hash name : String) :
      UserChange now t (.reissueSignupUser email hash name)
        (t.update (UserRow.unverifiedAt email) (UserRow.reissued now hash name))
  | verified (id : Uuid) (at_ : Option Time) :
      UserChange now t (.verifySignupUser id at_)
        (t.update (UserRow.unverifiedWith id) (UserRow.activated now at_))
  | reseeded {s : Sql} (id : Uuid) (email mobile : Option String) (hash name : String)
      (hs : s = .upsertDemoUserByEmail id email mobile hash name ∨
        s = .upsertDemoUserByMobile id email mobile hash name)
      (r : UserRow) (hr : r ∈ t)
      (hfree : Untaken (t.erase r.id) (r.reseeded now email mobile hash name)) :
      UserChange now t s (t.put (r.reseeded now email mobile hash name))
  | purged (before : Option Time) :
      UserChange now t (.purgeUnverifiedSignups before) (t.delete (UserRow.purged before))

theorem key_loggedIn (now : Time) (r : UserRow) : Keyed.key (r.loggedIn now) = Keyed.key r := rfl

theorem key_reissued (now : Time) (hash name : String) (r : UserRow) :
    Keyed.key (r.reissued now hash name) = Keyed.key r := rfl

theorem key_activated (now : Time) (at_ : Option Time) (r : UserRow) :
    Keyed.key (r.activated now at_) = Keyed.key r := rfl

theorem untaken_of_taken (db : DB) (h : taken db r = false) : Untaken db.users r := by
  intro s hs
  have hfree := any_eq_false.1 h s hs
  simp only [Bool.or_eq_false_iff, decide_eq_false_iff_not, Bool.and_eq_false_iff] at hfree
  rcases hfree with ⟨⟨hid, hemail⟩, hmobile⟩
  refine ⟨hid, ?_, ?_⟩
  · intro e he hse
    rcases hemail with h | h
    · simp [he] at h
    · exact h (hse.trans he.symm)
  · intro m hm hsm
    rcases hmobile with h | h
    · simp [hm] at h
    · exact h (hsm.trans hm.symm)

theorem taken_of_untaken (h : Untaken db.users r) : taken db r = false := by
  refine any_eq_false.2 fun s hs => ?_
  obtain ⟨hid, hemail, hmobile⟩ := h s hs
  have hemail' : (r.email.isSome && decide (s.email = r.email)) = false := by
    cases he : r.email with
    | none => rfl
    | some e => simpa using hemail e he
  have hmobile' : (r.mobile.isSome && decide (s.mobile = r.mobile)) = false := by
    cases hm : r.mobile with
    | none => rfl
    | some m => simpa using hmobile m hm
  rw [hemail', hmobile']
  simpa using hid

theorem insertUser_eq_ok {v : Unit} (h : insertUser db r = .ok (v, ws)) :
    Untaken db.users r ∧ ws = [.putUser r] := by
  unfold insertUser at h
  split at h
  · cases h
  · rename_i hfree
    cases h
    exact ⟨untaken_of_taken db (by simpa using hfree), rfl⟩

theorem insertUser_of_untaken (h : Untaken db.users r) :
    insertUser db r = .ok ((), [.putUser r]) := by
  unfold insertUser
  rw [taken_of_untaken h]
  rfl

/-- What a demo upsert requires and writes, whichever column is the arbiter. -/
theorem upsertDemoUser_iff {conflict : UserRow → Bool} {id : Uuid} {email mobile : Option String}
    {hash name : String} {v : Unit} :
    upsertDemoUser conflict now db id email mobile hash name = .ok (v, ws) ↔
      (∃ r, db.users.rows.find? conflict = some r ∧
        Untaken (db.users.erase r.id) (r.reseeded now email mobile hash name) ∧
        ws = [.putUser (r.reseeded now email mobile hash name)]) ∨
      (db.users.rows.find? conflict = none ∧
        Untaken db.users (newUser now id email mobile (some hash) (some name) .active
          (if email.isSome then some now else none)) ∧
        ws = [.putUser (newUser now id email mobile (some hash) (some name) .active
          (if email.isSome then some now else none))]) := by
  unfold upsertDemoUser
  cases hfind : db.users.rows.find? conflict with
  -- no conflict with the arbiter, so it is a plain insert
  | none =>
      constructor
      · intro h
        exact .inr ⟨rfl, insertUser_eq_ok h⟩
      · rintro (⟨r, hsome, _⟩ | ⟨_, hfree, rfl⟩)
        · cases hsome
        · exact insertUser_of_untaken hfree
  -- the update in place can still break the other unique column
  | some r =>
      dsimp only
      split
      · rename_i htaken
        constructor
        · intro h
          cases h
        · rintro (⟨s, hsome, hfree, _⟩ | ⟨hnone, _⟩)
          · cases hsome
            have hnot : taken { db with users := db.users.erase r.id }
                (r.reseeded now email mobile hash name) = false := taken_of_untaken hfree
            exact absurd (hnot.symm.trans htaken) Bool.false_ne_true
          · cases hnone
      · rename_i hfree
        have huntaken : Untaken (db.users.erase r.id) (r.reseeded now email mobile hash name) :=
          untaken_of_taken { db with users := db.users.erase r.id }
            (Bool.eq_false_of_not_eq_true hfree)
        constructor
        · intro h
          cases h
          exact .inl ⟨r, rfl, huntaken, rfl⟩
        · rintro (⟨s, hsome, _, rfl⟩ | ⟨hnone, _⟩)
          · cases hsome
            rfl
          · cases hnone

/-- Both `UpsertDemoUser` statements. -/
theorem upsertDemoUser_change {conflict : UserRow → Bool} {id : Uuid}
    {email mobile : Option String} {hash name : String} {v : Unit}
    (hs : s = .upsertDemoUserByEmail id email mobile hash name ∨
      s = .upsertDemoUserByMobile id email mobile hash name)
    (h : upsertDemoUser conflict now db id email mobile hash name = .ok (v, ws)) :
    UserChange now db.users s (db.applyAll ws).users := by
  rcases upsertDemoUser_iff.mp h with ⟨r, hfind, hfree, rfl⟩ | ⟨_, hfree, rfl⟩
  · exact .reseeded id email mobile hash name hs r (List.mem_of_find?_eq_some hfind) hfree
  · refine .inserted _ ?_ hfree
    rcases hs with rfl | rfl <;> rfl

/-- The purge deletes the rows it selects. -/
theorem users_purge {before : Option Time} (h : purgeUnverifiedSignups db before = .ok (n, ws)) :
    (db.applyAll ws).users = db.users.delete (UserRow.purged before) := by
  unfold purgeUnverifiedSignups at h
  dsimp only at h
  split at h
  · cases h
  · have hcascade : ∀ ids, ∀ w ∈ userCascade db ids, w.table ≠ .users := by
      intro ids w hw
      rcases userCascade_table db ids w hw with h | h <;> simp [h]
    rw [ok_writes h, DB.applyAll_append,
      show DB.users _ = DB.users _ from DB.same_applyAll (hcascade _) _, DB.users_delete]

theorem eval_users (h : s.eval env now pick db = .ok (v, ws)) :
    UserChange now db.users s (db.applyAll ws).users := by
  by_cases hn : TableName.users ∈ s.writes
  · cases s with
    | createUserWithEmail id email status =>
        rcases insertUser_eq_ok h with ⟨hfree, rfl⟩
        exact .inserted _ rfl hfree
    | createUserWithMobile id mobile =>
        rcases insertUser_eq_ok h with ⟨hfree, rfl⟩
        exact .inserted _ rfl hfree
    -- ON CONFLICT (email) DO NOTHING
    | createSignupUser id email hash name status verified =>
        simp only [Sql.eval, createSignupUser] at h
        split at h
        · cases h
          exact .same _
        · cases hi : insertUser db (newUser now id (some email) none (some hash) (some name) status
            verified) with
          | error e =>
              rw [hi] at h
              cases h
          | ok o =>
              rw [hi] at h
              cases h
              have hi' : insertUser db _ = .ok (o.1, o.2) := hi
              rcases insertUser_eq_ok hi' with ⟨hfree, hws⟩
              rw [hws]
              exact .inserted _ rfl hfree
    | updateLastLogin id =>
        rw [ok_writes h, DB.users_update]
        exact .loggedIn id
    | reissueSignupUser email hash name =>
        simp only [Sql.eval, reissueSignupUser] at h
        split at h
        · cases h
        · rw [ok_writes h, DB.users_update]
          exact .reissued email hash name
    | verifySignupUser id at_ =>
        rw [ok_writes h, DB.users_update]
        exact .verified id at_
    | purgeUnverifiedSignups before =>
        rw [users_purge h]
        exact .purged before
    | upsertDemoUserByEmail id email mobile hash name => exact upsertDemoUser_change (.inl rfl) h
    | upsertDemoUserByMobile id email mobile hash name => exact upsertDemoUser_change (.inr rfl) h
    -- no other statement lists the users
    | _ => simp [Sql.writes] at hn
  · have hsame : (db.applyAll ws).users = db.users := eval_same h hn
    rw [hsame]
    exact .same s

/-! ## organization_memberships and organizations -/

/-- The accounts a purge deletes. -/
def purgedIDs (db : DB) (before : Option Time) : List Uuid :=
  (db.users.select (UserRow.purged before)).map Keyed.key

/-- The memberships of purged accounts go with them. -/
theorem memberships_purge {before : Option Time}
    (h : purgeUnverifiedSignups db before = .ok (n, ws)) :
    (db.applyAll ws).memberships =
      db.memberships.delete fun m => m.userID ∈ purgedIDs db before := by
  unfold purgeUnverifiedSignups at h
  dsimp only at h
  split at h
  · cases h
  · rw [ok_writes h, userCascade, ← List.append_assoc, DB.applyAll_append]
    have hinvites : ∀ ids : List Uuid, ∀ w ∈ ids.map Write.delInvite, w.table ≠ .memberships := by
      intro ids w hw
      rcases List.mem_map.1 hw with ⟨id, _, rfl⟩
      simp
    have husers : ∀ ids : List Uuid, ∀ w ∈ ids.map Write.delUser, w.table ≠ .memberships := by
      intro ids w hw
      rcases List.mem_map.1 hw with ⟨id, _, rfl⟩
      simp
    rw [show DB.memberships _ = DB.memberships _ from DB.same_applyAll (hinvites _) _,
      DB.applyAll_append]
    have hsame := DB.same_applyAll (husers (purgedIDs db before)) db
    have hmembers : (db.applyAll ((purgedIDs db before).map .delUser)).memberships =
        db.memberships := hsame
    rw [← hmembers]
    exact DB.memberships_delete _ _

/-- Organizations without a membership go. -/
theorem orgs_deleteEmpty (h : deleteEmptyOrganizations db = .ok (n, ws)) :
    (db.applyAll ws).orgs =
      db.orgs.delete fun o => !db.memberships.any fun m => m.orgID = o.id := by
  rw [ok_writes h, DB.applyAll_append]
  have hinvites : ∀ ids : List Uuid, ∀ w ∈ ids.map Write.delInvite, w.table ≠ .orgs := by
    intro ids w hw
    rcases List.mem_map.1 hw with ⟨id, _, rfl⟩
    simp
  rw [show DB.orgs _ = DB.orgs _ from DB.same_applyAll (hinvites _) _]
  exact DB.orgs_delete _ _

/-! ## organization_memberships -/

/-- The membership an inserting statement inserts. -/
def Sql.insertedMembership (now : Time) : Sql → Option MembershipRow
  | .addOrganizationMembership org user status => some ⟨org, user, status, now, now⟩
  | .addActiveOrganizationMembership org user => some ⟨org, user, .active, now, now⟩
  | _ => none

/-- The row a status update leaves. -/
def MembershipRow.restatused (now : Time) (status : MembershipStatus) (m : MembershipRow) :
    MembershipRow :=
  { m with status := status, updatedAt := now }

/-- How a statement can change the memberships. -/
inductive MembershipChange (now : Time) (db : DB) : Sql → Table MembershipRow → Prop
  | same (s : Sql) : MembershipChange now db s db.memberships
  | inserted {s : Sql} (m : MembershipRow) (hs : s.insertedMembership now = some m)
      (hfree : db.memberships.find? (m.orgID, m.userID) = none)
      (horg : ∃ o ∈ db.orgs, o.id = m.orgID) (huser : ∃ u ∈ db.users, u.id = m.userID) :
      MembershipChange now db s (db.memberships.put m)
  | activated (m : MembershipRow) (hm : m ∈ db.memberships) (hinvited : m.status = .invited) :
      MembershipChange now db (.addActiveOrganizationMembership m.orgID m.userID)
        (db.memberships.put (m.restatused now .active))
  | restatused (status : MembershipStatus) (m : MembershipRow) (hm : m ∈ db.memberships) :
      MembershipChange now db (.updateOrganizationMembershipStatus status m.orgID m.userID)
        (db.memberships.put (m.restatused now status))
  | removed (org user : Uuid) :
      MembershipChange now db (.deleteOrganizationMembership org user)
        (db.memberships.erase (org, user))
  | purged (before : Option Time) :
      MembershipChange now db (.purgeUnverifiedSignups before)
        (db.memberships.delete fun m => m.userID ∈ purgedIDs db before)

theorem membershipRefs_iff {org user : Uuid} :
    membershipRefs db org user = true ↔ (∃ o ∈ db.orgs, o.id = org) ∧
    ∃ u ∈ db.users, u.id = user := by
  simp [membershipRefs]

theorem eval_memberships (h : s.eval env now pick db = .ok (v, ws)) :
    MembershipChange now db s (db.applyAll ws).memberships := by
  by_cases hn : TableName.memberships ∈ s.writes
  · cases s with
    | addOrganizationMembership org user status =>
        simp only [Sql.eval, addOrganizationMembership] at h
        split at h
        · rw [ok_writes h]
          exact .same _
        · rename_i hfree
          split at h
          · rename_i hrefs
            rw [ok_writes h]
            have hrefs := membershipRefs_iff.mp hrefs
            exact .inserted _ rfl hfree hrefs.1 hrefs.2
          · cases h
    -- ON CONFLICT: an invited member is activated, and any other row is left alone
    | addActiveOrganizationMembership org user =>
        simp only [Sql.eval, addActiveOrganizationMembership] at h
        split at h
        · rename_i m hfind
          obtain ⟨hm, hkey⟩ := find?_eq_some.mp hfind
          obtain ⟨rfl, rfl⟩ := Prod.mk.inj hkey
          split at h
          · rename_i hinvited
            rw [ok_writes h]
            exact .activated m hm hinvited
          · rw [ok_writes h]
            exact .same _
        · rename_i hfree
          split at h
          · rename_i hrefs
            rw [ok_writes h]
            have hrefs := membershipRefs_iff.mp hrefs
            exact .inserted _ rfl hfree hrefs.1 hrefs.2
          · cases h
    | updateOrganizationMembershipStatus status org user =>
        simp only [Sql.eval, updateOrganizationMembershipStatus] at h
        split at h
        · rename_i m hfind
          obtain ⟨hm, hkey⟩ := find?_eq_some.mp hfind
          obtain ⟨rfl, rfl⟩ := Prod.mk.inj hkey
          rw [ok_writes h]
          exact .restatused status m hm
        -- an update of no row
        · rw [ok_writes h]
          exact .same _
    | deleteOrganizationMembership org user =>
        rw [ok_writes h]
        exact .removed org user
    | purgeUnverifiedSignups before =>
        rw [memberships_purge h]
        exact .purged before
    -- no other statement lists the memberships
    | _ => simp [Sql.writes] at hn
  · have hsame : (db.applyAll ws).memberships = db.memberships := eval_same h hn
    rw [hsame]
    exact .same s

/-! ## organizations -/

/-- Nobody belongs to the organization. -/
def Deserted (db : DB) (o : OrgRow) : Bool :=
  !db.memberships.any fun m => m.orgID = o.id

/-- How a statement can change the organizations. -/
inductive OrgChange (db : DB) : Sql → Table OrgRow → Prop
  | same (s : Sql) : OrgChange db s db.orgs
  | inserted (o : OrgRow) (created updated : Option Time) (hfree : ∀ o' ∈ db.orgs, o'.id ≠ o.id) :
      OrgChange db (.createOrganization o.id o.name created updated) (db.orgs.put o)
  | deserted : OrgChange db .deleteEmptyOrganizations (db.orgs.delete (Deserted db))

theorem eval_orgs (h : s.eval env now pick db = .ok (v, ws)) :
    OrgChange db s (db.applyAll ws).orgs := by
  by_cases hn : TableName.orgs ∈ s.writes
  · cases s with
    | createOrganization id name created updated =>
        simp only [Sql.eval, createOrganization] at h
        split at h
        · split at h
          · cases h
          · rename_i t t' hfree
            rw [ok_writes h]
            exact .inserted ⟨id, name, t, t'⟩ _ _ (by simpa using hfree)
        · cases h
    | deleteEmptyOrganizations =>
        rw [orgs_deleteEmpty h]
        exact .deserted
    | _ => simp [Sql.writes] at hn
  · have hsame : (db.applyAll ws).orgs = db.orgs := eval_same h hn
    rw [hsame]
    exact .same s

/-! ## organization_invites -/

/-- The organizations nobody belongs to. -/
def desertedIDs (db : DB) : List Uuid :=
  (db.orgs.select (Deserted db)).map Keyed.key

theorem table_ne_of_map {ρ : Type} {mk : ρ → Write} {n : TableName} (hmk : ∀ r, (mk r).table ≠ n)
    (rs : List ρ) : ∀ w ∈ rs.map mk, w.table ≠ n := by
  intro w hw
  obtain ⟨r, _, rfl⟩ := List.mem_map.mp hw
  exact hmk r

/-- Writes to other tables first, then the deletion of chosen invitations. -/
theorem invites_delete_after (hws : ∀ w ∈ ws, w.table ≠ .invites) (p : InviteRow → Bool) :
    (db.applyAll (ws ++ ((db.invites.select p).map Keyed.key).map .delInvite)).invites =
      db.invites.delete p := by
  have hsame : (db.applyAll ws).invites = db.invites := DB.same_applyAll hws db
  rw [DB.applyAll_append, ← hsame]
  exact DB.invites_delete _ p

/-- The invitations that purged accounts sent go with them. -/
theorem invites_purge {before : Option Time} (h : purgeUnverifiedSignups db before = .ok (n, ws)) :
    (db.applyAll ws).invites = db.invites.delete fun i => i.inviterID ∈ purgedIDs db before := by
  unfold purgeUnverifiedSignups at h
  dsimp only at h
  split at h
  · cases h
  · rw [ok_writes h, userCascade, ← List.append_assoc]
    refine invites_delete_after ?_ _
    intro w hw
    rcases List.mem_append.mp hw with hw | hw
    · exact table_ne_of_map (by simp) _ w hw
    · exact table_ne_of_map (by simp) _ w hw

/-- So do the invitations of organizations that go. -/
theorem invites_deleteEmpty (h : deleteEmptyOrganizations db = .ok (n, ws)) :
    (db.applyAll ws).invites = db.invites.delete fun i => i.orgID ∈ desertedIDs db := by
  rw [ok_writes h]
  exact invites_delete_after (table_ne_of_map (by simp) _) _

def InviteRow.revoked (r : InviteRow) : InviteRow :=
  { r with status := .revoked }

def InviteRow.accepted (acceptedAt : Option Time) (r : InviteRow) : InviteRow :=
  { r with status := .accepted, acceptedAt := acceptedAt }

/-- No invitation shares a unique column with `r`, nor a pending one its organization and address.
-/
def UntakenInvite (env : Env) (t : Table InviteRow) (r : InviteRow) : Prop :=
  ∀ s ∈ t, s.id ≠ r.id ∧ s.tokenHash ≠ r.tokenHash ∧
    (r.status = .pending → s.pendingFor env r.orgID r.email = false)

/-- How a statement can change the invitations. -/
inductive InviteChange (env : Env) (db : DB) : Sql → Table InviteRow → Prop
  | same (s : Sql) : InviteChange env db s db.invites
  | superseded (org : Uuid) (email : String) :
      InviteChange env db (.revokePendingOrganizationInvitesForEmail org email)
        (db.invites.update (InviteRow.pendingFor env org email) InviteRow.revoked)
  | inserted (r : InviteRow) (expires created : Option Time) (hr : UntakenInvite env db.invites r)
      (hnew : r.acceptedAt = none) (horg : ∃ o ∈ db.orgs, o.id = r.orgID)
      (hinviter : ∃ u ∈ db.users, u.id = r.inviterID) :
      InviteChange env db
        (.createOrganizationInvite r.id r.orgID r.email r.tokenHash r.inviterID r.status
          expires created)
        (db.invites.put r)
  | revoked (id org : Uuid) :
      InviteChange env db (.revokeOrganizationInvite id org)
        (db.invites.update (InviteRow.stillPending id org) InviteRow.revoked)
  | accepted (id org : Uuid) (acceptedAt : Option Time) :
      InviteChange env db (.acceptOrganizationInvite id org acceptedAt)
        (db.invites.update (InviteRow.stillPending id org) (InviteRow.accepted acceptedAt))
  | purged (before : Option Time) :
      InviteChange env db (.purgeUnverifiedSignups before)
        (db.invites.delete fun i => i.inviterID ∈ purgedIDs db before)
  | deserted :
      InviteChange env db .deleteEmptyOrganizations
        (db.invites.delete fun i => i.orgID ∈ desertedIDs db)

theorem key_inviteRevoked (r : InviteRow) : Keyed.key r.revoked = Keyed.key r := rfl

theorem key_inviteAccepted (acceptedAt : Option Time) (r : InviteRow) :
    Keyed.key (r.accepted acceptedAt) = Keyed.key r := rfl

theorem eval_invites (h : s.eval env now pick db = .ok (v, ws)) :
    InviteChange env db s (db.applyAll ws).invites := by
  by_cases hn : TableName.invites ∈ s.writes
  · cases s with
    | revokePendingOrganizationInvitesForEmail org email =>
        rw [ok_writes h, DB.invites_update]
        exact .superseded org email
    | createOrganizationInvite id org email hash inviter status expires created =>
        simp only [Sql.eval, createOrganizationInvite] at h
        split at h
        · split at h
          · cases h
          · rename_i t t' hfree
            split at h
            · cases h
            · rename_i hrefs
              rw [ok_writes h]
              have hrefs := membershipRefs_iff.mp (by simpa using hrefs)
              refine .inserted ⟨id, org, email, hash, inviter, status, t, none, t'⟩ _ _ ?_ rfl
                hrefs.1 hrefs.2
              -- the identifier, the token and the one pending invitation of an address are unique
              intro s hs
              have hfree : ∀ s ∈ db.invites, (s.id ≠ id ∧ s.tokenHash ≠ hash) ∧
                  (status = .pending → s.pendingFor env org email = false) := by
                simpa using hfree
              exact ⟨(hfree s hs).1.1, (hfree s hs).1.2, (hfree s hs).2⟩
        · cases h
    | revokeOrganizationInvite id org =>
        rw [ok_writes h, DB.invites_update]
        exact .revoked id org
    | acceptOrganizationInvite id org acceptedAt =>
        rw [ok_writes h, DB.invites_update]
        exact .accepted id org acceptedAt
    | purgeUnverifiedSignups before =>
        rw [invites_purge h]
        exact .purged before
    | deleteEmptyOrganizations =>
        rw [invites_deleteEmpty h]
        exact .deserted
    -- no other statement lists the invitations
    | _ => simp [Sql.writes] at hn
  · have hsame : (db.applyAll ws).invites = db.invites := eval_same h hn
    rw [hsame]
    exact .same s

/-! ## api_tokens -/

def APITokenRow.retired (now : Time) (t : APITokenRow) : APITokenRow :=
  { t with revokedAt := some now }

theorem key_retired (now : Time) (t : APITokenRow) : Keyed.key (t.retired now) = Keyed.key t := rfl

/-- How a statement can change the API tokens. -/
inductive APITokenChange (now : Time) (db : DB) : Sql → Table APITokenRow → Prop
  | same (s : Sql) : APITokenChange now db s db.apiTokens
  | inserted (t : APITokenRow) (scopes : Option (List String)) (expires : Option Time)
      (huser : ∃ u ∈ db.users, u.id = t.userID) :
      APITokenChange now db
        (.createAPIToken t.id t.userID t.name t.tokenPrefix t.tokenHash scopes expires)
        (db.apiTokens.put t)
  | revoked (id user : Uuid) :
      APITokenChange now db (.revokeAPIToken id user)
        (db.apiTokens.update (fun t => t.id = id && t.userID = user && t.revokedAt.isNone)
          (APITokenRow.retired now))

theorem eval_apiTokens (h : s.eval env now pick db = .ok (v, ws)) :
    APITokenChange now db s (db.applyAll ws).apiTokens := by
  by_cases hn : TableName.apiTokens ∈ s.writes
  · cases s with
    | createAPIToken id user name tokenPrefix hash scopes expires =>
        simp only [Sql.eval, createAPIToken] at h
        split at h
        · cases h
        · split at h
          · cases h
          · split at h
            · cases h
            · rename_i scopes _ huser
              rw [ok_writes h]
              exact .inserted ⟨id, user, name, tokenPrefix, hash, scopes, expires, none, now⟩ _ _
                (by simpa using huser)
    | revokeAPIToken id user =>
        rw [ok_writes h, DB.apiTokens_update]
        exact .revoked id user
    | _ => simp [Sql.writes] at hn
  · have hsame : (db.applyAll ws).apiTokens = db.apiTokens := eval_same h hn
    rw [hsame]
    exact .same s

/-! ## otp_challenges -/

/-- How a statement can change the challenges. -/
inductive ChallengeChange (t : Table ChallengeRow) : Sql → Table ChallengeRow → Prop
  | same (s : Sql) : ChallengeChange t s t
  | inserted (id : Uuid) (identifier channel hash : String) (expires created : Option Time)
      (r : ChallengeRow) : r.id = id →
      ChallengeChange t (.upsertChallenge id identifier channel hash expires created) (t.put r)
  | attempted (id : Uuid) :
      ChallengeChange t (.incrementChallengeAttempts id)
        (t.update (fun r => r.id = id) ChallengeRow.attempted)
  | consumed (id : Uuid) : ChallengeChange t (.consumeChallenge id) (t.erase id)
  | deleted (s : Sql) (p : ChallengeRow → Bool) : ChallengeChange t s (t.delete p)

theorem key_attempted (r : ChallengeRow) : Keyed.key r.attempted = Keyed.key r := rfl

theorem eval_challenges (h : s.eval env now pick db = .ok (v, ws)) :
    ChallengeChange db.challenges s (db.applyAll ws).challenges := by
  by_cases hn : TableName.challenges ∈ s.writes
  · cases s with
    | upsertChallenge id identifier channel hash expires created =>
        simp only [Sql.eval, upsertChallenge] at h
        split at h
        · split at h
          · cases h
          · rw [ok_writes h]
            exact .inserted id identifier channel hash _ _ _ rfl
        · cases h
    | incrementChallengeAttempts id =>
        rw [ok_writes h, DB.challenges_update]
        exact .attempted id
    | consumeChallenge id =>
        rw [ok_writes h]
        exact .consumed id
    | deleteChallengesForIdentifier identifier channel =>
        rw [ok_writes h, DB.challenges_delete]
        exact .deleted _ _
    | deleteExpiredChallenges =>
        rw [ok_writes h, DB.challenges_delete]
        exact .deleted _ _
    | _ => simp [Sql.writes] at hn
  · have hsame : (db.applyAll ws).challenges = db.challenges := eval_same h hn
    rw [hsame]
    exact .same s

/-! ## refresh_tokens -/

/-- How a statement can change the refresh tokens. -/
inductive RefreshChange (now : Time) (t : Table RefreshRow) : Sql → Table RefreshRow → Prop
  | same (s : Sql) : RefreshChange now t s t
  | stored (id user : Uuid) (org : Option Uuid) (hash : String) (expires : Option Time)
      (r : RefreshRow) : r.userID = user → r.tokenHash = hash →
      RefreshChange now t (.storeRefreshToken id user org hash expires) (t.put r)
  | revoked (hash : String) :
      RefreshChange now t (.revokeRefreshToken hash)
        (t.update (fun r => r.tokenHash = hash) (RefreshRow.revoked now))

theorem key_revoked (now : Time) (r : RefreshRow) : Keyed.key (r.revoked now) = Keyed.key r := rfl

theorem eval_refreshTokens (h : s.eval env now pick db = .ok (v, ws)) :
    RefreshChange now db.refreshTokens s (db.applyAll ws).refreshTokens := by
  by_cases hn : TableName.refreshTokens ∈ s.writes
  · cases s with
    | storeRefreshToken id user org hash expires =>
        simp only [Sql.eval, storeRefreshToken] at h
        split at h
        · split at h
          · cases h
          · rw [ok_writes h]
            exact .stored id user org hash _ _ rfl rfl
        · cases h
    | revokeRefreshToken hash =>
        rw [ok_writes h, DB.refreshTokens_update]
        exact .revoked hash
    | _ => simp [Sql.writes] at hn
  · have hsame : (db.applyAll ws).refreshTokens = db.refreshTokens := eval_same h hn
    rw [hsame]
    exact .same s

end Postgres
end OrbitAuth
