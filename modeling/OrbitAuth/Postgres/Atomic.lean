import OrbitAuth.Postgres.Footprints

/-!
# Atomic — a store call as one step

A store call that nothing interferes with runs its statements one after the other on the database
and either keeps all of their writes or none.  `exec_rel` lifts what single statements do to whole
calls, `exec_same` frames the tables a call does not write, and the lemmas after it say what the
calls of one statement answer.
-/

namespace OrbitAuth
namespace Postgres
namespace Store

open Domain Foundations

variable {db : DB} {o : Op}

/-- One statement on its own. -/
def statement (env : Env) (now : Time) (s : Sql) (pick : Nat) (db : DB) :
    Except SqlError s.Val × DB :=
  match s.eval env now pick db with
  | .ok (v, ws) => (.ok v, db.applyAll ws)
  | .error e => (.error e, db)

/-- Commit or roll back to `db`. -/
def settle {β : Type} (db : DB) : Except (Exit β) β × DB → Except Err β × DB
  | (.ok b, db') => (.ok b, db')
  | (.error (.err e), _) => (.error e, db)
  | (.error (.rollback b), _) => (.ok b, db)

def Op.exec (env : Env) (now : Time) (id : Uuid) (pick : Nat) (o : Op) (db : DB) :
    Except Err o.Val × DB :=
  settle db ((o.body now id).run (statement env now) (fun _ => pick) db)

theorem exec_eq (env : Env) (now : Time) (id : Uuid) (pick : Nat) (o : Op) (db : DB) :
    o.exec env now id pick db =
      settle db ((o.body now id).run (statement env now) (fun _ => pick) db) := rfl

/-! ## From statements to calls -/

section Relations

variable {env : Env} {now : Time} {R : DB → DB → Prop}

theorem statement_rel (hrefl : ∀ db, R db db) {s : Sql} {pick : Nat}
    (h : ∀ v ws, s.eval env now pick db = .ok (v, ws) → R db (db.applyAll ws)) :
    R db (statement env now s pick db).2 := by
  unfold statement
  split
  · rename_i v ws heval
    exact h v ws heval
  · exact hrefl db

theorem settle_rel (hrefl : ∀ db, R db db) {β : Type} {res : Except (Exit β) β × DB}
    (h : R db res.2) : R db (settle db res).2 := by
  rcases res with ⟨res, db'⟩
  cases res with
  | ok b => exact h
  | error x =>
      cases x with
      | err e => exact hrefl db
      | rollback b => exact hrefl db

/-- What every statement a call may use does to the database, the call does. -/
theorem exec_rel (hrefl : ∀ db, R db db)
    (htrans : ∀ db₁ db₂ db₃, R db₁ db₂ → R db₂ db₃ → R db₁ db₃) {allowed : Sql → Prop}
    (hstmt : ∀ (s : Sql) pick db v ws, allowed s → s.eval env now pick db = .ok (v, ws) →
      R db (db.applyAll ws)) {id : Uuid} (ho : (o.body now id).Uses allowed) (pick : Nat)
    (db : DB) : R db (o.exec env now id pick db).2 := by
  refine settle_rel hrefl ?_
  refine Program.run_rel hrefl htrans ?_ ho _ db
  intro s pick db hs
  exact statement_rel hrefl (hstmt s pick db · · hs)

/-- The unconditional form of `exec_rel`. -/
theorem exec_rel_all (hrefl : ∀ db, R db db)
    (htrans : ∀ db₁ db₂ db₃, R db₁ db₂ → R db₂ db₃ → R db₁ db₃)
    (hstmt : ∀ (s : Sql) pick db v ws, s.eval env now pick db = .ok (v, ws) →
      R db (db.applyAll ws)) (o : Op) (id : Uuid) (pick : Nat) (db : DB) :
    R db (o.exec env now id pick db).2 :=
  exec_rel hrefl htrans (fun s pick db v ws _ => hstmt s pick db v ws) (Program.uses_true _) pick db

/-- The frame rule for calls. -/
theorem exec_same {n : TableName} (hn : n ∉ o.writes) (now : Time) (id : Uuid) (pick : Nat)
    (db : DB) : DB.Same db (o.exec env now id pick db).2 n := by
  refine exec_rel (R := fun db db' => DB.Same db db' n) (fun db => DB.same_refl db n)
    (fun _ _ _ h₁ h₂ => h₁.trans h₂) ?_ (body_writes now id o) pick db
  intro s pick db v ws hs heval
  exact eval_same heval fun hmem => hn (hs hmem)

/-- A call that writes no table leaves the database as it is. -/
theorem exec_reads (ho : o.writes = []) (now : Time) (id : Uuid) (pick : Nat) (db : DB) :
    (o.exec env now id pick db).2 = db := by
  refine DB.eq_of_same ?_
  intro n
  exact exec_same (by simp [ho]) now id pick db

theorem settle_error_db {β : Type} {res : Except (Exit β) β × DB} {e : Err}
    (h : (settle db res).1 = .error e) : (settle db res).2 = db := by
  rcases res with ⟨res, db'⟩
  cases res with
  | ok b => cases h
  | error x => cases x <;> rfl

/-- A call that reports an error has changed nothing. -/
theorem exec_error_db {now : Time} {id : Uuid} {pick : Nat} {e : Err}
    (h : (o.exec env now id pick db).1 = .error e) : (o.exec env now id pick db).2 = db :=
  settle_error_db h

end Relations

/-! ## Calls of one statement -/

section Single

variable {env : Env} {now : Time} {id : Uuid} {pick : Nat} {db : DB}

/-- The answer of a call that is one `:one` query. -/
def found {β : Type} : Option β → Except Err β
  | some b => .ok b
  | none => .error (.sql "" .noRows)

theorem found_eq_ok {β : Type} {x : Option β} {b : β} : found x = .ok b ↔ x = some b := by
  cases x <;> simp [found]

/-- A call that is one `:one` query answers with the row it finds and changes nothing. -/
theorem settle_one {s : Sql} {x : Option s.Val} (h : s.eval env now pick db = one x) :
    settle db ((stmt "" s : Tx s.Val s.Val).run (statement env now) (fun _ => pick) db) =
      (found x, db) := by
  cases x with
  | none => simp [stmt, statement, h, one, settle, fault, found]
  | some v => simp [stmt, statement, h, one, settle, found]

theorem exec_findByEmail (email : String) :
    (Op.findByEmail email).exec env now id pick db =
      (found ((db.users.rows.find? fun r => r.email = some email).map UserRow.user), db) :=
  settle_one rfl

theorem exec_findByMobile (mobile : String) :
    (Op.findByMobile mobile).exec env now id pick db =
      (found ((db.users.rows.find? fun r => r.mobile = some mobile).map UserRow.user), db) :=
  settle_one rfl

theorem exec_getLatestChallenge (identifier channel : String) :
    (Op.getLatestChallenge identifier channel).exec env now id pick db =
      (found ((limitOne pick (newest ChallengeRow.createdAt
        (db.challenges.select (ChallengeRow.addressedTo identifier channel)))).map
          ChallengeRow.challenge), db) :=
  settle_one rfl

theorem exec_findValid (tokenHash : String) :
    (Op.findValid tokenHash).exec env now id pick db =
      (found ((limitOne pick (db.refreshTokens.select (RefreshRow.valid now tokenHash))).map
        fun r =>
        (r.userID.string, (r.orgID.map Uuid.string).getD "")), db) :=
  settle_one rfl

theorem exec_findByPrefix (tokenPrefix : String) :
    (Op.findByPrefix tokenPrefix).exec env now id pick db =
      (found ((limitOne pick (newest APITokenRow.createdAt (db.apiTokens.select fun t =>
        t.tokenPrefix = tokenPrefix && t.revokedAt.isNone))).map APITokenRow.token), db) :=
  settle_one rfl

/-- The answer of a call that has its own error for a missing row. -/
def foundOr {β : Type} (missing : Err) : Option β → Except Err β
  | some b => .ok b
  | none => .error missing

theorem settle_oneOr {missing : Err} {s : Sql} {x : Option s.Val}
    (h : s.eval env now pick db = one x) :
    settle db ((stmtOne missing s : Tx s.Val s.Val).run (statement env now) (fun _ => pick) db) =
      (foundOr missing x, db) := by
  cases x with
  | none => simp [stmtOne, statement, h, one, settle, fault, foundOr]
  | some v => simp [stmtOne, statement, h, one, settle, foundOr]

theorem exec_findInviteByTokenHash (tokenHash : String) :
    (Op.findInviteByTokenHash tokenHash).exec env now id pick db =
      (foundOr .inviteNotFound ((db.invites.rows.find? fun r => r.tokenHash = tokenHash).map
        InviteRow.invite), db) :=
  settle_oneOr rfl

theorem exec_findInviteByTokenHash_ok {tokenHash : String} {invite : Invite}
    (h : ((Op.findInviteByTokenHash tokenHash).exec env now id pick db).1 = .ok invite) :
    ∃ r ∈ db.invites, r.tokenHash = tokenHash ∧ invite = r.invite := by
  rw [exec_findInviteByTokenHash] at h
  cases hfind : db.invites.rows.find? fun r => r.tokenHash = tokenHash with
  | none =>
      rw [hfind] at h
      exact nomatch h
  | some r =>
      rw [hfind] at h
      have hinvite : r.invite = invite := Except.ok.inj h
      have hhash : r.tokenHash = tokenHash := by simpa using List.find?_some hfind
      exact ⟨r, List.mem_of_find?_eq_some hfind, hhash, hinvite.symm⟩

theorem exec_findByID {userID : String} {user : Uuid} (huser : Uuid.parse userID = some user) :
    (Op.findByID userID).exec env now id pick db =
      (foundOr .userNotFound ((db.users.find? user).map UserRow.user), db) := by
  have hbody : (Op.findByID userID).body now id = stmtOne .userNotFound (.findUserByID user) := by
    simp [Op.body, findByID, parseID, huser]
  rw [exec_eq, hbody]
  exact settle_oneOr rfl

/-- The account a lookup by email returns. -/
theorem exec_findByEmail_ok {email : String} {user : User}
    (h : ((Op.findByEmail email).exec env now id pick db).1 = .ok user) :
    ∃ r ∈ db.users, r.email = some email ∧ user = r.user := by
  rw [exec_findByEmail, found_eq_ok, Option.map_eq_some_iff] at h
  rcases h with ⟨r, hfind, rfl⟩
  have hemail : r.email = some email := by simpa using List.find?_some hfind
  exact ⟨r, List.mem_of_find?_eq_some hfind, hemail, rfl⟩

theorem exec_findByMobile_ok {mobile : String} {user : User}
    (h : ((Op.findByMobile mobile).exec env now id pick db).1 = .ok user) :
    ∃ r ∈ db.users, r.mobile = some mobile ∧ user = r.user := by
  rw [exec_findByMobile, found_eq_ok, Option.map_eq_some_iff] at h
  rcases h with ⟨r, hfind, rfl⟩
  have hmobile : r.mobile = some mobile := by simpa using List.find?_some hfind
  exact ⟨r, List.mem_of_find?_eq_some hfind, hmobile, rfl⟩

/-- The session a lookup returns. -/
theorem exec_findValid_ok {tokenHash : String} {v : String × String}
    (h : ((Op.findValid tokenHash).exec env now id pick db).1 = .ok v) :
    ∃ r ∈ db.refreshTokens, r.valid now tokenHash = true ∧
      v = (r.userID.string, (r.orgID.map Uuid.string).getD "") := by
  rw [exec_findValid, found_eq_ok, Option.map_eq_some_iff] at h
  rcases h with ⟨r, hpick, rfl⟩
  have hmem := List.mem_of_getElem? hpick
  exact ⟨r, (mem_select.1 hmem).1, (mem_select.1 hmem).2, rfl⟩

/-- The membership lookup. -/
theorem exec_getMembership {orgID userID : String} {org user : Uuid}
    (horg : Uuid.parse orgID = some org) (huser : Uuid.parse userID = some user) :
    (Op.getMembership orgID userID).exec env now id pick db =
      ((match db.memberships.find? (org, user) with
        | some r => .ok r.membership
        | none => .error .notMember), db) := by
  cases hfind : db.memberships.find? (org, user) with
  | none =>
      simp [Op.exec, Op.body, getMembership, membershipIDs, parseID, horg, huser, getMembershipRow,
        statement, Sql.eval, getOrganizationMembership, hfind, one, fault, settle]
  | some r =>
      simp [Op.exec, Op.body, getMembership, membershipIDs, parseID, horg, huser, getMembershipRow,
        statement, Sql.eval, getOrganizationMembership, hfind, one, settle]

/-- The membership a lookup returns. -/
theorem exec_getMembership_ok {orgID userID : String} {m : Membership}
    (h : ((Op.getMembership orgID userID).exec env now id pick db).1 = .ok m) :
    ∃ r ∈ db.memberships, Uuid.parse orgID = some r.orgID ∧ Uuid.parse userID = some r.userID ∧
      m = r.membership := by
  cases horg : Uuid.parse orgID with
  | none =>
      simp [Op.exec, Op.body, getMembership, membershipIDs, parseID, horg, fault, settle] at h
  | some org =>
      cases huser : Uuid.parse userID with
      | none =>
          simp [Op.exec, Op.body, getMembership, membershipIDs, parseID, horg, huser, fault,
            settle] at h
      | some user =>
          rw [exec_getMembership horg huser] at h
          cases hfind : db.memberships.find? (org, user) with
          | none =>
              rw [hfind] at h
              exact nomatch h
          | some r =>
              rw [hfind] at h
              have hm : r.membership = m := Except.ok.inj h
              rcases find?_eq_some.1 hfind with ⟨hr, hkey⟩
              rcases Prod.mk.inj hkey with ⟨rfl, rfl⟩
              exact ⟨r, hr, rfl, rfl, hm.symm⟩

theorem exec_getMembership_of_mem {orgID userID : String} {r : MembershipRow}
    (hr : r ∈ db.memberships) (horg : Uuid.parse orgID = some r.orgID)
    (huser : Uuid.parse userID = some r.userID) :
    ((Op.getMembership orgID userID).exec env now id pick db).1 = .ok r.membership := by
  have hfind : db.memberships.find? (r.orgID, r.userID) = some r := find?_of_mem hr
  rw [exec_getMembership horg huser, hfind]

/-- The organizations of a user. -/
theorem exec_listOrgsForUser (user : Uuid) :
    (Op.listOrgsForUser user.string).exec env now id pick db =
      (.ok (((db.orgs.select fun o => db.memberships.any fun m =>
          m.orgID = o.id && m.userID = user && m.status = .active).insertionSort fun a b =>
        a.createdAt < b.createdAt ∨ a.createdAt = b.createdAt ∧ a.id.val ≤ b.id.val).map
          OrgRow.organization), db) := by
  simp [Op.exec, Op.body, listOrgsForUser, parseID, stmt, statement, Sql.eval,
    listOrganizationsForUser, settle]

/-- A session that is stored: a new row for the user and the organization that the texts name. -/
theorem exec_storeRefresh_ok {userID orgID tokenHash : String} {expiresAt : Time}
    (h : ((Op.storeRefresh userID orgID tokenHash expiresAt).exec env now id pick db).1 = .ok ()) :
    ∃ user org, Uuid.parse userID = some user ∧
      (orgID = "" ∧ org = none ∨ orgID ≠ "" ∧ ∃ g, Uuid.parse orgID = some g ∧ org = some g) ∧
      (∀ r ∈ db.refreshTokens, r.id ≠ id) ∧
      ((Op.storeRefresh userID orgID tokenHash expiresAt).exec env now id pick db).2 =
        { db with
          refreshTokens :=
            db.refreshTokens.put ⟨id, user, org, tokenHash, expiresAt, none, now⟩ } := by
  cases huser : Uuid.parse userID with
  | none => simp [Op.exec, Op.body, storeRefresh, parseID, huser, fault, settle] at h
  | some user =>
      -- an empty text is stored as NULL; any other has to parse
      have horg :
          (∃ org : Option Uuid, (parseOptionalOrg orgID : Tx Unit (Option Uuid)) = .done org ∧
          (orgID = "" ∧ org = none ∨ orgID ≠ "" ∧ ∃ g, Uuid.parse orgID = some g ∧ org = some g)) ∨
          ∃ e, (parseOptionalOrg orgID : Tx Unit (Option Uuid)) = .fail (.err e) := by
        unfold parseOptionalOrg parseID
        split
        · rename_i hempty
          exact .inl ⟨none, rfl, .inl ⟨hempty, rfl⟩⟩
        · rename_i hne
          cases hparse : Uuid.parse orgID with
          | none => exact .inr ⟨_, rfl⟩
          | some g => exact .inl ⟨some g, rfl, .inr ⟨hne, g, rfl, rfl⟩⟩
      rcases horg with ⟨org, hdone, htext⟩ | ⟨e, hfail⟩
      · cases heval : storeRefreshToken now db id user org tokenHash (timestamptz expiresAt) with
        | error e =>
            simp [Op.exec, Op.body, storeRefresh, parseID, huser, hdone, stmt, statement,
              Sql.eval, heval, fault, settle] at h
        | ok out =>
            rcases out with ⟨v, ws⟩
            have hdb : ((Op.storeRefresh userID orgID tokenHash expiresAt).exec env now
                id pick db).2 =
                db.applyAll ws := by
              simp [Op.exec, Op.body, storeRefresh, parseID, huser, hdone, stmt,
                statement, Sql.eval, heval, settle]
            unfold storeRefreshToken timestamptz at heval
            -- the zero time is sent as NULL, which the column refuses
            by_cases hzero : expiresAt = 0
            · rw [if_pos hzero] at heval
              cases heval
            · rw [if_neg hzero] at heval
              dsimp only at heval
              split at heval
              · cases heval
              · rename_i hfree
                cases heval
                refine ⟨user, org, rfl, htext, by simpa using hfree, ?_⟩
                rw [hdb]
                rfl
      · simp [Op.exec, Op.body, storeRefresh, parseID, huser, hfail, settle] at h

/-- A session is stored under an identifier that is not taken. -/
theorem exec_storeRefresh_of_free {user : Uuid} {orgID tokenHash : String} {expiresAt : Time}
    (horg : orgID = "" ∨ ∃ org, Uuid.parse orgID = some org) (hexpires : expiresAt ≠ 0)
    (hfree : ∀ r ∈ db.refreshTokens, r.id ≠ id) :
    ((Op.storeRefresh user.string orgID tokenHash expiresAt).exec env now id pick db).1 =
      .ok () := by
  have hany : db.refreshTokens.any (fun r => r.id = id) = false := by simpa using hfree
  have hparse : ∃ org : Option Uuid, parseOptionalOrg orgID = .done org := by
    unfold parseOptionalOrg
    split
    · exact ⟨none, rfl⟩
    · rcases horg with h | ⟨org, h⟩
      · contradiction
      · exact ⟨some org, by simp [parseID, h]⟩
  rcases hparse with ⟨org, hparse⟩
  simp [Op.exec, Op.body, storeRefresh, parseID, hparse, stmt, statement, Sql.eval,
    storeRefreshToken, timestamptz, hexpires, hany, settle]

/-- An account is found by its unique address. -/
theorem exec_findByEmail_of_mem {email : String} {r : UserRow} (hdb : db.Integrity)
    (hr : r ∈ db.users) (hemail : r.email = some email) :
    ((Op.findByEmail email).exec env now id pick db).1 = .ok r.user := by
  rw [exec_findByEmail, found_eq_ok, Option.map_eq_some_iff]
  cases hfind : db.users.rows.find? fun r => r.email = some email with
  | none =>
      have hnone := List.find?_eq_none.1 hfind r hr
      exact absurd (decide_eq_true hemail) hnone
  | some r' =>
      have hemail' : r'.email = some email := by simpa using List.find?_some hfind
      have hr' : r' ∈ db.users := List.mem_of_find?_eq_some hfind
      exact ⟨r', rfl, by rw [hdb.email r hr r' hr' email hemail hemail']⟩

theorem exec_findByMobile_of_mem {mobile : String} {r : UserRow} (hdb : db.Integrity)
    (hr : r ∈ db.users) (hmobile : r.mobile = some mobile) :
    ((Op.findByMobile mobile).exec env now id pick db).1 = .ok r.user := by
  rw [exec_findByMobile, found_eq_ok, Option.map_eq_some_iff]
  cases hfind : db.users.rows.find? fun r => r.mobile = some mobile with
  | none =>
      have hnone := List.find?_eq_none.1 hfind r hr
      exact absurd (decide_eq_true hmobile) hnone
  | some r' =>
      have hmobile' : r'.mobile = some mobile := by simpa using List.find?_some hfind
      have hr' : r' ∈ db.users := List.mem_of_find?_eq_some hfind
      exact ⟨r', rfl, by rw [hdb.mobile r hr r' hr' mobile hmobile hmobile']⟩

/-- A successful activation found the pending row. -/
theorem exec_verifySignup_ok {userID : String} {verifiedAt : Time}
    (h : ((Op.verifySignup userID verifiedAt).exec env now id pick db).1 = .ok ()) :
    ∃ r ∈ db.users, Uuid.parse userID = some r.id ∧ r.unverified = true ∧
      r.activated now (timestamptz verifiedAt) ∈
        ((Op.verifySignup userID verifiedAt).exec env now id pick db).2.users := by
  cases hp : Uuid.parse userID with
  | none => simp [Op.exec, Op.body, verifySignup, parseID, hp, fault, settle] at h
  | some u =>
      -- no pending row under the identifier is reported as an error
      cases hrows : db.users.select (UserRow.unverifiedWith u) with
      | nil =>
          simp [Op.exec, Op.body, verifySignup, parseID, hp, stmt, statement, Sql.eval,
            verifySignupUser, hrows, failIf, fault, settle] at h
      | cons r rest =>
          have hr : r ∈ db.users.select (UserRow.unverifiedWith u) := by simp [hrows]
          have hmem := (mem_select.1 hr).1
          have hcond : r.id = u ∧ r.unverified = true := by
            simpa [UserRow.unverifiedWith] using (mem_select.1 hr).2
          refine ⟨r, hmem, by rw [hcond.1], hcond.2, ?_⟩
          have hexec : ((Op.verifySignup userID verifiedAt).exec env now id pick db).2.users =
              db.users.update (UserRow.unverifiedWith u)
                (UserRow.activated now (timestamptz verifiedAt)) := by
            rw [← DB.users_update]
            simp [Op.exec, Op.body, verifySignup, parseID, hp, stmt, statement, Sql.eval,
              verifySignupUser, hrows, failIf, settle]
          rw [hexec]
          exact (mem_update (key_activated _ _)).2
            (.inl ⟨r, hmem, (mem_select.1 hr).2, rfl⟩)

/-- Consuming a challenge succeeds whether or not it was there. -/
theorem exec_consumeChallenge {challengeID : String} {u : Uuid}
    (hp : Uuid.parse challengeID = some u) :
    (Op.consumeChallenge challengeID).exec env now id pick db =
      (.ok (), db.apply (.delChallenge u)) := by
  simp [Op.exec, Op.body, consumeChallenge, parseID, hp, stmt, statement, Sql.eval,
    Postgres.consumeChallenge, settle]

theorem exec_consumeChallenge_ok {challengeID : String}
    (h : ((Op.consumeChallenge challengeID).exec env now id pick db).1 = .ok ()) :
    ∃ u, Uuid.parse challengeID = some u ∧
      ((Op.consumeChallenge challengeID).exec env now id pick db).2.challenges =
        db.challenges.erase u := by
  cases hp : Uuid.parse challengeID with
  | none => simp [Op.exec, Op.body, consumeChallenge, parseID, hp, fault, settle] at h
  | some u =>
      refine ⟨u, rfl, ?_⟩
      rw [exec_consumeChallenge hp]
      rfl

/-- Counting an attempt succeeds as well. -/
theorem exec_incrementAttempts {challengeID : String} {u : Uuid}
    (hp : Uuid.parse challengeID = some u) :
    ((Op.incrementAttempts challengeID).exec env now id pick db).1 = .ok () ∧
      ((Op.incrementAttempts challengeID).exec env now id pick db).2.challenges =
        db.challenges.update (fun r => r.id = u) ChallengeRow.attempted := by
  rw [← DB.challenges_update]
  simp [Op.exec, Op.body, incrementAttempts, parseID, hp, stmt, statement, Sql.eval,
    incrementChallengeAttempts, settle]

/-- A revocation that reaches the database leaves no usable token with that hash. -/
theorem exec_revoke_refreshTokens (tokenHash : String) :
    ((Op.revoke tokenHash).exec env now id pick db).2.refreshTokens =
      db.refreshTokens.update (fun r => r.tokenHash = tokenHash) (RefreshRow.revoked now) := by
  rw [← DB.refreshTokens_update]
  rfl

/-! ## The purge -/

/-- An API token of an account to be purged makes the purge fail. -/
theorem exec_purge_blocked {before : Time}
    (h : ∃ t ∈ db.apiTokens, t.userID ∈ purgedIDs db (timestamptz before)) :
    ∃ e, (Op.purgeUnverifiedSignups before).exec env now id pick db = (.error e, db) := by
  have hany : (db.apiTokens.any fun t => t.userID ∈
      (db.users.select (UserRow.purged (timestamptz before))).map Keyed.key) = true := by
    rcases h with ⟨t, ht, hid⟩
    exact any_eq_true.2 ⟨t, ht, decide_eq_true hid⟩
  simp only [Op.exec, Op.body, purgeUnverifiedSignups, stmt, Program.bind_eq, Program.call_bind,
    Program.run_call, statement, Sql.eval, Postgres.purgeUnverifiedSignups, hany, if_true]
  exact ⟨_, rfl⟩

/-- Otherwise the accounts and their memberships go, and then the organizations without any. -/
theorem exec_purge {before : Time}
    (h : ∀ t ∈ db.apiTokens, t.userID ∉ purgedIDs db (timestamptz before)) :
    let out := (Op.purgeUnverifiedSignups before).exec env now id pick db
    out.1 = .ok (purgedIDs db (timestamptz before)).length ∧
      out.2.users = db.users.delete (UserRow.purged (timestamptz before)) ∧
      out.2.memberships =
        (db.memberships.delete fun m => m.userID ∈ purgedIDs db (timestamptz before)) ∧
      out.2.orgs = db.orgs.delete fun o => !out.2.memberships.any fun m => m.orgID = o.id := by
  have hany : (db.apiTokens.any fun t => t.userID ∈ purgedIDs db (timestamptz before)) = false :=
    any_eq_false.2 fun t ht => by simpa using h t ht
  have hpurge : ∃ ws, Postgres.purgeUnverifiedSignups db (timestamptz before) =
      .ok ((purgedIDs db (timestamptz before)).length, ws) := by
    unfold Postgres.purgeUnverifiedSignups
    dsimp only
    rw [show (db.users.select (UserRow.purged (timestamptz before))).map Keyed.key =
      purgedIDs db (timestamptz before) from rfl, hany]
    exact ⟨_, rfl⟩
  obtain ⟨ws, hpurge⟩ := hpurge
  -- the second statement sees what the first has deleted
  cases hempty : deleteEmptyOrganizations (db.applyAll ws) with
  | error e => cases hempty
  | ok out' =>
      rcases out' with ⟨n', vs⟩
      have hexec : (Op.purgeUnverifiedSignups before).exec env now id pick db =
          (.ok (purgedIDs db (timestamptz before)).length, (db.applyAll ws).applyAll vs) := by
        simp [Op.exec, Op.body, purgeUnverifiedSignups, stmt, statement, Sql.eval, hpurge,
          hempty, settle]
      have hpurge' : (Sql.purgeUnverifiedSignups (timestamptz before)).eval env now pick db =
          .ok ((purgedIDs db (timestamptz before)).length, ws) := hpurge
      have hempty' : Sql.deleteEmptyOrganizations.eval env now pick (db.applyAll ws) =
          .ok (n', vs) := hempty
      have horgs : (db.applyAll ws).orgs = db.orgs :=
        eval_same hpurge' (n := .orgs) (by simp [Sql.writes])
      have hmembers : ((db.applyAll ws).applyAll vs).memberships = (db.applyAll ws).memberships :=
        eval_same hempty' (n := .memberships) (by simp [Sql.writes])
      have husers : ((db.applyAll ws).applyAll vs).users = (db.applyAll ws).users :=
        eval_same hempty' (n := .users) (by simp [Sql.writes])
      dsimp only
      rw [hexec]
      dsimp only
      rw [hmembers, husers]
      refine ⟨rfl, users_purge hpurge, memberships_purge hpurge, ?_⟩
      rw [orgs_deleteEmpty hempty, horgs]

/-- An API token is inserted under an identifier that is not taken. -/
theorem exec_createToken_ok {t : APIToken}
    (h : ((Op.createToken t).exec env now id pick db).1 = .ok ()) :
    ∃ tid uid scopes, Uuid.parse t.id = some tid ∧ Uuid.parse t.userID = some uid ∧
      t.scopes = some scopes ∧ (∀ r ∈ db.apiTokens, r.id ≠ tid) ∧
      ((Op.createToken t).exec env now id pick db).2.apiTokens = db.apiTokens.put
        ⟨tid, uid, t.name, t.tokenPrefix, t.tokenHash, scopes, t.expiresAt, none, now⟩ := by
  cases hid : Uuid.parse t.id with
  | none => simp [Op.exec, Op.body, createToken, parseID, hid, fault, settle] at h
  | some tid =>
      cases huser : Uuid.parse t.userID with
      | none => simp [Op.exec, Op.body, createToken, parseID, hid, huser, fault, settle] at h
      | some uid =>
          cases heval : createAPIToken now db tid uid t.name t.tokenPrefix t.tokenHash t.scopes
              t.expiresAt with
          | error e =>
              simp [Op.exec, Op.body, createToken, parseID, hid, huser, stmt, statement, Sql.eval,
                heval, fault, settle] at h
          | ok out =>
              rcases out with ⟨v, ws⟩
              have hdb : ((Op.createToken t).exec env now id pick db).2 = db.applyAll ws := by
                simp [Op.exec, Op.body, createToken, parseID, hid, huser, stmt, statement, Sql.eval,
                  heval, settle]
              -- refused: NULL scopes, a taken identifier, a user that does not exist
              unfold createAPIToken at heval
              split at heval
              · cases heval
              · rename_i scopes hscopes
                split at heval
                · cases heval
                · rename_i hfree
                  split at heval
                  · cases heval
                  · cases heval
                    refine ⟨tid, uid, scopes, rfl, rfl, hscopes, by simpa using hfree, ?_⟩
                    rw [hdb]
                    rfl

/-- A token is revoked by its owner, once. -/
theorem exec_revokeToken_ok {userID tokenID : String}
    (h : ((Op.revokeToken userID tokenID).exec env now id pick db).1 = .ok ()) :
    ∃ tid uid, Uuid.parse tokenID = some tid ∧ Uuid.parse userID = some uid ∧
      ((Op.revokeToken userID tokenID).exec env now id pick db).2.apiTokens =
        db.apiTokens.update (fun t => t.id = tid && t.userID = uid && t.revokedAt.isNone)
          (APITokenRow.retired now) := by
  cases huser : Uuid.parse userID with
  | none => simp [Op.exec, Op.body, revokeToken, parseID, huser, fault, settle] at h
  | some uid =>
      cases hid : Uuid.parse tokenID with
      | none => simp [Op.exec, Op.body, revokeToken, parseID, hid, huser, fault, settle] at h
      | some tid =>
          have hrun : ((Op.revokeToken userID tokenID).exec env now id pick db).2 =
              db.applyAll (((db.apiTokens.select fun t => t.id = tid && t.userID = uid &&
                t.revokedAt.isNone).map (APITokenRow.retired now)).map .putAPIToken) := by
            simp only [Op.exec, Op.body, revokeToken, parseID, hid, huser, stmt, settle]
            rfl
          refine ⟨tid, uid, rfl, rfl, ?_⟩
          rw [hrun, DB.apiTokens_update]

end Single

/-! From here on a call is known by the lemmas above. -/

attribute [irreducible] Op.exec

end Store
end Postgres
end OrbitAuth
