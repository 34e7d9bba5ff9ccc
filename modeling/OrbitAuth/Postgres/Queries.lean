import Mathlib.Data.List.Sort
import OrbitAuth.Foundations.Program
import OrbitAuth.Postgres.Schema

/-!
# Queries — the statements of `queries/*.sql`

One definition per statement, under the statement's name.  A statement reads the database and
answers with its value and the row writes it makes, or with an error and no writes.  `now` is
`NOW()`; `pick` stands for the server's freedom to return any of several rows that are equally
good for a `:one` query.

Unique and foreign-key checks, `ON CONFLICT` clauses and `ON DELETE` actions are those of the
migrations.
-/

namespace OrbitAuth
namespace Postgres

open Domain Foundations

/-- The value of a statement with the writes it makes. -/
abbrev Outcome (β : Type) := Except SqlError (β × List Write)

/-- A `:one` query without writes. -/
def one {β : Type} : Option β → Outcome β
  | some b => .ok (b, [])
  | none => .error .noRows

/-- `LIMIT 1` (or an unordered `:one`): some row of the result. -/
def limitOne {ρ : Type} (pick : Nat) (rows : List ρ) : Option ρ :=
  rows[pick % rows.length]?

theorem mem_of_limitOne {ρ : Type} {pick : Nat} {rows : List ρ} {r : ρ}
    (h : limitOne pick rows = some r) : r ∈ rows :=
  List.mem_of_getElem? h

theorem limitOne_of_mem {ρ : Type} {rows : List ρ} {r : ρ} (h : r ∈ rows) :
    ∃ pick, limitOne pick rows = some r := by
  rcases List.getElem_of_mem h with ⟨k, hk, hr⟩
  refine ⟨k, ?_⟩
  rw [limitOne, Nat.mod_eq_of_lt hk, List.getElem?_eq_getElem hk, hr]

theorem limitOne_of_ne_nil {ρ : Type} {rows : List ρ} (pick : Nat) (h : rows ≠ []) :
    ∃ r, limitOne pick rows = some r := by
  have hlt : pick % rows.length < rows.length := Nat.mod_lt _ (List.length_pos_iff.mpr h)
  exact ⟨_, List.getElem?_eq_getElem hlt⟩

/-- The rows that come first under `ORDER BY created_at DESC`. -/
def newest {ρ : Type} (createdAt : ρ → Time) (rows : List ρ) : List ρ :=
  rows.filter fun r => rows.all fun s => createdAt s ≤ createdAt r

/-- There is a row that comes first. -/
theorem exists_newest {ρ : Type} (createdAt : ρ → Time) {l : List ρ} (h : l ≠ []) :
    ∃ r, r ∈ newest createdAt l := by
  have hmax : ∃ r ∈ l, ∀ s ∈ l, createdAt s ≤ createdAt r := by
    induction l with
    | nil => exact absurd rfl h
    | cons a l ih =>
        by_cases hl : l = []
        · subst hl
          refine ⟨a, by simp, fun s hs => ?_⟩
          rw [List.mem_singleton.mp hs]
        · obtain ⟨r, hr, hmax⟩ := ih hl
          -- the later of the two
          rcases Nat.le_total (createdAt a) (createdAt r) with hle | hle
          · exact ⟨r, List.mem_cons_of_mem a hr, List.forall_mem_cons.mpr ⟨hle, hmax⟩⟩
          · refine ⟨a, List.mem_cons_self, List.forall_mem_cons.mpr ⟨Nat.le_refl _, fun s hs => ?_⟩⟩
            exact Nat.le_trans (hmax s hs) hle
  obtain ⟨r, hr, hmax⟩ := hmax
  refine ⟨r, List.mem_filter.mpr ⟨hr, ?_⟩⟩
  rw [List.all_eq_true]
  exact fun s hs => decide_eq_true (hmax s hs)

theorem mem_newest_select {ρ κ : Type} [Keyed ρ κ] {t : Table ρ} {q : ρ → Bool}
    {createdAt : ρ → Time} {r : ρ} :
    r ∈ newest createdAt (t.select q) ↔
      (r ∈ t ∧ q r = true) ∧ ∀ s ∈ t, q s = true → createdAt s ≤ createdAt r := by
  simp [newest, mem_select]

/-! ## users.sql -/

/-- The select list shared by the `FindUserBy…` statements. -/
def UserRow.user (r : UserRow) : User where
  id := r.id.string
  email := r.email.getD ""
  mobile := r.mobile.getD ""
  passwordHash := r.passwordHash.getD ""
  displayName := r.displayName.getD ""
  status := r.status
  emailVerified := r.emailVerifiedAt.isSome

/-- A sign-up that has not been verified. -/
def UserRow.unverified (r : UserRow) : Bool :=
  r.status = .signupPending && r.emailVerifiedAt.isNone

def findUserByEmail (db : DB) (email : String) : Outcome User :=
  one ((db.users.rows.find? fun r => r.email = some email).map UserRow.user)

def findUserByMobile (db : DB) (mobile : String) : Outcome User :=
  one ((db.users.rows.find? fun r => r.mobile = some mobile).map UserRow.user)

def findUserByID (db : DB) (id : Uuid) : Outcome User :=
  one ((db.users.find? id).map UserRow.user)

/-- An inserted row; the columns no statement sets have their defaults. -/
def newUser (now : Time) (id : Uuid) (email mobile passwordHash displayName : Option String)
    (status : UserStatus) (emailVerifiedAt : Option Time) : UserRow where
  id := id
  email := email
  mobile := mobile
  passwordHash := passwordHash
  displayName := displayName
  status := status
  emailVerifiedAt := emailVerifiedAt
  createdAt := now
  updatedAt := now
  lastLoginAt := none

/-- Another row holds a unique column of `r`. -/
def taken (db : DB) (r : UserRow) : Bool :=
  db.users.any fun s => s.id = r.id || (r.email.isSome && s.email = r.email) ||
    (r.mobile.isSome && s.mobile = r.mobile)

def insertUser (db : DB) (r : UserRow) : Outcome Unit :=
  if taken db r then .error .uniqueViolation else .ok ((), [.putUser r])

def createUserWithEmail (now : Time) (db : DB) (id : Uuid) (email : String)
    (status : UserStatus) : Outcome Unit :=
  insertUser db (newUser now id (some email) none none none status (some now))

def createUserWithMobile (now : Time) (db : DB) (id : Uuid) (mobile : String) : Outcome Unit :=
  insertUser db (newUser now id none (some mobile) none none .active none)

def UserRow.loggedIn (now : Time) (r : UserRow) : UserRow :=
  { r with lastLoginAt := some now, updatedAt := now }

def updateLastLogin (now : Time) (db : DB) (id : Uuid) : Outcome Unit :=
  .ok ((), ((db.users.select fun r => r.id = id).map (UserRow.loggedIn now)).map .putUser)

/-- `ON CONFLICT (email) DO NOTHING`; the answer is the number of inserted rows. -/
def createSignupUser (now : Time) (db : DB) (id : Uuid) (email passwordHash displayName : String)
    (status : UserStatus) (emailVerifiedAt : Option Time) : Outcome Nat :=
  if db.users.any fun r => r.email = some email then .ok (0, [])
  else
    (insertUser db (newUser now id (some email) none (some passwordHash) (some displayName) status
      emailVerifiedAt)).map fun o => (1, o.2)

def UserRow.unverifiedAt (email : String) (r : UserRow) : Bool :=
  r.email = some email && r.unverified

def UserRow.reissued (now : Time) (passwordHash displayName : String) (r : UserRow) : UserRow :=
  { r with passwordHash := some passwordHash, displayName := some displayName, updatedAt := now }

def reissueSignupUser (now : Time) (db : DB) (email passwordHash displayName : String) :
    Outcome String :=
  let rows := db.users.select (UserRow.unverifiedAt email)
  match rows.head? with
  | none => .error .noRows
  | some r =>
      .ok (r.id.string, (rows.map (UserRow.reissued now passwordHash displayName)).map .putUser)

def UserRow.unverifiedWith (id : Uuid) (r : UserRow) : Bool :=
  r.id = id && r.unverified

def UserRow.activated (now : Time) (emailVerifiedAt : Option Time) (r : UserRow) : UserRow :=
  { r with status := .active, emailVerifiedAt := emailVerifiedAt, updatedAt := now }

def verifySignupUser (now : Time) (db : DB) (id : Uuid) (emailVerifiedAt : Option Time) :
    Outcome Nat :=
  let rows := db.users.select (UserRow.unverifiedWith id)
  .ok (rows.length, (rows.map (UserRow.activated now emailVerifiedAt)).map .putUser)

/-- The rows `PurgeUnverifiedSignups` deletes.  A comparison with `NULL` selects nothing. -/
def UserRow.purged (before : Option Time) (r : UserRow) : Bool :=
  r.unverified && match before with
    | some t => r.createdAt < t
    | none => false

/-- `ON DELETE CASCADE` of a user: the memberships and the invitations they sent. -/
def userCascade (db : DB) (ids : List Uuid) : List Write :=
  ((db.memberships.select fun m => m.userID ∈ ids).map fun m =>
      .delMembership m.orgID m.userID) ++
    ((db.invites.select fun i => i.inviterID ∈ ids).map Keyed.key).map .delInvite

/-- `api_tokens` has no `ON DELETE` action, so a token of a deleted user refuses the statement. -/
def purgeUnverifiedSignups (db : DB) (before : Option Time) : Outcome Nat :=
  let ids := (db.users.select (UserRow.purged before)).map Keyed.key
  if db.apiTokens.any fun t => t.userID ∈ ids then .error .foreignKeyViolation
  else .ok (ids.length, ids.map .delUser ++ userCascade db ids)

/-- The row an upsert leaves when the conflicting row is `r`. -/
def UserRow.reseeded (now : Time) (email mobile : Option String)
    (passwordHash displayName : String) (r : UserRow) : UserRow :=
  { r with
    email := email.or r.email
    mobile := mobile.or r.mobile
    passwordHash := some passwordHash
    displayName := some displayName
    status := .active
    emailVerifiedAt := if email.isSome then r.emailVerifiedAt.or (some now) else r.emailVerifiedAt
    updatedAt := now }

/-- `INSERT … ON CONFLICT (c) DO UPDATE`, where `conflict` recognises the row that holds the
arbiter column's value. -/
def upsertDemoUser (conflict : UserRow → Bool) (now : Time) (db : DB) (id : Uuid)
    (email mobile : Option String) (passwordHash displayName : String) : Outcome Unit :=
  match db.users.rows.find? conflict with
  | some r =>
      let updated := r.reseeded now email mobile passwordHash displayName
      if taken { db with users := db.users.erase r.id } updated then .error .uniqueViolation
      else .ok ((), [.putUser updated])
  | none =>
      insertUser db (newUser now id email mobile (some passwordHash) (some displayName) .active
        (if email.isSome then some now else none))

def upsertDemoUserByEmail (now : Time) (db : DB) (id : Uuid) (email mobile : Option String)
    (passwordHash displayName : String) : Outcome Unit :=
  upsertDemoUser (fun r => email.isSome && r.email = email) now db id email mobile passwordHash
    displayName

def upsertDemoUserByMobile (now : Time) (db : DB) (id : Uuid) (email mobile : Option String)
    (passwordHash displayName : String) : Outcome Unit :=
  upsertDemoUser (fun r => mobile.isSome && r.mobile = mobile) now db id email mobile passwordHash
    displayName

/-! ## otp_challenges.sql -/

def ChallengeRow.challenge (r : ChallengeRow) : OTPChallenge where
  id := r.id.string
  identifier := r.identifier
  channel := r.channel
  codeHash := r.codeHash
  expiresAt := r.expiresAt
  createdAt := r.createdAt
  attempts := r.attempts

def ChallengeRow.addressedTo (identifier channel : String) (r : ChallengeRow) : Bool :=
  r.identifier = identifier && r.channel = channel

def upsertChallenge (db : DB) (id : Uuid) (identifier channel codeHash : String)
    (expiresAt createdAt : Option Time) : Outcome Unit :=
  match expiresAt, createdAt with
  | some expires, some created =>
      if db.challenges.any fun r => r.id = id then .error .uniqueViolation
      else
        .ok ((), [.putChallenge
          { id := id, identifier := identifier, channel := channel, codeHash := codeHash,
            expiresAt := expires, attempts := 0, createdAt := created }])
  | _, _ => .error .notNullViolation

def getLatestChallenge (pick : Nat) (db : DB) (identifier channel : String) :
    Outcome OTPChallenge :=
  one ((limitOne pick (newest ChallengeRow.createdAt
    (db.challenges.select (ChallengeRow.addressedTo identifier channel)))).map
      ChallengeRow.challenge)

def ChallengeRow.attempted (r : ChallengeRow) : ChallengeRow :=
  { r with attempts := r.attempts + 1 }

def incrementChallengeAttempts (db : DB) (id : Uuid) : Outcome Unit :=
  .ok ((), ((db.challenges.select fun r => r.id = id).map ChallengeRow.attempted).map
    .putChallenge)

def consumeChallenge (id : Uuid) : Outcome Unit :=
  .ok ((), [.delChallenge id])

def deleteChallengesForIdentifier (db : DB) (identifier channel : String) : Outcome Unit :=
  .ok ((), ((db.challenges.select (ChallengeRow.addressedTo identifier channel)).map
    Keyed.key).map .delChallenge)

def deleteExpiredChallenges (now : Time) (db : DB) : Outcome Unit :=
  .ok ((), ((db.challenges.select fun r => r.expiresAt < now).map Keyed.key).map .delChallenge)

/-! ## refresh_tokens.sql -/

def RefreshRow.valid (now : Time) (tokenHash : String) (r : RefreshRow) : Bool :=
  r.tokenHash = tokenHash && now < r.expiresAt && r.revokedAt.isNone

def storeRefreshToken (now : Time) (db : DB) (id userID : Uuid) (orgID : Option Uuid)
    (tokenHash : String) (expiresAt : Option Time) : Outcome Unit :=
  match expiresAt with
  | some expires =>
      if db.refreshTokens.any fun r => r.id = id then .error .uniqueViolation
      else
        .ok ((), [.putRefresh
          { id := id, userID := userID, orgID := orgID, tokenHash := tokenHash,
            expiresAt := expires, revokedAt := none, createdAt := now }])
  | none => .error .notNullViolation

/-- The user and the remembered organization, both as text. -/
def findValidRefreshToken (now : Time) (pick : Nat) (db : DB) (tokenHash : String) :
    Outcome (String × String) :=
  one ((limitOne pick (db.refreshTokens.select (RefreshRow.valid now tokenHash))).map fun r =>
    (r.userID.string, (r.orgID.map Uuid.string).getD ""))

def RefreshRow.revoked (now : Time) (r : RefreshRow) : RefreshRow :=
  { r with revokedAt := some now }

def revokeRefreshToken (now : Time) (db : DB) (tokenHash : String) : Outcome Unit :=
  .ok ((), ((db.refreshTokens.select fun r => r.tokenHash = tokenHash).map
    (RefreshRow.revoked now)).map .putRefresh)

/-! ## api_tokens.sql -/

def createAPIToken (now : Time) (db : DB) (id userID : Uuid)
    (name tokenPrefix tokenHash : String) (scopes : Option (List String))
    (expiresAt : Option Time) : Outcome Unit :=
  match scopes with
  | none => .error .notNullViolation
  | some scopes =>
      if db.apiTokens.any fun t => t.id = id then .error .uniqueViolation
      else if !db.users.any fun u => u.id = userID then .error .foreignKeyViolation
      else
        .ok ((), [.putAPIToken
          { id := id, userID := userID, name := name, tokenPrefix := tokenPrefix,
            tokenHash := tokenHash, scopes := scopes, expiresAt := expiresAt, revokedAt := none,
            createdAt := now }])

def APITokenRow.info (r : APITokenRow) : APITokenInfo where
  id := r.id.string
  name := r.name
  tokenPrefix := r.tokenPrefix
  scopes := some r.scopes
  expiresAt := r.expiresAt
  createdAt := r.createdAt

def APITokenRow.token (r : APITokenRow) : APIToken where
  id := r.id.string
  userID := r.userID.string
  name := r.name
  tokenPrefix := r.tokenPrefix
  tokenHash := r.tokenHash
  scopes := some r.scopes
  expiresAt := r.expiresAt
  revokedAt := r.revokedAt
  createdAt := r.createdAt

def listAPITokensByUser (db : DB) (userID : Uuid) : Outcome (List APITokenInfo) :=
  let rows := db.apiTokens.select fun t => t.userID = userID && t.revokedAt.isNone
  .ok ((rows.insertionSort fun s t => t.createdAt ≤ s.createdAt).map APITokenRow.info, [])

def revokeAPIToken (now : Time) (db : DB) (id userID : Uuid) : Outcome Unit :=
  .ok ((), ((db.apiTokens.select fun t => t.id = id && t.userID = userID && t.revokedAt.isNone).map
    fun t => { t with revokedAt := some now }).map .putAPIToken)

def findAPITokenByPrefix (pick : Nat) (db : DB) (tokenPrefix : String) : Outcome APIToken :=
  one ((limitOne pick (newest APITokenRow.createdAt
    (db.apiTokens.select fun t => t.tokenPrefix = tokenPrefix && t.revokedAt.isNone))).map
      APITokenRow.token)

/-! ## organizations.sql -/

def OrgRow.organization (r : OrgRow) : Organization where
  id := r.id.string
  name := r.name
  createdAt := r.createdAt
  updatedAt := r.updatedAt

def MembershipRow.membership (r : MembershipRow) : Membership where
  orgID := r.orgID.string
  userID := r.userID.string
  status := r.status
  createdAt := r.createdAt
  updatedAt := r.updatedAt

def createOrganization (db : DB) (id : Uuid) (name : String) (createdAt updatedAt : Option Time) :
    Outcome Unit :=
  match createdAt, updatedAt with
  | some created, some updated =>
      if db.orgs.any fun o => o.id = id then .error .uniqueViolation
      else
        .ok ((), [.putOrg { id := id, name := name, createdAt := created, updatedAt := updated }])
  | _, _ => .error .notNullViolation

def getOrganization (db : DB) (id : Uuid) : Outcome Organization :=
  one ((db.orgs.find? id).map OrgRow.organization)

def listOrganizationsForUser (db : DB) (userID : Uuid) : Outcome (List Organization) :=
  let rows := db.orgs.select fun o =>
    db.memberships.any fun m => m.orgID = o.id && m.userID = userID && m.status = .active
  .ok ((rows.insertionSort fun a b =>
    a.createdAt < b.createdAt ∨ a.createdAt = b.createdAt ∧ a.id.val ≤ b.id.val).map
      OrgRow.organization, [])

def listOrganizationMembers (db : DB) (orgID : Uuid) : Outcome (List Membership) :=
  let rows := db.memberships.select fun m => m.orgID = orgID
  .ok ((rows.insertionSort fun a b =>
    a.createdAt < b.createdAt ∨ a.createdAt = b.createdAt ∧ a.userID.val ≤ b.userID.val).map
      MembershipRow.membership, [])

/-- The foreign keys of a new membership. -/
def membershipRefs (db : DB) (orgID userID : Uuid) : Bool :=
  db.orgs.any (fun o => o.id = orgID) && db.users.any fun u => u.id = userID

def addOrganizationMembership (now : Time) (db : DB) (orgID userID : Uuid)
    (status : MembershipStatus) : Outcome Unit :=
  match db.memberships.find? (orgID, userID) with
  | some _ => .ok ((), [])
  | none =>
      if membershipRefs db orgID userID then
        .ok ((), [.putMembership
          { orgID := orgID, userID := userID, status := status, createdAt := now,
            updatedAt := now }])
      else .error .foreignKeyViolation

/-- `SELECT id … FOR UPDATE`. -/
def lockOrganization (db : DB) (id : Uuid) : Outcome Unit :=
  one ((db.orgs.find? id).map fun _ => ())

def updateOrganizationMembershipStatus (now : Time) (db : DB) (status : MembershipStatus)
    (orgID userID : Uuid) : Outcome Unit :=
  match db.memberships.find? (orgID, userID) with
  | some m => .ok ((), [.putMembership { m with status := status, updatedAt := now }])
  | none => .ok ((), [])

def deleteOrganizationMembership (orgID userID : Uuid) : Outcome Unit :=
  .ok ((), [.delMembership orgID userID])

def getOrganizationMembership (db : DB) (orgID userID : Uuid) : Outcome Membership :=
  one ((db.memberships.find? (orgID, userID)).map MembershipRow.membership)

def countActiveOrganizationMembers (db : DB) (orgID : Uuid) : Outcome Nat :=
  .ok ((db.memberships.select fun m => m.orgID = orgID && m.status = .active).length, [])

/-- Invitations of a deleted organization cascade. -/
def deleteEmptyOrganizations (db : DB) : Outcome Nat :=
  let gone := (db.orgs.select fun o => !db.memberships.any fun m => m.orgID = o.id).map Keyed.key
  .ok (gone.length,
    gone.map .delOrg ++
      ((db.invites.select fun i => i.orgID ∈ gone).map Keyed.key).map .delInvite)

/-! ## invites.sql -/

/-- The columns every invitation query selects; only the lookup by hash selects `token_hash`. -/
def InviteRow.listed (r : InviteRow) : Invite where
  id := r.id.string
  orgID := r.orgID.string
  email := r.email
  tokenHash := ""
  inviterID := r.inviterID.string
  status := r.status
  expiresAt := r.expiresAt
  acceptedAt := r.acceptedAt
  createdAt := r.createdAt

def InviteRow.invite (r : InviteRow) : Invite :=
  { r.listed with tokenHash := r.tokenHash }

/-- The partial unique index on `(org_id, lower(email))`. -/
def InviteRow.pendingFor (env : Env) (orgID : Uuid) (email : String) (r : InviteRow) : Bool :=
  r.orgID = orgID && env.sqlLower r.email = env.sqlLower email && r.status = .pending

def revokePendingOrganizationInvitesForEmail (env : Env) (db : DB) (orgID : Uuid)
    (email : String) : Outcome Unit :=
  .ok ((), ((db.invites.select (InviteRow.pendingFor env orgID email)).map fun r =>
    { r with status := .revoked }).map .putInvite)

def createOrganizationInvite (env : Env) (db : DB) (id orgID : Uuid) (email tokenHash : String)
    (inviterID : Uuid) (status : InviteStatus) (expiresAt createdAt : Option Time) :
    Outcome Unit :=
  match expiresAt, createdAt with
  | some expires, some created =>
      if db.invites.any fun r => r.id = id || r.tokenHash = tokenHash ||
          (status = .pending && r.pendingFor env orgID email)
      then .error .uniqueViolation
      else if !membershipRefs db orgID inviterID then .error .foreignKeyViolation
      else
        .ok ((), [.putInvite
          { id := id, orgID := orgID, email := email, tokenHash := tokenHash,
            inviterID := inviterID, status := status, expiresAt := expires, acceptedAt := none,
            createdAt := created }])
  | _, _ => .error .notNullViolation

def findOrganizationInviteByTokenHash (db : DB) (tokenHash : String) : Outcome Invite :=
  one ((db.invites.rows.find? fun r => r.tokenHash = tokenHash).map InviteRow.invite)

def listOrganizationInvites (db : DB) (orgID : Uuid) : Outcome (List Invite) :=
  let rows := db.invites.select fun r => r.orgID = orgID
  .ok ((rows.insertionSort fun a b =>
    b.createdAt < a.createdAt ∨ a.createdAt = b.createdAt ∧ a.id.val ≤ b.id.val).map
      InviteRow.listed, [])

/-- The rows the two conditional updates of an invitation apply to. -/
def InviteRow.stillPending (id orgID : Uuid) (r : InviteRow) : Bool :=
  r.id = id && r.orgID = orgID && r.status = .pending

def revokeOrganizationInvite (db : DB) (id orgID : Uuid) : Outcome Nat :=
  let rows := db.invites.select (InviteRow.stillPending id orgID)
  .ok (rows.length, (rows.map fun r => { r with status := .revoked }).map .putInvite)

def acceptOrganizationInvite (db : DB) (id orgID : Uuid) (acceptedAt : Option Time) :
    Outcome Nat :=
  let rows := db.invites.select (InviteRow.stillPending id orgID)
  .ok (rows.length, (rows.map fun r =>
    { r with status := .accepted, acceptedAt := acceptedAt }).map .putInvite)

/-- `ON CONFLICT (org_id, user_id) DO UPDATE … WHERE status = 'invited'`: a suspended membership
is left alone and the statement still succeeds. -/
def addActiveOrganizationMembership (now : Time) (db : DB) (orgID userID : Uuid) : Outcome Unit :=
  match db.memberships.find? (orgID, userID) with
  | some m =>
      if m.status = .invited then
        .ok ((), [.putMembership { m with status := .active, updatedAt := now }])
      else .ok ((), [])
  | none =>
      if membershipRefs db orgID userID then
        .ok ((), [.putMembership
          { orgID := orgID, userID := userID, status := .active, createdAt := now,
            updatedAt := now }])
      else .error .foreignKeyViolation

/-! ## Statements as operations -/

/-- The statements a store call can send, with their parameters. -/
inductive Sql
  | findUserByEmail (email : String)
  | findUserByMobile (mobile : String)
  | findUserByID (id : Uuid)
  | createUserWithEmail (id : Uuid) (email : String) (status : UserStatus)
  | createUserWithMobile (id : Uuid) (mobile : String)
  | updateLastLogin (id : Uuid)
  | createSignupUser (id : Uuid) (email passwordHash displayName : String) (status : UserStatus)
      (emailVerifiedAt : Option Time)
  | reissueSignupUser (email passwordHash displayName : String)
  | verifySignupUser (id : Uuid) (emailVerifiedAt : Option Time)
  | purgeUnverifiedSignups (before : Option Time)
  | upsertDemoUserByEmail (id : Uuid) (email mobile : Option String)
      (passwordHash displayName : String)
  | upsertDemoUserByMobile (id : Uuid) (email mobile : Option String)
      (passwordHash displayName : String)
  | upsertChallenge (id : Uuid) (identifier channel codeHash : String)
      (expiresAt createdAt : Option Time)
  | getLatestChallenge (identifier channel : String)
  | incrementChallengeAttempts (id : Uuid)
  | consumeChallenge (id : Uuid)
  | deleteChallengesForIdentifier (identifier channel : String)
  | deleteExpiredChallenges
  | storeRefreshToken (id userID : Uuid) (orgID : Option Uuid) (tokenHash : String)
      (expiresAt : Option Time)
  | findValidRefreshToken (tokenHash : String)
  | revokeRefreshToken (tokenHash : String)
  | createAPIToken (id userID : Uuid) (name tokenPrefix tokenHash : String)
      (scopes : Option (List String)) (expiresAt : Option Time)
  | listAPITokensByUser (userID : Uuid)
  | revokeAPIToken (id userID : Uuid)
  | findAPITokenByPrefix (tokenPrefix : String)
  | createOrganization (id : Uuid) (name : String) (createdAt updatedAt : Option Time)
  | getOrganization (id : Uuid)
  | listOrganizationsForUser (userID : Uuid)
  | listOrganizationMembers (orgID : Uuid)
  | addOrganizationMembership (orgID userID : Uuid) (status : MembershipStatus)
  | lockOrganization (id : Uuid)
  | updateOrganizationMembershipStatus (status : MembershipStatus) (orgID userID : Uuid)
  | deleteOrganizationMembership (orgID userID : Uuid)
  | getOrganizationMembership (orgID userID : Uuid)
  | countActiveOrganizationMembers (orgID : Uuid)
  | deleteEmptyOrganizations
  | revokePendingOrganizationInvitesForEmail (orgID : Uuid) (email : String)
  | createOrganizationInvite (id orgID : Uuid) (email tokenHash : String) (inviterID : Uuid)
      (status : InviteStatus) (expiresAt createdAt : Option Time)
  | findOrganizationInviteByTokenHash (tokenHash : String)
  | listOrganizationInvites (orgID : Uuid)
  | revokeOrganizationInvite (id orgID : Uuid)
  | acceptOrganizationInvite (id orgID : Uuid) (acceptedAt : Option Time)
  | addActiveOrganizationMembership (orgID userID : Uuid)
  | insertOutboxEvent (event : Event)

@[reducible] def Sql.Val : Sql → Type
  | .findUserByEmail _ | .findUserByMobile _ | .findUserByID _ => User
  | .createSignupUser _ _ _ _ _ _ | .verifySignupUser _ _ | .purgeUnverifiedSignups _ => Nat
  | .reissueSignupUser _ _ _ => String
  | .getLatestChallenge _ _ => OTPChallenge
  | .findValidRefreshToken _ => String × String
  | .listAPITokensByUser _ => List APITokenInfo
  | .findAPITokenByPrefix _ => APIToken
  | .getOrganization _ => Organization
  | .listOrganizationsForUser _ => List Organization
  | .listOrganizationMembers _ => List Membership
  | .getOrganizationMembership _ _ => Membership
  | .countActiveOrganizationMembers _ | .deleteEmptyOrganizations => Nat
  | .findOrganizationInviteByTokenHash _ => Invite
  | .listOrganizationInvites _ => List Invite
  | .revokeOrganizationInvite _ _ | .acceptOrganizationInvite _ _ _ => Nat
  | _ => Unit

def Sql.eval (env : Env) (now : Time) (pick : Nat) (db : DB) : (s : Sql) → Outcome s.Val
  | .findUserByEmail email => Postgres.findUserByEmail db email
  | .findUserByMobile mobile => Postgres.findUserByMobile db mobile
  | .findUserByID id => Postgres.findUserByID db id
  | .createUserWithEmail id email status => Postgres.createUserWithEmail now db id email status
  | .createUserWithMobile id mobile => Postgres.createUserWithMobile now db id mobile
  | .updateLastLogin id => Postgres.updateLastLogin now db id
  | .createSignupUser id email hash name status verified =>
      Postgres.createSignupUser now db id email hash name status verified
  | .reissueSignupUser email hash name => Postgres.reissueSignupUser now db email hash name
  | .verifySignupUser id verified => Postgres.verifySignupUser now db id verified
  | .purgeUnverifiedSignups before => Postgres.purgeUnverifiedSignups db before
  | .upsertDemoUserByEmail id email mobile hash name =>
      Postgres.upsertDemoUserByEmail now db id email mobile hash name
  | .upsertDemoUserByMobile id email mobile hash name =>
      Postgres.upsertDemoUserByMobile now db id email mobile hash name
  | .upsertChallenge id identifier channel hash expires created =>
      Postgres.upsertChallenge db id identifier channel hash expires created
  | .getLatestChallenge identifier channel =>
      Postgres.getLatestChallenge pick db identifier channel
  | .incrementChallengeAttempts id => Postgres.incrementChallengeAttempts db id
  | .consumeChallenge id => Postgres.consumeChallenge id
  | .deleteChallengesForIdentifier identifier channel =>
      Postgres.deleteChallengesForIdentifier db identifier channel
  | .deleteExpiredChallenges => Postgres.deleteExpiredChallenges now db
  | .storeRefreshToken id user org hash expires =>
      Postgres.storeRefreshToken now db id user org hash expires
  | .findValidRefreshToken hash => Postgres.findValidRefreshToken now pick db hash
  | .revokeRefreshToken hash => Postgres.revokeRefreshToken now db hash
  | .createAPIToken id user name tokenPrefix hash scopes expires =>
      Postgres.createAPIToken now db id user name tokenPrefix hash scopes expires
  | .listAPITokensByUser user => Postgres.listAPITokensByUser db user
  | .revokeAPIToken id user => Postgres.revokeAPIToken now db id user
  | .findAPITokenByPrefix tokenPrefix => Postgres.findAPITokenByPrefix pick db tokenPrefix
  | .createOrganization id name created updated =>
      Postgres.createOrganization db id name created updated
  | .getOrganization id => Postgres.getOrganization db id
  | .listOrganizationsForUser user => Postgres.listOrganizationsForUser db user
  | .listOrganizationMembers org => Postgres.listOrganizationMembers db org
  | .addOrganizationMembership org user status =>
      Postgres.addOrganizationMembership now db org user status
  | .lockOrganization id => Postgres.lockOrganization db id
  | .updateOrganizationMembershipStatus status org user =>
      Postgres.updateOrganizationMembershipStatus now db status org user
  | .deleteOrganizationMembership org user => Postgres.deleteOrganizationMembership org user
  | .getOrganizationMembership org user => Postgres.getOrganizationMembership db org user
  | .countActiveOrganizationMembers org => Postgres.countActiveOrganizationMembers db org
  | .deleteEmptyOrganizations => Postgres.deleteEmptyOrganizations db
  | .revokePendingOrganizationInvitesForEmail org email =>
      Postgres.revokePendingOrganizationInvitesForEmail env db org email
  | .createOrganizationInvite id org email hash inviter status expires created =>
      Postgres.createOrganizationInvite env db id org email hash inviter status expires created
  | .findOrganizationInviteByTokenHash hash => Postgres.findOrganizationInviteByTokenHash db hash
  | .listOrganizationInvites org => Postgres.listOrganizationInvites db org
  | .revokeOrganizationInvite id org => Postgres.revokeOrganizationInvite db id org
  | .acceptOrganizationInvite id org accepted =>
      Postgres.acceptOrganizationInvite db id org accepted
  | .addActiveOrganizationMembership org user =>
      Postgres.addActiveOrganizationMembership now db org user
  | .insertOutboxEvent event => .ok ((), [.emit event])

@[reducible] def sqlSignature : Signature where
  Op := Sql
  Ans s := Except SqlError s.Val

end Postgres
end OrbitAuth
