import OrbitAuth.Domain.Entities
import OrbitAuth.Foundations.Table

/-!
# Schema — the tables of the auth database

One row type per table of the migrations, keyed as the migrations key it, and the state of the
whole database.  A statement changes the database through row writes: `put` inserts or replaces
the row under its primary key and `del` deletes it.  Keeping the writes as data lets the same
statement run at once (`DB.applyAll`) or stay private to a transaction until it commits.

`DB.Integrity` collects the constraints of the migrations that the primary keys do not give:
unique columns and foreign keys.
-/

namespace OrbitAuth
namespace Postgres

open Domain Foundations

/-! ## Rows -/

structure UserRow where
  id : Uuid
  email : Option String
  mobile : Option String
  passwordHash : Option String
  displayName : Option String
  status : UserStatus
  emailVerifiedAt : Option Time
  createdAt : Time
  updatedAt : Time
  lastLoginAt : Option Time
  deriving DecidableEq

structure ChallengeRow where
  id : Uuid
  identifier : String
  channel : String
  codeHash : String
  expiresAt : Time
  attempts : Nat
  createdAt : Time
  deriving DecidableEq

structure RefreshRow where
  id : Uuid
  userID : Uuid
  orgID : Option Uuid
  tokenHash : String
  expiresAt : Time
  revokedAt : Option Time
  createdAt : Time
  deriving DecidableEq

structure APITokenRow where
  id : Uuid
  userID : Uuid
  name : String
  tokenPrefix : String
  tokenHash : String
  scopes : List String
  expiresAt : Option Time
  revokedAt : Option Time
  createdAt : Time
  deriving DecidableEq

structure OrgRow where
  id : Uuid
  name : String
  createdAt : Time
  updatedAt : Time
  deriving DecidableEq

structure MembershipRow where
  orgID : Uuid
  userID : Uuid
  status : MembershipStatus
  createdAt : Time
  updatedAt : Time
  deriving DecidableEq

structure InviteRow where
  id : Uuid
  orgID : Uuid
  email : String
  tokenHash : String
  inviterID : Uuid
  status : InviteStatus
  expiresAt : Time
  acceptedAt : Option Time
  createdAt : Time
  deriving DecidableEq

instance : Keyed UserRow Uuid := ⟨UserRow.id⟩
instance : Keyed ChallengeRow Uuid := ⟨ChallengeRow.id⟩
instance : Keyed RefreshRow Uuid := ⟨RefreshRow.id⟩
instance : Keyed APITokenRow Uuid := ⟨APITokenRow.id⟩
instance : Keyed OrgRow Uuid := ⟨OrgRow.id⟩
instance : Keyed MembershipRow (Uuid × Uuid) := ⟨fun m => (m.orgID, m.userID)⟩
instance : Keyed InviteRow Uuid := ⟨InviteRow.id⟩

@[simp] theorem key_user (r : UserRow) : Keyed.key r = r.id := rfl
@[simp] theorem key_challenge (r : ChallengeRow) : Keyed.key r = r.id := rfl
@[simp] theorem key_refresh (r : RefreshRow) : Keyed.key r = r.id := rfl
@[simp] theorem key_apiToken (r : APITokenRow) : Keyed.key r = r.id := rfl
@[simp] theorem key_org (r : OrgRow) : Keyed.key r = r.id := rfl
@[simp] theorem key_membership (r : MembershipRow) : Keyed.key r = (r.orgID, r.userID) := rfl
@[simp] theorem key_invite (r : InviteRow) : Keyed.key r = r.id := rfl

/-! ## The database -/

structure DB where
  users : Table UserRow
  challenges : Table ChallengeRow
  refreshTokens : Table RefreshRow
  apiTokens : Table APITokenRow
  orgs : Table OrgRow
  memberships : Table MembershipRow
  invites : Table InviteRow
  outbox : List Event

/-- The database right after the migrations. -/
def DB.empty : DB where
  users := .empty
  challenges := .empty
  refreshTokens := .empty
  apiTokens := .empty
  orgs := .empty
  memberships := .empty
  invites := .empty
  outbox := []

/-! ## Row writes -/

inductive Write
  | putUser (r : UserRow)
  | delUser (id : Uuid)
  | putChallenge (r : ChallengeRow)
  | delChallenge (id : Uuid)
  | putRefresh (r : RefreshRow)
  | putAPIToken (r : APITokenRow)
  | putOrg (r : OrgRow)
  | delOrg (id : Uuid)
  | putMembership (r : MembershipRow)
  | delMembership (org user : Uuid)
  | putInvite (r : InviteRow)
  | delInvite (id : Uuid)
  | emit (e : Event)

inductive TableName
  | users
  | challenges
  | refreshTokens
  | apiTokens
  | orgs
  | memberships
  | invites
  | outbox
  deriving DecidableEq

def Write.table : Write → TableName
  | putUser _ | delUser _ => .users
  | putChallenge _ | delChallenge _ => .challenges
  | putRefresh _ => .refreshTokens
  | putAPIToken _ => .apiTokens
  | putOrg _ | delOrg _ => .orgs
  | putMembership _ | delMembership _ _ => .memberships
  | putInvite _ | delInvite _ => .invites
  | emit _ => .outbox

namespace DB

def apply (db : DB) : Write → DB
  | .putUser r => { db with users := db.users.put r }
  | .delUser id => { db with users := db.users.erase id }
  | .putChallenge r => { db with challenges := db.challenges.put r }
  | .delChallenge id => { db with challenges := db.challenges.erase id }
  | .putRefresh r => { db with refreshTokens := db.refreshTokens.put r }
  | .putAPIToken r => { db with apiTokens := db.apiTokens.put r }
  | .putOrg r => { db with orgs := db.orgs.put r }
  | .delOrg id => { db with orgs := db.orgs.erase id }
  | .putMembership r => { db with memberships := db.memberships.put r }
  | .delMembership org user => { db with memberships := db.memberships.erase (org, user) }
  | .putInvite r => { db with invites := db.invites.put r }
  | .delInvite id => { db with invites := db.invites.erase id }
  | .emit e => { db with outbox := db.outbox ++ [e] }

def applyAll (db : DB) (ws : List Write) : DB :=
  ws.foldl apply db

@[simp] theorem applyAll_nil (db : DB) : db.applyAll [] = db := rfl

@[simp] theorem applyAll_cons (db : DB) (w : Write) (ws : List Write) :
    db.applyAll (w :: ws) = (db.apply w).applyAll ws := rfl

theorem applyAll_append (db : DB) (ws vs : List Write) :
    db.applyAll (ws ++ vs) = (db.applyAll ws).applyAll vs := by
  simp [applyAll, List.foldl_append]

/-! ### Frames -/

/-- The two databases agree on table `n`. -/
def Same (db db' : DB) : TableName → Prop
  | .users => db'.users = db.users
  | .challenges => db'.challenges = db.challenges
  | .refreshTokens => db'.refreshTokens = db.refreshTokens
  | .apiTokens => db'.apiTokens = db.apiTokens
  | .orgs => db'.orgs = db.orgs
  | .memberships => db'.memberships = db.memberships
  | .invites => db'.invites = db.invites
  | .outbox => db'.outbox = db.outbox

theorem same_refl (db : DB) (n : TableName) : Same db db n := by
  cases n <;> rfl

theorem Same.trans {db₁ db₂ db₃ : DB} {n : TableName} (h₁ : Same db₁ db₂ n)
    (h₂ : Same db₂ db₃ n) : Same db₁ db₃ n := by
  cases n <;> exact Eq.trans h₂ h₁

theorem eq_of_same {db db' : DB} (h : ∀ n, Same db db' n) : db' = db := by
  have husers := h .users
  have hchallenges := h .challenges
  have hrefresh := h .refreshTokens
  have hapi := h .apiTokens
  have horgs := h .orgs
  have hmembers := h .memberships
  have hinvites := h .invites
  have houtbox := h .outbox
  cases db
  cases db'
  simp only [Same] at *
  subst husers hchallenges hrefresh hapi horgs hmembers hinvites houtbox
  rfl

/-- A table that no write of the batch is about stays as it is. -/
theorem same_applyAll {ws : List Write} {n : TableName} (h : ∀ w ∈ ws, w.table ≠ n) (db : DB) :
    Same db (db.applyAll ws) n := by
  induction ws generalizing db with
  | nil => exact same_refl db n
  | cons w ws ih =>
      have hw : w.table ≠ n := h w (by simp)
      have hstep : Same db (db.apply w) n := by
        cases w <;> cases n <;> first | rfl | exact absurd rfl hw
      exact hstep.trans (ih (fun v hv => h v (by simp [hv])) _)

/-! ### Updates and deletions by condition -/

/-- The writes of one table, one row at a time, are a fold over that table. -/
theorem applyAll_fold {ρ σ : Type} (proj : DB → σ) (mk : ρ → Write) (f : σ → ρ → σ)
    (hmk : ∀ db r, proj (db.apply (mk r)) = f (proj db) r) (rs : List ρ) (db : DB) :
    proj (db.applyAll (rs.map mk)) = rs.foldl f (proj db) := by
  induction rs generalizing db with
  | nil => rfl
  | cons r rs ih => simp [ih, hmk]

/-- The other tables stay as they are. -/
theorem applyAll_set {ρ σ : Type} (get : DB → σ) (set : DB → σ → DB) (mk : ρ → Write)
    (f : σ → ρ → σ) (hid : ∀ db, set db (get db) = db) (hget : ∀ db t, get (set db t) = t)
    (hset : ∀ db t u, set (set db t) u = set db u)
    (hmk : ∀ db r, db.apply (mk r) = set db (f (get db) r)) (rs : List ρ) (db : DB) :
    db.applyAll (rs.map mk) = set db (rs.foldl f (get db)) := by
  induction rs generalizing db with
  | nil => exact (hid db).symm
  | cons r rs ih =>
      rw [List.map_cons, applyAll_cons, ih, hmk, hget, hset]
      rfl

section Batches

variable (db : DB)

theorem users_update (p : UserRow → Bool) (f : UserRow → UserRow) :
    (db.applyAll (((db.users.select p).map f).map .putUser)).users = db.users.update p f :=
  applyAll_fold DB.users .putUser Table.put (fun _ _ => rfl) _ db

theorem users_delete (p : UserRow → Bool) :
    (db.applyAll (((db.users.select p).map Keyed.key).map .delUser)).users = db.users.delete p :=
  applyAll_fold DB.users .delUser Table.erase (fun _ _ => rfl) _ db

theorem challenges_update (p : ChallengeRow → Bool) (f : ChallengeRow → ChallengeRow) :
    (db.applyAll (((db.challenges.select p).map f).map .putChallenge)).challenges =
      db.challenges.update p f :=
  applyAll_fold DB.challenges .putChallenge Table.put (fun _ _ => rfl) _ db

theorem challenges_delete (p : ChallengeRow → Bool) :
    (db.applyAll (((db.challenges.select p).map Keyed.key).map .delChallenge)).challenges =
      db.challenges.delete p :=
  applyAll_fold DB.challenges .delChallenge Table.erase (fun _ _ => rfl) _ db

theorem refreshTokens_update (p : RefreshRow → Bool) (f : RefreshRow → RefreshRow) :
    (db.applyAll (((db.refreshTokens.select p).map f).map .putRefresh)).refreshTokens =
      db.refreshTokens.update p f :=
  applyAll_fold DB.refreshTokens .putRefresh Table.put (fun _ _ => rfl) _ db

theorem memberships_delete (p : MembershipRow → Bool) :
    (db.applyAll ((db.memberships.select p).map fun m =>
      .delMembership m.orgID m.userID)).memberships = db.memberships.delete p := by
  have hfold :=
    applyAll_fold DB.memberships (fun m : MembershipRow => .delMembership m.orgID m.userID)
    (fun t m => t.erase (Keyed.key m)) (fun _ _ => rfl) (db.memberships.select p) db
  rw [hfold]
  exact List.foldl_map.symm

theorem orgs_delete (p : OrgRow → Bool) :
    (db.applyAll (((db.orgs.select p).map Keyed.key).map .delOrg)).orgs = db.orgs.delete p :=
  applyAll_fold DB.orgs .delOrg Table.erase (fun _ _ => rfl) _ db

theorem invites_update (p : InviteRow → Bool) (f : InviteRow → InviteRow) :
    (db.applyAll (((db.invites.select p).map f).map .putInvite)).invites = db.invites.update p f :=
  applyAll_fold DB.invites .putInvite Table.put (fun _ _ => rfl) _ db

theorem invites_delete (p : InviteRow → Bool) :
    (db.applyAll (((db.invites.select p).map Keyed.key).map .delInvite)).invites =
      db.invites.delete p :=
  applyAll_fold DB.invites .delInvite Table.erase (fun _ _ => rfl) _ db

theorem apiTokens_update (p : APITokenRow → Bool) (f : APITokenRow → APITokenRow) :
    (db.applyAll (((db.apiTokens.select p).map f).map .putAPIToken)).apiTokens =
      db.apiTokens.update p f :=
  applyAll_fold DB.apiTokens .putAPIToken Table.put (fun _ _ => rfl) _ db

theorem applyAll_putUsers (rs : List UserRow) :
    db.applyAll (rs.map .putUser) = { db with users := rs.foldl Table.put db.users } :=
  applyAll_set DB.users (fun db t => { db with users := t }) .putUser Table.put (fun _ => rfl)
    (fun _ _ => rfl) (fun _ _ _ => rfl) (fun _ _ => rfl) rs db

theorem applyAll_putInvites (rs : List InviteRow) :
    db.applyAll (rs.map .putInvite) = { db with invites := rs.foldl Table.put db.invites } :=
  applyAll_set DB.invites (fun db t => { db with invites := t }) .putInvite Table.put (fun _ => rfl)
    (fun _ _ => rfl) (fun _ _ _ => rfl) (fun _ _ => rfl) rs db

theorem applyAll_delChallenges (ids : List Uuid) :
    db.applyAll (ids.map .delChallenge) =
      { db with challenges := ids.foldl Table.erase db.challenges } :=
  applyAll_set DB.challenges (fun db t => { db with challenges := t }) .delChallenge Table.erase
    (fun _ => rfl) (fun _ _ => rfl) (fun _ _ _ => rfl) (fun _ _ => rfl) ids db

end Batches

/-! ## Constraints -/

/-- The unique columns and foreign keys of the migrations. -/
structure Integrity (db : DB) : Prop where
  email : ∀ r ∈ db.users, ∀ s ∈ db.users, ∀ e, r.email = some e → s.email = some e → r = s
  mobile : ∀ r ∈ db.users, ∀ s ∈ db.users, ∀ m, r.mobile = some m → s.mobile = some m → r = s
  inviteToken : ∀ r ∈ db.invites, ∀ s ∈ db.invites, r.tokenHash = s.tokenHash → r = s
  membershipOrg : ∀ m ∈ db.memberships, ∃ o ∈ db.orgs, o.id = m.orgID
  membershipUser : ∀ m ∈ db.memberships, ∃ u ∈ db.users, u.id = m.userID
  inviteOrg : ∀ i ∈ db.invites, ∃ o ∈ db.orgs, o.id = i.orgID
  inviter : ∀ i ∈ db.invites, ∃ u ∈ db.users, u.id = i.inviterID
  apiTokenUser : ∀ t ∈ db.apiTokens, ∃ u ∈ db.users, u.id = t.userID

theorem integrity_empty : DB.empty.Integrity := by
  constructor <;> intro r hr <;> exact absurd hr (not_mem_empty r)

end DB

end Postgres
end OrbitAuth
