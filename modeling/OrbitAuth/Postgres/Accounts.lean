import OrbitAuth.Postgres.Commits

/-!
# Accounts — the account that is created for an address

`FindOrCreateByEmail` and `FindOrCreateByMobile` insert a row when their lookup finds none, and
return a `User` that is built in memory; the columns that the insert does not name, and
`email_verified_at`, are filled in by the database.

* `Address` — the email or the mobile number;
* `Address.inserted`, `Address.built` — the row that is inserted and the value that is returned for
  it;
* `commits_create` — the transaction: what it requires, returns and leaves.
-/

namespace OrbitAuth
namespace Postgres

open Domain Foundations

/-! ## Addresses -/

/-- What an account is found or created by. -/
inductive Address
  | email (text : String)
  | mobile (text : String)
  deriving DecidableEq, Repr

variable {a : Address}

namespace Address

/-- The row has the address. -/
def names : Address → UserRow → Bool
  | .email text, r => r.email = some text
  | .mobile text, r => r.mobile = some text

/-- The row that `CreateUserWithEmail` or `CreateUserWithMobile` inserts. -/
def inserted (now : Time) (id : Uuid) : Address → UserRow
  | .email text => newUser now id (some text) none none none .active (some now)
  | .mobile text => newUser now id none (some text) none none .active none

/-- The value that is returned for it. -/
def built (id : Uuid) : Address → User
  | .email text => ⟨id.string, text, "", "", "", .active, false⟩
  | .mobile text => ⟨id.string, "", text, "", "", .other "", false⟩

/-- The creating transaction. -/
def create (now : Time) (id : Uuid) : Address → Store.Tx User User
  | .email text => Store.createByEmail now id text
  | .mobile text => Store.createByMobile now id text

/-- A created account is verified in the database and not in the returned value. -/
theorem stored_email (now : Time) (id : Uuid) (text : String) :
    ((email text).inserted now id).user = { (email text).built id with emailVerified := true } :=
      rfl

/-- A created account is active in the database and has no status in the returned value. -/
theorem stored_mobile (now : Time) (id : Uuid) (text : String) :
    ((mobile text).inserted now id).user = { (mobile text).built id with status := .active } := rfl

theorem stored_ne_built (now : Time) (id : Uuid) (a : Address) :
    (a.inserted now id).user ≠ a.built id := by
  cases a with
  | email text =>
      intro h
      rw [stored_email] at h
      exact nomatch congrArg User.emailVerified h
  | mobile text =>
      intro h
      rw [stored_mobile] at h
      exact nomatch congrArg User.status h

/-- An address that no row has can be inserted under a new identifier, and only then. -/
theorem untaken_inserted {t : Foundations.Table UserRow} {now : Time} {id : Uuid} :
    Untaken t (a.inserted now id) ↔ ∀ r ∈ t, r.id ≠ id ∧ a.names r = false := by
  cases a with
  | email text => simp [Untaken, inserted, newUser, names]
  | mobile text => simp [Untaken, inserted, newUser, names]

end Address

namespace Store

variable {env : Env} {now : Time} {pick : Nat} {db db' : DB} {id : Uuid}

/-- A transaction that inserts an account and announces it. -/
theorem commits_announced {p : Tx User Unit} {row : UserRow} {e : Event} {user user' : User}
    (hp : ∀ db₁, Commits env now pick p db () db₁ ↔
      Untaken db.users row ∧ db₁ = { db with users := db.users.put row }) :
    Commits env now pick (do p; emitEvents now [e]; pure user) db user' db' ↔
      Untaken db.users row ∧ user' = user ∧
        db' = { db with users := db.users.put row, outbox := db.outbox ++ [stamp now e] } := by
  constructor
  · intro h
    obtain ⟨_, db₁, hinsert, h₁⟩ := commits_bind.mp h
    obtain ⟨hfree, rfl⟩ := (hp db₁).mp hinsert
    obtain ⟨_, db₂, hemit, h₂⟩ := commits_bind.mp h₁
    obtain rfl := commits_emitEvents.mp hemit
    obtain ⟨rfl, rfl⟩ := commits_pure.mp h₂
    exact ⟨hfree, rfl, rfl⟩
  · rintro ⟨hfree, rfl, rfl⟩
    refine commits_bind.mpr ⟨(), _, (hp _).mpr ⟨hfree, rfl⟩, ?_⟩
    exact commits_bind.mpr ⟨(), _, commits_emitEvents.mpr rfl, commits_pure.mpr ⟨rfl, rfl⟩⟩

/-- An insert that is one row or nothing. -/
theorem exists_insert_iff {row : UserRow} {out : Outcome Unit} (h : out = insertUser db row) :
    (∃ ws, out = .ok ((), ws) ∧ db' = db.applyAll ws) ↔
      Untaken db.users row ∧ db' = { db with users := db.users.put row } := by
  subst h
  constructor
  · rintro ⟨ws, heval, rfl⟩
    obtain ⟨hfree, rfl⟩ := insertUser_eq_ok heval
    exact ⟨hfree, rfl⟩
  · rintro ⟨hfree, rfl⟩
    exact ⟨_, insertUser_of_untaken hfree, rfl⟩

/-- The creating transaction gets through when the address and the identifier are free. -/
theorem commits_create {user : User} :
    Commits env now pick (a.create now id) db user db' ↔
      Untaken db.users (a.inserted now id) ∧ user = a.built id ∧
        db' = { db with
          users := db.users.put (a.inserted now id)
          outbox := db.outbox ++ [stamp now (.userCreated id.string now)] } := by
  cases a with
  | email text =>
      refine commits_announced fun db₁ => ?_
      exact commits_stmt.trans (exists_insert_iff rfl)
  | mobile text =>
      refine commits_announced fun db₁ => ?_
      exact commits_stmt.trans (exists_insert_iff rfl)

theorem definite_create (now : Time) (id : Uuid) (a : Address) : Definite (a.create now id) := by
  cases a with
  | email text =>
      exact definite_bind (definite_stmt _ _) fun _ =>
        definite_bind (definite_emitEvents _ _) fun _ => .done _
  | mobile text =>
      exact definite_bind (definite_stmt _ _) fun _ =>
        definite_bind (definite_emitEvents _ _) fun _ => .done _

/-! ## Calls -/

/-- `CreateByEmail` or `CreateByMobile`, as a call. -/
def execCreate (env : Env) (now : Time) (id : Uuid) (pick : Nat) (db : DB) :
    Address → Except Err User × DB
  | .email text => (Op.createByEmail text).exec env now id pick db
  | .mobile text => (Op.createByMobile text).exec env now id pick db

/-- An account that is created has a new identifier. -/
theorem execCreate_ok {user : User} (h : (execCreate env now id pick db a).1 = .ok user) :
    user = a.built id ∧ (∀ r ∈ db.users, r.id ≠ id) ∧
      a.inserted now id ∈ (execCreate env now id pick db a).2.users := by
  have hcommits : Commits env now pick (a.create now id) db user
      (execCreate env now id pick db a).2 := by
    have hdefinite := definite_create now id a
    cases a with
    | email text => exact commits_of_exec (o := .createByEmail text) hdefinite h
    | mobile text => exact commits_of_exec (o := .createByMobile text) hdefinite h
  obtain ⟨hfree, rfl, hdb⟩ := commits_create.mp hcommits
  refine ⟨rfl, fun r hr => (Address.untaken_inserted.mp hfree r hr).1, ?_⟩
  rw [hdb]
  exact mem_put.mpr (.inl rfl)

theorem execCreate_of_free (h : ∀ r ∈ db.users, r.id ≠ id ∧ a.names r = false) :
    (execCreate env now id pick db a).1 = .ok (a.built id) := by
  have hcommits : Commits env now pick (a.create now id) db (a.built id) _ :=
    commits_create.mpr ⟨Address.untaken_inserted.mpr h, rfl, rfl⟩
  cases a with
  | email text => exact congrArg Prod.fst (exec_of_commits (o := .createByEmail text) hcommits)
  | mobile text => exact congrArg Prod.fst (exec_of_commits (o := .createByMobile text) hcommits)

end Store
end Postgres
end OrbitAuth
