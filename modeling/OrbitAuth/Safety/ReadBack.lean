import OrbitAuth.Postgres.Accounts
import OrbitAuth.Safety.Redemption

/-!
# ReadBack — the account a call returns and the account that is stored

`FindOrCreateByEmail` and `FindOrCreateByMobile` have two branches.  One returns the row that the
lookup finds, the other a value that was built in memory for a row that was inserted.  The inserted
row gets `email_verified_at` from the statement and its status from the column's default, and
neither is in the value.

* `findOrCreate_cases` — the two branches, as seen from a call that returned;
* `Reread` — every lookup that names the account answers with the returned value;
* `returned_as_stored_iff` — that is so exactly when the account was there before the call;
* `created_differs` — a call for either kind of address, and the lookups after it;
* `admission_agrees` — what `VerifyOTP` decides on is the same in both values.
-/

namespace OrbitAuth
namespace Service
namespace ReadBack

open Domain Foundations Postgres Redemption

/-! ## Calls -/

def findOrCreate : Address → Action User
  | .email text => findOrCreateByEmail text
  | .mobile text => findOrCreateByMobile text

/-- `FindByEmail` or `FindByMobile`. -/
def find : Address → Action User
  | .email text => store (.findByEmail text)
  | .mobile text => store (.findByMobile text)

/-- What the lookup answers. -/
def lookedUp (a : Address) (c : Choice) (w : World) : Except Err User × World :=
  if c.fails then (.error .dependency, w.advance c.now)
  else (Store.found ((w.db.users.rows.find? a.names).map UserRow.user), w.advance c.now)

/-- What follows the lookup: the creating transaction when there is no row. -/
def resume (env : Env) (create : Action User) (cs : Nat → Choice) :
    Except Err User × World → Except Err User × World
  | (.ok user, w) => (.ok user, w)
  | (.error e, w) => if e = .sql "" .noRows then create.run (exec env) cs w else (.error e, w)

section Runs

variable {env : Env} {cs : Nat → Choice} {w w' : World} {a : Address} {user : User}

theorem exec_findByEmail_eq (env : Env) (text : String) (c : Choice) (w : World) :
    exec env (.store (.findByEmail text)) c w = lookedUp (.email text) c w := by
  unfold lookedUp
  cases hf : c.fails with
  | true => exact exec_store_fails env _ hf w
  | false =>
      rw [exec_store_runs env _ hf, Store.exec_findByEmail]
      rfl

theorem exec_findByMobile_eq (env : Env) (text : String) (c : Choice) (w : World) :
    exec env (.store (.findByMobile text)) c w = lookedUp (.mobile text) c w := by
  unfold lookedUp
  cases hf : c.fails with
  | true => exact exec_store_fails env _ hf w
  | false =>
      rw [exec_store_runs env _ hf, Store.exec_findByMobile]
      rfl

theorem run_find (env : Env) (a : Address) (cs : Nat → Choice) (w : World) :
    (find a).run (exec env) cs w = lookedUp a (cs 0) w := by
  cases a with
  | email text => exact (run_lone_store _ _ _ _).trans (exec_findByEmail_eq env text (cs 0) w)
  | mobile text => exact (run_lone_store _ _ _ _).trans (exec_findByMobile_eq env text (cs 0) w)

theorem run_lookupOr {lookup : Action (Except Err User)} {create : Action User}
    {res : Except Err User × World}
    (hlookup : ∀ f : Except Err User → Action User, (lookup >>= f).run (exec env) cs w =
      (f res.1).run (exec env) (fun n => cs (n + 1)) res.2) :
    (lookupOr lookup create).run (exec env) cs w = resume env create (fun n => cs (n + 1)) res := by
  unfold lookupOr
  rw [hlookup]
  rcases res with ⟨e | user, w₁⟩
  · dsimp only [resume]
    split <;> rfl
  · rfl

theorem run_findOrCreate (env : Env) (a : Address) (cs : Nat → Choice) (w : World) :
    (findOrCreate a).run (exec env) cs w =
      resume env (create a) (fun n => cs (n + 1)) (lookedUp a (cs 0) w) := by
  cases a with
  | email text =>
      rw [findOrCreate, findOrCreateByEmail_eq, ← exec_findByEmail_eq env]
      exact run_lookupOr fun f => rfl
  | mobile text =>
      rw [findOrCreate, findOrCreateByMobile_eq, ← exec_findByMobile_eq env]
      exact run_lookupOr fun f => rfl

/-- The creating transaction inserts the row and returns the value that was built for it. -/
theorem create_inv (h : (create a).run (exec env) cs w = (.ok user, w')) :
    user = a.built (cs 0).id ∧ a.inserted (max w.now (cs 0).now) (cs 0).id ∈ w'.db.users := by
  have hrow : ∀ {db : DB}, Store.Commits env (max w.now (cs 0).now) (cs 0).pick
      (a.create (max w.now (cs 0).now) (cs 0).id) w.db user db →
      user = a.built (cs 0).id ∧ a.inserted (max w.now (cs 0).now) (cs 0).id ∈ db.users := by
    intro db hcommits
    obtain ⟨_, hbuilt, rfl⟩ := Store.commits_create.mp hcommits
    exact ⟨hbuilt, mem_put.mpr (.inl rfl)⟩
  cases a with
  | email text =>
      have hx : exec env (.store (.createByEmail text)) (cs 0) w = (.ok user, w') :=
        (run_lone_store _ _ _ _).symm.trans h
      obtain ⟨hok, hdb⟩ := exec_store_ok (congrArg Prod.fst hx)
      rw [hx] at hdb
      rw [show w'.db = _ from hdb]
      exact hrow (Store.commits_of_exec (o := .createByEmail text)
        (Store.definite_create _ _ (.email text)) hok)
  | mobile text =>
      have hx : exec env (.store (.createByMobile text)) (cs 0) w = (.ok user, w') :=
        (run_lone_store _ _ _ _).symm.trans h
      obtain ⟨hok, hdb⟩ := exec_store_ok (congrArg Prod.fst hx)
      rw [hx] at hdb
      rw [show w'.db = _ from hdb]
      exact hrow (Store.commits_of_exec (o := .createByMobile text)
        (Store.definite_create _ _ (.mobile text)) hok)

/-- It gets through when the address and the identifier are free. -/
theorem create_returns (hc : (cs 0).fails = false)
    (hfree : ∀ r ∈ w.db.users, r.id ≠ (cs 0).id ∧ a.names r = false) :
    ((create a).run (exec env) cs w).1 = .ok (a.built (cs 0).id) := by
  have huntaken : Untaken w.db.users (a.inserted (max w.now (cs 0).now) (cs 0).id) :=
    Address.untaken_inserted.mpr hfree
  have hcommits : Store.Commits env (max w.now (cs 0).now) (cs 0).pick
      (a.create (max w.now (cs 0).now) (cs 0).id) w.db (a.built (cs 0).id) _ :=
    Store.commits_create.mpr ⟨huntaken, rfl, rfl⟩
  cases a with
  | email text =>
      rw [show (create (.email text)).run (exec env) cs w = _ from run_lone_store _ _ _ _,
        exec_store_runs env _ hc, Store.exec_of_commits (o := .createByEmail text) hcommits]
  | mobile text =>
      rw [show (create (.mobile text)).run (exec env) cs w = _ from run_lone_store _ _ _ _,
        exec_store_runs env _ hc, Store.exec_of_commits (o := .createByMobile text) hcommits]

/-! ## The two branches -/

/-- A call that returned has found the account, or created it. -/
theorem findOrCreate_cases (h : (findOrCreate a).run (exec env) cs w = (.ok user, w')) :
    (∃ r ∈ w.db.users, a.names r = true ∧ user = r.user ∧ w'.db = w.db) ∨
      (∀ r ∈ w.db.users, a.names r = false) ∧ user = a.built (cs 1).id ∧
        ∃ t, a.inserted t (cs 1).id ∈ w'.db.users := by
  rw [run_findOrCreate, lookedUp] at h
  cases hf : (cs 0).fails with
  | true =>
      rw [hf, if_pos rfl] at h
      exact nomatch congrArg Prod.fst h
  | false =>
      rw [hf, if_neg Bool.false_ne_true] at h
      cases hfind : w.db.users.rows.find? a.names with
      | some r =>
          rw [hfind] at h
          obtain ⟨huser, hw'⟩ := Prod.mk.inj h
          refine .inl ⟨r, List.mem_of_find?_eq_some hfind, List.find?_some hfind, ?_, ?_⟩
          · exact (Except.ok.inj huser).symm
          · rw [← hw']
            rfl
      | none =>
          rw [hfind] at h
          obtain ⟨hbuilt, hrow⟩ := create_inv h
          refine .inr ⟨fun r hr => ?_, hbuilt, _, hrow⟩
          exact Bool.eq_false_iff.mpr (List.find?_eq_none.mp hfind r hr)

/-- Nothing but a failure, or a drawn identifier that is taken, keeps a call from returning. -/
theorem findOrCreate_returns (hcs : ∀ n, (cs n).fails = false)
    (hid : ∀ r ∈ w.db.users, r.id ≠ (cs 1).id) :
    ∃ user w', (findOrCreate a).run (exec env) cs w = (.ok user, w') := by
  rw [run_findOrCreate, lookedUp, hcs 0, if_neg Bool.false_ne_true]
  cases hfind : w.db.users.rows.find? a.names with
  | some r => exact ⟨r.user, _, rfl⟩
  | none =>
      have hfree : ∀ r ∈ (w.advance (cs 0).now).db.users, r.id ≠ (cs 1).id ∧ a.names r = false := by
        intro r hr
        exact ⟨hid r hr, Bool.eq_false_iff.mpr (List.find?_eq_none.mp hfind r hr)⟩
      exact ⟨_, _, Prod.ext (create_returns (hcs 1) hfree) rfl⟩

end Runs

/-! ## Lookups -/

/-- The lookup, when it does not fail, answers with `user`. -/
def Reads (env : Env) (w : World) (lookup : Action User) (user : User) : Prop :=
  ∀ cs : Nat → Choice, (cs 0).fails = false → (lookup.run (exec env) cs w).1 = .ok user

/-- Every lookup that names the account answers with `user`: by the address of the call, by the
identifier, and by the email and the mobile number that `user` has. -/
structure Reread (env : Env) (w : World) (a : Address) (user : User) : Prop where
  byAddress : Reads env w (find a) user
  byID : Reads env w (store (.findByID user.id)) user
  byEmail : user.email ≠ "" → Reads env w (find (.email user.email)) user
  byMobile : user.mobile ≠ "" → Reads env w (find (.mobile user.mobile)) user

section Lookups

variable {env : Env} {cs : Nat → Choice} {w w' : World} {a : Address} {user : User} {r : UserRow}

/-- A row is found by an address that it has. -/
theorem reads_address (hdb : w.db.Integrity) (hr : r ∈ w.db.users) (ha : a.names r = true) :
    Reads env w (find a) r.user := by
  intro cs hc
  rw [run_find, lookedUp, hc, if_neg Bool.false_ne_true]
  refine found_only hr ha fun s hs hnames => ?_
  cases a with
  | email text => exact hdb.email s hs r hr text (of_decide_eq_true hnames) (of_decide_eq_true ha)
  | mobile text => exact hdb.mobile s hs r hr text (of_decide_eq_true hnames) (of_decide_eq_true ha)

theorem reads_id (env : Env) (hr : r ∈ w.db.users) :
    Reads env w (store (.findByID r.id.string)) r.user := by
  intro cs hc
  have hfind : w.db.users.find? r.id = some r := find?_of_mem hr
  rw [run_lone_store, exec_store_runs env _ hc, Store.exec_findByID (Uuid.parse_string r.id), hfind]
  rfl

theorem reads_unique {lookup : Action User} {user' : User} (h : Reads env w lookup user)
    (h' : Reads env w lookup user') : user = user' :=
  Except.ok.inj ((h (fun _ => {}) rfl).symm.trans (h' (fun _ => {}) rfl))

/-- A stored row is read by all of its names. -/
theorem reread_row (hdb : w.db.Integrity) (hr : r ∈ w.db.users) (ha : a.names r = true) :
    Reread env w a r.user := by
  -- the columns that are not null are the texts that the value has
  have hcolumn : ∀ {column : Option String}, column.getD "" ≠ "" →
      column = some (column.getD "") := by
    intro column hne
    cases column with
    | none => exact absurd rfl hne
    | some text => rfl
  refine ⟨reads_address hdb hr ha, reads_id env hr, fun hne => ?_, fun hne => ?_⟩
  · exact reads_address hdb hr (decide_eq_true (hcolumn hne))
  · exact reads_address hdb hr (decide_eq_true (hcolumn hne))

/-- In every database that keeps its constraints: `FindOrCreateByEmail` and `FindOrCreateByMobile`
return when nothing fails, and what they return is what the lookups then read exactly when the
account was there before. -/
theorem returned_as_stored_iff (env : Env) (a : Address) (cs : Nat → Choice) {w : World}
    (hdb : w.db.Integrity) :
    ((∀ n, (cs n).fails = false) → (∀ r ∈ w.db.users, r.id ≠ (cs 1).id) →
      ∃ user w', (findOrCreate a).run (exec env) cs w = (.ok user, w')) ∧
    ∀ user w', (findOrCreate a).run (exec env) cs w = (.ok user, w') →
      (Reread env w' a user ↔ ∃ r ∈ w.db.users, a.names r = true) := by
  refine ⟨findOrCreate_returns, fun user w' h => ?_⟩
  rcases findOrCreate_cases h with ⟨r, hr, ha, rfl, hsame⟩ | ⟨hnone, rfl, t, hrow⟩
  · refine iff_of_true ?_ ⟨r, hr, ha⟩
    exact reread_row (hsame ▸ hdb) (hsame ▸ hr) ha
  · refine iff_of_false (fun hreread => ?_) ?_
    · -- by its identifier the inserted row is read, and the value is not the one of that row
      have hid : (a.built (cs 1).id).id = (a.inserted t (cs 1).id).id.string := by cases a <;> rfl
      have hstored := reads_id env hrow
      rw [← hid] at hstored
      exact Address.stored_ne_built t (cs 1).id a (reads_unique hstored hreread.byID)
    · rintro ⟨r, hr, ha⟩
      exact nomatch (hnone r hr).symm.trans ha

/-- Identifiers from 10 on, and nothing fails. -/
def steady (n : Nat) : Choice :=
  { id := Uuid.ofNat (10 + n) }

/-- Ann's account, with both kinds of address. -/
def annRow : UserRow :=
  { toyUser 1 with email := some "ann@example.com", mobile := some "+989121111111" }

def annWorld : World :=
  { toyWorld with db := { DB.empty with users := Table.empty.put annRow } }

theorem mem_annUsers {r : UserRow} : r ∈ annWorld.db.users ↔ r = annRow := by
  change r ∈ [annRow] ↔ _
  simp

theorem annWorld_integrity : annWorld.db.Integrity := by
  constructor
  case email =>
    intro r hr s hs _ _ _
    rw [mem_annUsers.mp hr, mem_annUsers.mp hs]
  case mobile =>
    intro r hr s hs _ _ _
    rw [mem_annUsers.mp hr, mem_annUsers.mp hs]
  all_goals
    intro r hr
    exact absurd hr (not_mem_empty r)

/-- Ann's account is returned as it is stored, by either address; an account that is created is not.
-/
theorem returned_as_stored_ann :
    annWorld.db.Integrity ∧
    (∃ user w', (findOrCreate (.email "ann@example.com")).run (exec toyEnv) steady annWorld =
      (.ok user, w') ∧
      Reread toyEnv w' (.email "ann@example.com") user) ∧
    (∃ user w', (findOrCreate (.mobile "+989121111111")).run (exec toyEnv) steady annWorld =
      (.ok user, w') ∧
      Reread toyEnv w' (.mobile "+989121111111") user) ∧
    ∃ user w', (findOrCreate (.mobile "+989121234567")).run (exec toyEnv) steady annWorld =
      (.ok user, w') ∧
      ¬ Reread toyEnv w' (.mobile "+989121234567") user := by
  have hid : ∀ r ∈ annWorld.db.users, r.id ≠ (steady 1).id := by
    intro r hr
    rw [mem_annUsers.mp hr]
    decide
  refine ⟨annWorld_integrity, ?_, ?_, ?_⟩
  · obtain ⟨hreturns, hiff⟩ :=
      returned_as_stored_iff toyEnv (.email "ann@example.com") steady annWorld_integrity
    obtain ⟨user, w', h⟩ := hreturns (fun _ => rfl) hid
    exact ⟨user, w', h, (hiff user w' h).mpr ⟨annRow, mem_annUsers.mpr rfl, by decide⟩⟩
  · obtain ⟨hreturns, hiff⟩ :=
      returned_as_stored_iff toyEnv (.mobile "+989121111111") steady annWorld_integrity
    obtain ⟨user, w', h⟩ := hreturns (fun _ => rfl) hid
    exact ⟨user, w', h, (hiff user w' h).mpr ⟨annRow, mem_annUsers.mpr rfl, by decide⟩⟩
  · obtain ⟨hreturns, hiff⟩ :=
      returned_as_stored_iff toyEnv (.mobile "+989121234567") steady annWorld_integrity
    obtain ⟨user, w', h⟩ := hreturns (fun _ => rfl) hid
    refine ⟨user, w', h, fun hreread => ?_⟩
    obtain ⟨r, hr, hnames⟩ := (hiff user w' h).mp hreread
    rw [mem_annUsers.mp hr] at hnames
    exact absurd hnames (by decide)

/-- Both calls on the empty database.  The account of an email is returned unverified and read as
verified; the account of a mobile number is returned without a status and read as active. -/
theorem created_differs :
    isEmail "ann@example.com" = true ∧ isE164 "+989121234567" = true ∧ toyWorld.db.Integrity ∧
    (let id := (Uuid.ofNat 11).string
     let call := (findOrCreate (.email "ann@example.com")).run (exec toyEnv) steady toyWorld
     let stored : User := ⟨id, "ann@example.com", "", "", "", .active, true⟩
     call.1 = .ok ⟨id, "ann@example.com", "", "", "", .active, false⟩ ∧
      ((find (.email "ann@example.com")).run (exec toyEnv) steady call.2).1 = .ok stored ∧
      ((store (.findByID id)).run (exec toyEnv) steady call.2).1 = .ok stored) ∧
    (let id := (Uuid.ofNat 11).string
     let call := (findOrCreate (.mobile "+989121234567")).run (exec toyEnv) steady toyWorld
     let stored : User := ⟨id, "", "+989121234567", "", "", .active, false⟩
     call.1 = .ok ⟨id, "", "+989121234567", "", "", .other "", false⟩ ∧
      ((find (.mobile "+989121234567")).run (exec toyEnv) steady call.2).1 = .ok stored ∧
      ((store (.findByID id)).run (exec toyEnv) steady call.2).1 = .ok stored) := by
  refine ⟨by decide, by decide, DB.integrity_empty, ?_, ?_⟩
  · decide +kernel
  · decide +kernel

/-- `VerifyOTP` goes on with the identifier and refuses a pending sign-up; both are as stored. -/
theorem admission_agrees {stored : User} (h : (findOrCreate a).run (exec env) cs w = (.ok user, w'))
    (hstored : Reads env w' (store (.findByID user.id)) stored) :
    stored.id = user.id ∧ (stored.status = .signupPending ↔ user.status = .signupPending) := by
  rcases findOrCreate_cases h with ⟨r, hr, _, rfl, hsame⟩ | ⟨_, rfl, t, hrow⟩
  · rw [reads_unique hstored (reads_id env (hsame ▸ hr))]
    exact ⟨rfl, Iff.rfl⟩
  · have hread := reads_id env hrow
    cases a with
    | email text =>
        rw [reads_unique hstored hread]
        exact ⟨rfl, Iff.rfl⟩
    | mobile text =>
        rw [reads_unique hstored hread, Address.stored_mobile]
        exact ⟨rfl, by simp [Address.built]⟩

end Lookups

end ReadBack
end Service
end OrbitAuth
