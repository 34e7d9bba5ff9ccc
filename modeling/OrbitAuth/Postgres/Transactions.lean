import OrbitAuth.Foundations.ReadCommitted
import OrbitAuth.Postgres.Atomic

/-!
# Transactions — store calls side by side

The store's programs under READ COMMITTED: every statement sees what is committed when it starts
and the transaction's own writes.  `SELECT … FOR UPDATE` locks the row it returns; a write locks
its row and claims the unique values it puts into it, so that two transactions never insert the
same key side by side.  A statement that meets a lock of another transaction waits; locks are held
to the end of the transaction.

The shared locks that foreign-key checks take on the referenced rows are left out: they only make
transactions wait in more places.  `NOW()` is part of the schedule.
-/

namespace OrbitAuth
namespace Postgres

open Domain Foundations

variable {s : Sql}

/-! ## Locks -/

/-- A row, or a value in a unique index. -/
inductive LockKey
  | user (id : Uuid)
  | email (email : String)
  | mobile (mobile : String)
  | challenge (id : Uuid)
  | refreshToken (id : Uuid)
  | apiToken (id : Uuid)
  | org (id : Uuid)
  | membership (org user : Uuid)
  | invite (id : Uuid)
  | inviteToken (tokenHash : String)
  | pendingInvite (org : Uuid) (email : String)
  deriving DecidableEq

def Write.locks (env : Env) : Write → List LockKey
  | .putUser r => .user r.id :: (r.email.toList.map .email ++ r.mobile.toList.map .mobile)
  | .delUser id => [.user id]
  | .putChallenge r => [.challenge r.id]
  | .delChallenge id => [.challenge id]
  | .putRefresh r => [.refreshToken r.id]
  | .putAPIToken r => [.apiToken r.id]
  | .putOrg r => [.org r.id]
  | .delOrg id => [.org id]
  | .putMembership r => [.membership r.orgID r.userID]
  | .delMembership org user => [.membership org user]
  | .putInvite r =>
      .invite r.id :: .inviteToken r.tokenHash ::
        if r.status = .pending then [.pendingInvite r.orgID (env.sqlLower r.email)] else []
  | .delInvite id => [.invite id]
  | .emit _ => []

/-- The rows a statement locks without writing them. -/
def Sql.forUpdate : Sql → List LockKey
  | .lockOrganization id => [.org id]
  | _ => []

/-! ## The engine -/

/-- What the server decides at a statement. -/
structure Tick where
  now : Time
  pick : Nat
  deriving DecidableEq

/-- A failed statement answers with its error and writes and locks nothing. -/
def engine (env : Env) : Engine sqlSignature Tick DB Write LockKey where
  eval s c db :=
    match s.eval env c.now c.pick db with
    | .ok (v, ws) => (.ok v, ws)
    | .error e => (.error e, [])
  locks s c db :=
    match s.eval env c.now c.pick db with
    | .ok (_, ws) => s.forUpdate ++ ws.flatMap (Write.locks env)
    | .error _ => []
  apply := DB.apply

section Engine

variable {env : Env} {c : Tick} {db : DB}

theorem engine_ok {v : s.Val} {ws : List Write} (h : s.eval env c.now c.pick db = .ok (v, ws)) :
    (engine env).eval s c db = (.ok v, ws) ∧
      (engine env).locks s c db = s.forUpdate ++ ws.flatMap (Write.locks env) := by
  simp [engine, h]

theorem engine_error {e : SqlError} (h : s.eval env c.now c.pick db = .error e) :
    (engine env).eval s c db = (.error e, []) ∧ (engine env).locks s c db = [] := by
  simp [engine, h]

end Engine

/-! ## Store calls as transactions -/

/-- The answer of some store call. -/
abbrev StoreReply :=
  (o : Store.Op) × Except Err o.Val

/-- What a store call answers when it does not commit. -/
def Store.Exit.reply {o : Store.Op} : Store.Exit o.Val → StoreReply
  | .err e => ⟨o, .error e⟩
  | .rollback b => ⟨o, .ok b⟩

/-- A store call at the instant `now` of the application, with the identifier it draws. -/
structure StoreCall where
  now : Time
  id : Uuid
  op : Store.Op

def StoreCall.transaction (t : StoreCall) : Program sqlSignature StoreReply StoreReply :=
  (t.op.body t.now t.id).bimap (fun v => ⟨t.op, .ok v⟩) Store.Exit.reply

abbrev StoreSystem := System sqlSignature StoreReply StoreReply DB Write LockKey

/-- Any number of store calls, none of them started. -/
def beginAll (db : DB) (calls : List StoreCall) : StoreSystem :=
  System.start db (calls.map StoreCall.transaction)

abbrev StoreSchedule := List (Nat × Move Tick)

def runAll (env : Env) (sys : StoreSystem) (sched : StoreSchedule) : StoreSystem :=
  sys.run (engine env) sched

/-! ## Verifying transactions -/

section Verifying

variable {env : Env} {P α β : Type} {Q : Partition (engine env) P}

abbrev TxState := Local DB Write LockKey

variable {l : TxState}

/-- The database a transaction sees after a statement. -/
theorem seen_statement {c : Tick} {v : s.Val} {ws : List Write}
    (h : s.eval env c.now c.pick ((engine env).view l) = .ok (v, ws)) :
    (engine env).view ((engine env).statement s c l).2 = ((engine env).view l).applyAll ws := by
  rw [Engine.statement_view, (engine_ok h).1]
  rfl

theorem held_statement {c : Tick} {k : LockKey} (h : k ∈ l.held) :
    k ∈ ((engine env).statement s c l).2.held :=
  List.mem_append_left _ h

/-- A failed statement leaves the transaction where it was. -/
theorem statement_error {c : Tick} {e : SqlError}
    (h : s.eval env c.now c.pick ((engine env).view l) = .error e) :
    (engine env).statement s c l = (.error e, l) := by
  simp [Engine.statement, (engine_error h).1, (engine_error h).2]

/-- One statement.  `hok` is about a successful one; a failed one changes nothing. -/
theorem keeps_query {k : Except SqlError s.Val → Store.Tx β α} {post : α → TxState → Prop}
    (hok : ∀ l', Q.Ok l' → Q.Rely l l' → ∀ c v ws,
      s.eval env c.now c.pick ((engine env).view l') = .ok (v, ws) →
      Q.Covered ws (l'.held ++ (engine env).locks s c ((engine env).view l')) ∧
        Q.Keeps (k (.ok v)) post ((engine env).statement s c l').2)
    (herr : ∀ l', Q.Ok l' → Q.Rely l l' → ∀ e, Q.Keeps (k (.error e)) post l') :
    Q.Keeps (.call s k) post l := by
  refine .call ?_ ?_
  · intro l' hinv hrely c
    refine ⟨Partition.ok_statement hinv ?_, trivial⟩
    cases heval : s.eval env c.now c.pick ((engine env).view l') with
    | ok out =>
        rw [(engine_ok heval).1]
        exact (hok l' hinv hrely c out.1 out.2 heval).1
    | error e =>
        rw [(engine_error heval).1]
        exact Partition.covered_nil _
  · intro l' hinv hrely c
    cases heval : s.eval env c.now c.pick ((engine env).view l') with
    | ok out =>
        have hans : ((engine env).statement s c l').1 = .ok out.1 := by
          simp [Engine.statement, (engine_ok heval).1]
        rw [hans]
        exact (hok l' hinv hrely c out.1 out.2 heval).2
    | error e =>
        rw [statement_error heval]
        exact herr l' hinv hrely e

theorem keeps_failIf {c : Bool} {e : Err} {post : Unit → TxState → Prop}
    (h : c = false → post () l) : Q.Keeps (Store.failIf c e : Store.Tx β Unit) post l := by
  cases c with
  | true => exact .fail
  | false => exact .done (h rfl)

theorem keeps_parseID {kind text : String} {post : Uuid → TxState → Prop}
    (h : ∀ u, Uuid.parse text = some u → post u l) :
    Q.Keeps (Store.parseID kind text : Store.Tx β Uuid) post l := by
  unfold Store.parseID
  split
  · rename_i u hu
    exact .done (h u hu)
  · exact .fail

theorem keeps_stmt {context : String} {post : s.Val → TxState → Prop}
    (hok : ∀ l', Q.Ok l' → Q.Rely l l' → ∀ c v ws,
      s.eval env c.now c.pick ((engine env).view l') = .ok (v, ws) →
      Q.Covered ws (l'.held ++ (engine env).locks s c ((engine env).view l')) ∧
        post v ((engine env).statement s c l').2) :
    Q.Keeps (Store.stmt context s : Store.Tx β s.Val) post l := by
  refine keeps_query ?_ fun _ _ _ _ => .fail
  intro l' hinv hrely c v ws heval
  exact ⟨(hok l' hinv hrely c v ws heval).1, .done (hok l' hinv hrely c v ws heval).2⟩

/-- Parts that only change by writes that lock them. -/
theorem owned_of_locks
    (h : ∀ k x db, k ∉ Write.locks env x → Q.part k (db.apply x) = Q.part k db) : Q.Owned := by
  intro s c db x hx k hk w
  refine h k x w fun hmem => hk ?_
  cases heval : s.eval env c.now c.pick db with
  | ok out =>
      rw [(engine_ok heval).1] at hx
      rw [(engine_ok heval).2]
      exact List.mem_append_right _ (List.mem_flatMap.mpr ⟨x, hx, hmem⟩)
  | error e =>
      rw [(engine_error heval).1] at hx
      cases hx

/-- What a successful statement does to the database, a statement does. -/
theorem engine_rel {R : DB → DB → Prop} (hrefl : ∀ db, R db db) (c : Tick) (db : DB)
    (h : ∀ v ws, s.eval env c.now c.pick db = .ok (v, ws) → R db (db.applyAll ws)) :
    R db ((engine env).applyAll db ((engine env).eval s c db).2) := by
  cases heval : s.eval env c.now c.pick db with
  | ok out =>
      rw [(engine_ok heval).1]
      exact h out.1 out.2 heval
  | error e =>
      rw [(engine_error heval).1]
      exact hrefl db

end Verifying

/-- Store calls that are verified one by one stay so together. -/
theorem runAll_verified {env : Env} {P : Type} {Q : Partition (engine env) P}
    (post : Nat → StoreReply → TxState → Prop) (hready : ∀ i a l, post i a l → Q.Ready l)
    (hstable : ∀ i, Q.Stable (post i)) {db : DB} (hdb : Q.Inv db) {calls : List StoreCall}
    (hcalls : ∀ (i : Nat) t, calls[i]? = some t →
      Q.Keeps (t.op.body t.now t.id) (fun v l => post i ⟨t.op, .ok v⟩ l) ⟨db, [], []⟩)
    (sched : StoreSchedule) : (runAll env (beginAll db calls) sched).Sound Q post := by
  refine (System.run_verified hready hstable hdb ?_ sched).2
  intro i p hp
  rw [List.getElem?_map, Option.map_eq_some_iff] at hp
  obtain ⟨t, ht, rfl⟩ := hp
  exact safe_bimap (hcalls i t ht)

/-! ## Rows as parts

Every write to an account, a membership or an invitation locks its row. -/

section Rows

variable (env : Env)

/-- The accounts, each protected by the lock of its row. -/
def userRows : Partition (engine env) (Option UserRow) where
  part
    | .user id, db => db.users.find? id
    | _, _ => none
  fine _ _ := True
  congr k w w' x h := by
    cases k with
    | user id =>
        have hrow : w.users.find? id = w'.users.find? id := h
        show (w.apply x).users.find? id = (w'.apply x).users.find? id
        cases x with
        | putUser r => simp only [DB.apply, find?_put, hrow]
        | delUser i => simp only [DB.apply, find?_erase, hrow]
        | _ => exact hrow
    | _ => rfl

/-- A write changes no account whose row it does not lock. -/
theorem find?_user_apply {x : Write} {id : Uuid}
    (h : LockKey.user id ∉ Write.locks env x) (db : DB) :
    (db.apply x).users.find? id = db.users.find? id := by
  cases x with
  | putUser r =>
      have hkey : r.id ≠ id := by
        rintro rfl
        simp [Write.locks] at h
      simp only [DB.apply, find?_put, key_user, if_neg hkey]
  | delUser i =>
      have hkey : i ≠ id := by
        rintro rfl
        simp [Write.locks] at h
      simp only [DB.apply, find?_erase, if_neg hkey]
  | _ => rfl

theorem owned_userRows : (userRows env).Owned := by
  refine owned_of_locks fun k x db hk => ?_
  cases k with
  | user id => exact find?_user_apply env hk db
  | _ => rfl

/-- The memberships, each protected by the lock of its row. -/
def memberRows : Partition (engine env) (Option MembershipRow) where
  part
    | .membership org user, db => db.memberships.find? (org, user)
    | _, _ => none
  fine _ _ := True
  congr k w w' x h := by
    cases k with
    | membership org user =>
        have hrow : w.memberships.find? (org, user) = w'.memberships.find? (org, user) := h
        show (w.apply x).memberships.find? (org, user) = (w'.apply x).memberships.find? (org, user)
        cases x with
        | putMembership m => simp only [DB.apply, find?_put, hrow]
        | delMembership g u => simp only [DB.apply, find?_erase, hrow]
        | _ => exact hrow
    | _ => rfl

theorem owned_memberRows : (memberRows env).Owned := by
  refine owned_of_locks fun k x db hk => ?_
  cases k with
  | membership org user =>
      show (db.apply x).memberships.find? (org, user) = db.memberships.find? (org, user)
      cases x with
      | putMembership m =>
          have hkey : (m.orgID, m.userID) ≠ (org, user) := by
            rintro ⟨rfl, rfl⟩
            simp [Write.locks] at hk
          simp only [DB.apply, find?_put, key_membership, if_neg hkey]
      | delMembership g u =>
          have hkey : (g, u) ≠ (org, user) := by
            rintro ⟨rfl, rfl⟩
            simp [Write.locks] at hk
          simp only [DB.apply, find?_erase, if_neg hkey]
      | _ => rfl
  | _ => rfl

/-- The invitations, each protected by the lock of its row. -/
def inviteRows : Partition (engine env) (Option InviteRow) where
  part
    | .invite id, db => db.invites.find? id
    | _, _ => none
  fine _ _ := True
  congr k w w' x h := by
    cases k with
    | invite id =>
        have hrow : w.invites.find? id = w'.invites.find? id := h
        show (w.apply x).invites.find? id = (w'.apply x).invites.find? id
        cases x with
        | putInvite r => simp only [DB.apply, find?_put, hrow]
        | delInvite i => simp only [DB.apply, find?_erase, hrow]
        | _ => exact hrow
    | _ => rfl

theorem owned_inviteRows : (inviteRows env).Owned := by
  refine owned_of_locks fun k x db hk => ?_
  cases k with
  | invite id =>
      show (db.apply x).invites.find? id = db.invites.find? id
      cases x with
      | putInvite r =>
          have hkey : r.id ≠ id := by
            rintro rfl
            simp [Write.locks] at hk
          simp only [DB.apply, find?_put, key_invite, if_neg hkey]
      | delInvite i =>
          have hkey : i ≠ id := by
            rintro rfl
            simp [Write.locks] at hk
          simp only [DB.apply, find?_erase, if_neg hkey]
      | _ => rfl
  | _ => rfl

end Rows

end Postgres
end OrbitAuth
