import OrbitAuth.Foundations.Contention
import OrbitAuth.Postgres.Accounts
import OrbitAuth.Postgres.Transactions
import OrbitAuth.Service.System

/-!
# UserEvents — does `auth.user.created` name the accounts that were created?

Accounts are created by four calls, each of which announces the account in its transaction.  Two of
them insert and fail on a conflict, one looks at the number of inserted rows, and `UpsertDemoUser`
decides by a lookup before its upsert whether there is something to announce.  Between these two
statements another instance can commit.

* `accounts` — each account with its announcements, protected by the lock of its row;
* `Owes` — what a transaction knows between its insert and its announcement;
* `overtakes` — a step after which the lookup of a demo upsert and its upsert disagree;
* `user_created_once` — in every interleaving without such a step, every account that was ever
  inserted is announced once and nothing else is announced;
* `overtaken_upsert_announces` — one such step, and an account is announced that never existed.
-/

namespace OrbitAuth
namespace Postgres
namespace UserEvents

open Domain Foundations

variable {now : Time} {s : Sql}

/-! ## The calls that create accounts -/

/-- `FindOrCreateByEmail`.  The lookup is not part of the transaction, which is no difference under
READ COMMITTED. -/
def findOrCreateByEmail (now : Time) (id : Uuid) (email : String) : Store.Tx User User := do
  match ← Store.query (.findUserByEmail email) with
  | .ok user => pure user
  | .error .noRows => Store.createByEmail now id email
  | .error e => Store.fault (.sql "" e)

def findOrCreateByMobile (now : Time) (id : Uuid) (mobile : String) : Store.Tx User User := do
  match ← Store.query (.findUserByMobile mobile) with
  | .ok user => pure user
  | .error .noRows => Store.createByMobile now id mobile
  | .error e => Store.fault (.sql "" e)

/-- Either of them. -/
def findOrCreate (now : Time) (id : Uuid) : Address → Store.Tx User User
  | .email text => findOrCreateByEmail now id text
  | .mobile text => findOrCreateByMobile now id text

inductive Creation
  | findOrCreateByEmail (email : String)
  | findOrCreateByMobile (mobile : String)
  | createSignupUser (user : User) (org : Option Organization) (invite : Option Invite)
      (acceptedAt : Time)
  | reissuePendingSignup (user : User) (challenge : Option OTPChallenge) (invite : Option Invite)
      (acceptedAt : Time)
  | upsertDemoUser (email mobile passwordHash displayName : String)

/-- A call at the instant `now` of the application, with the identifier it draws. -/
structure CreationCall where
  now : Time
  id : Uuid
  creation : Creation

/-- A transaction of which only the effect matters. -/
def silently {α β : Type} (p : Store.Tx β α) : Program sqlSignature Unit Unit :=
  p.bimap (fun _ => ()) fun _ => ()

def CreationCall.transaction (t : CreationCall) : Program sqlSignature Unit Unit :=
  match t.creation with
  | .findOrCreateByEmail email => silently (UserEvents.findOrCreateByEmail t.now t.id email)
  | .findOrCreateByMobile mobile => silently (UserEvents.findOrCreateByMobile t.now t.id mobile)
  | .createSignupUser user org invite acceptedAt =>
      silently (Store.createSignupUser t.now user org invite acceptedAt)
  | .reissuePendingSignup user challenge invite acceptedAt =>
      silently (Store.reissuePendingSignup t.now user challenge invite acceptedAt)
  | .upsertDemoUser email mobile hash name =>
      silently (Store.upsertDemoUser t.now t.id email mobile hash name)

abbrev CreationSystem := System sqlSignature Unit Unit DB Write LockKey

def beginCreations (db : DB) (calls : List CreationCall) : CreationSystem :=
  System.start db (calls.map CreationCall.transaction)

def runCreations (env : Env) (sys : CreationSystem) (sched : StoreSchedule) : CreationSystem :=
  sys.run (engine env) sched

/-! ## What is announced -/

/-- `auth.user.created` for this account, however its identifier is spelt. -/
def announces (id : Uuid) : Event → Bool
  | .userCreated text _ => Uuid.parse text = some id
  | _ => false

/-- `auth.user.created` for what is not an identifier. -/
def garbled : Event → Bool
  | .userCreated text _ => (Uuid.parse text).isNone
  | _ => false

/-- Each of these accounts is announced once, and no other. -/
structure Announced (ids : Uuid → Prop) (outbox : List Event) : Prop where
  once : ∀ id, ids id → outbox.countP (announces id) = 1
  real : ∀ text t, .userCreated text t ∈ outbox → ∃ id, ids id ∧ Uuid.parse text = some id

def DB.HasUser (db : DB) (id : Uuid) : Prop :=
  (db.users.find? id).isSome = true

/-- The accounts that some committed state of a run has held. -/
def EverInserted (env : Env) (db : DB) (calls : List CreationCall)
    (sched : StoreSchedule) (id : Uuid) :
    Prop :=
  ∃ first rest, sched = first ++ rest ∧
    DB.HasUser (runCreations env (beginCreations db calls) first).committed id

/-! ## Overtaking a demo upsert -/

/-- The lookup of `UpsertDemoUser` finds an account. -/
def lookupFinds (email mobile : String) (db : DB) : Bool :=
  db.users.any fun r => if email = "" then r.mobile = some mobile else r.email = some email

/-- The upsert of `UpsertDemoUser` updates an account.  An empty mobile number is `NULL` there. -/
def upsertMeets (email mobile : String) (db : DB) : Bool :=
  db.users.any fun r =>
    if email = "" then (Store.textPtr mobile).isSome && r.mobile = Store.textPtr mobile
    else r.email = some email

def isUpsert : Sql → Bool
  | .upsertDemoUserByEmail _ _ _ _ _ | .upsertDemoUserByMobile _ _ _ _ _ => true
  | _ => false

/-- The session has made its lookup and not yet its upsert. -/
def atUpsert : Session sqlSignature Unit Unit Write LockKey → Bool
  | .running (.call s _) _ _ => isUpsert s
  | _ => false

/-- After the step from `sys` to `sys'` some call stands before its upsert, and what its lookup has
found, or would have found before the step, is not what the upsert meets. -/
def overtakes (calls : List CreationCall) (sys sys' : CreationSystem) : Bool :=
  (List.range calls.length).any fun i =>
    match calls[i]?, sys'.sessions[i]? with
    | some ⟨_, _, .upsertDemoUser email mobile _ _⟩, some s =>
        atUpsert s && lookupFinds email mobile sys.committed != upsertMeets email mobile
          sys'.committed
    | _, _ => false

/-- No step of the run overtakes. -/
def unovertaken (env : Env) (calls : List CreationCall) : CreationSystem → StoreSchedule → Bool
  | _, [] => true
  | sys, (i, m) :: rest =>
      !overtakes calls sys (sys.step (engine env) i m) &&
        unovertaken env calls (sys.step (engine env) i m) rest

theorem not_overtakes {calls : List CreationCall} {sys sys' : CreationSystem}
    (h : overtakes calls sys sys' = false) {i : Nat} {t : CreationCall}
    {email mobile hash name : String} (ht : calls[i]? = some t)
    (hdemo : t.creation = .upsertDemoUser email mobile hash name)
    {s : Session sqlSignature Unit Unit Write LockKey} (hs : sys'.sessions[i]? = some s)
    (hupsert : atUpsert s = true) :
    lookupFinds email mobile sys.committed = upsertMeets email mobile sys'.committed := by
  have hlt : i < calls.length := (List.getElem?_eq_some_iff.mp ht).1
  have hstep := List.any_eq_false.mp h i (List.mem_range.mpr hlt)
  obtain ⟨now, id, creation⟩ := t
  have hcreation : creation = .upsertDemoUser email mobile hash name := hdemo
  subst hcreation
  simpa [ht, hs, hupsert] using hstep

/-! ## Accounts as parts -/

structure Account where
  row : Option UserRow
  announced : Nat
  garbled : Nat

/-- An account exists exactly if it is announced, and then once. -/
def Account.fine (x : Account) : Prop :=
  x.announced = x.row.isSome.toNat ∧ x.garbled = 0

/-- The events a write adds. -/
def emitted : Write → List Event
  | .emit e => [e]
  | _ => []

theorem outbox_apply (db : DB) (x : Write) : (db.apply x).outbox = db.outbox ++ emitted x := by
  cases x <;> simp [DB.apply, emitted]

/-- An account with its announcements.  An event that names no account counts for every key: nobody
holds all locks, so nobody can write one. -/
def account : LockKey → DB → Account
  | .user id, db => ⟨db.users.find? id, db.outbox.countP (announces id), db.outbox.countP garbled⟩
  | _, db => ⟨none, 0, db.outbox.countP garbled⟩

def accounts (env : Env) : Partition (engine env) Account where
  part := account
  fine _ := Account.fine
  congr k w w' x h := by
    cases k with
    | user id =>
        obtain ⟨hrow, hannounced, hgarbled⟩ := Account.mk.inj h
        have hrow' : (w.apply x).users.find? id = (w'.apply x).users.find? id :=
          (userRows env).congr (.user id) w w' x hrow
        show account (.user id) (w.apply x) = account (.user id) (w'.apply x)
        simp only [account, outbox_apply, List.countP_append, hrow', hannounced, hgarbled]
    | _ =>
        obtain ⟨_, _, hgarbled⟩ := Account.mk.inj h
        show Account.mk none 0 ((w.apply x).outbox.countP garbled) =
          Account.mk none 0 ((w'.apply x).outbox.countP garbled)
        simp only [outbox_apply, List.countP_append, hgarbled]

/-- The invariant over accounts is the property of the committed state. -/
theorem inv_iff (env : Env) (db : DB) : (accounts env).Inv db ↔
    Announced (DB.HasUser db) db.outbox := by
  constructor
  · intro h
    refine ⟨fun id hid => ?_, fun text t hmem => ?_⟩
    · have hcount : db.outbox.countP (announces id) = (db.users.find? id).isSome.toNat :=
        (h (.user id)).1
      rw [hcount, hid]
      rfl
    · have hnone : db.outbox.countP garbled = 0 := (h (.email "")).2
      have hreads := List.countP_eq_zero.mp hnone _ hmem
      cases hparse : Uuid.parse text with
      | none => simp [garbled, hparse] at hreads
      | some id =>
          refine ⟨id, ?_, rfl⟩
          -- an account that is announced at least once exists
          have hcount : db.outbox.countP (announces id) = (db.users.find? id).isSome.toNat :=
            (h (.user id)).1
          have hpos : 0 < db.outbox.countP (announces id) :=
            List.countP_pos_iff.mpr ⟨_, hmem, by simp [announces, hparse]⟩
          unfold DB.HasUser
          cases hsome : (db.users.find? id).isSome with
          | true => rfl
          | false =>
              rw [hcount, hsome] at hpos
              cases hpos
  · intro h k
    have hnone : db.outbox.countP garbled = 0 := by
      refine List.countP_eq_zero.mpr fun e he => ?_
      cases e with
      | userCreated text t =>
          obtain ⟨id, _, hparse⟩ := h.real text t he
          simp [garbled, hparse]
      | _ => simp [garbled]
    cases k with
    | user id =>
        refine ⟨?_, hnone⟩
        show db.outbox.countP (announces id) = (db.users.find? id).isSome.toNat
        cases hsome : (db.users.find? id).isSome with
        | true => exact h.once id hsome
        | false =>
            refine List.countP_eq_zero.mpr fun e he hannounces => ?_
            cases e with
            | userCreated text t =>
                obtain ⟨id', hid', hparse⟩ := h.real text t he
                have hsame : id = id' := by
                  have heq : Uuid.parse text = some id := by simpa [announces] using hannounces
                  exact Option.some.inj (heq.symm.trans hparse)
                subst hsame
                exact absurd (hid'.symm.trans hsome) (by simp)
            | _ => simp [announces] at hannounces
    | _ => exact ⟨rfl, hnone⟩

/-! ## Statements -/

/-- Nothing that the invariant speaks of is different. -/
def Account.Same (x y : Account) : Prop :=
  y.row.isSome = x.row.isSome ∧ y.announced = x.announced ∧ y.garbled = x.garbled

theorem Account.fine_of_same {x y : Account} (h : x.Same y) (hx : x.fine) : y.fine := by
  obtain ⟨hrow, hannounced, hgarbled⟩ := h
  exact ⟨by rw [hannounced, hrow]; exact hx.1, by rw [hgarbled]; exact hx.2⟩

/-- Writes that announce no account. -/
def Silent (x : Write) : Prop :=
  ∀ e ∈ emitted x, Store.aboutOrg e

theorem not_announces {e : Event} (h : Store.aboutOrg e) (id : Uuid) : announces id e = false := by
  cases e with
  | userCreated => exact h.elim
  | _ => rfl

theorem not_garbled {e : Event} (h : Store.aboutOrg e) : garbled e = false := by
  cases e with
  | userCreated => exact h.elim
  | _ => rfl

/-- Statements that neither create nor delete accounts and announce none. -/
def Calm : Sql → Prop
  | .createUserWithEmail _ _ _ | .createUserWithMobile _ _ | .createSignupUser _ _ _ _ _ _
  | .upsertDemoUserByEmail _ _ _ _ _ | .upsertDemoUserByMobile _ _ _ _ _
  | .purgeUnverifiedSignups _ => False
  | .insertOutboxEvent e => Store.aboutOrg e
  | _ => True

section Statements

variable {env : Env} {now : Time} {pick : Nat} {db : DB} {s : Sql} {v : s.Val} {ws : List Write}

theorem unannounced {xs : List Event} (h : ∀ e ∈ xs, Store.aboutOrg e) (id : Uuid) :
    xs.countP (announces id) = 0 :=
  List.countP_eq_zero.mpr fun e he => by simp [not_announces (h e he) id]

theorem ungarbled {xs : List Event} (h : ∀ e ∈ xs, Store.aboutOrg e) : xs.countP garbled = 0 :=
  List.countP_eq_zero.mpr fun e he => by simp [not_garbled (h e he)]

/-- A write that announces nothing changes no account whose row it does not lock. -/
theorem account_apply (env : Env) {x : Write} (hx : Silent x) {k : LockKey}
    (hk : k ∉ Write.locks env x) (db : DB) :
    account k (db.apply x) = account k db := by
  cases k with
  | user id =>
      simp only [account, outbox_apply, List.countP_append, unannounced hx id,
        ungarbled hx, Nat.add_zero, find?_user_apply env hk db]
  | _ => simp only [account, outbox_apply, List.countP_append, ungarbled hx, Nat.add_zero]

theorem silent_of_table {x : Write} (h : x.table ≠ .outbox) : Silent x := by
  cases x with
  | emit e => exact absurd rfl h
  | _ =>
      intro e he
      cases he

theorem silent_of_eval (hs : TableName.outbox ∉ s.writes)
    (h : s.eval env now pick db = .ok (v, ws)) :
    ∀ x ∈ ws, Silent x := by
  intro x hx
  have habout := eval_about env now pick db s
  rw [h] at habout
  exact silent_of_table fun heq => hs (heq ▸ habout x hx)

theorem covered_silent (h : ∀ x ∈ ws, Silent x) {ks : List LockKey}
    (hks : ∀ k ∈ ws.flatMap (Write.locks env), k ∈ ks) : (accounts env).Covered ws ks := by
  intro x hx k hk w
  refine account_apply env (h x hx) (fun hmem => hk (hks k ?_)) w
  exact List.mem_flatMap.mpr ⟨x, hx, hmem⟩

/-- Updates that keep the key keep the accounts. -/
theorem isSome_update {t : Table UserRow} {p : UserRow → Bool} {f : UserRow → UserRow}
    (hf : ∀ r, Keyed.key (f r) = Keyed.key r) (id : Uuid) :
    ((t.update p f).find? id).isSome = (t.find? id).isSome := by
  cases hfind : t.find? id with
  | none =>
      have hnew : (t.update p f).find? id = none := by
        refine find?_eq_none.mpr fun r hr hkey => ?_
        rcases (mem_update hf).mp hr with ⟨r', hr', _, rfl⟩ | ⟨hold, _⟩
        · exact find?_eq_none.mp hfind r' hr' ((hf r').symm.trans hkey)
        · exact find?_eq_none.mp hfind r hold hkey
      rw [hnew]
  | some r =>
      obtain ⟨hr, hkey⟩ := find?_eq_some.mp hfind
      obtain ⟨r', hr', hkey'⟩ := Table.key_mem_update (p := p) hf hr
      have hnew : (t.update p f).find? id = some r' := find?_eq_some.mpr ⟨hr', hkey'.trans hkey⟩
      rw [hnew]
      rfl

theorem isSome_put {t : Table UserRow} {r x : UserRow} (hr : r ∈ t)
    (hid : x.id = r.id) (id : Uuid) :
    ((t.put x).find? id).isSome = (t.find? id).isSome := by
  rw [find?_put, key_user]
  split
  · rename_i heq
    have hfind : t.find? id = some r := find?_eq_some.mpr ⟨hr, hid.symm.trans heq⟩
    rw [hfind]
    rfl
  · rfl

theorem eval_calm_users (hs : Calm s) (h : s.eval env now pick db = .ok (v, ws)) (id : Uuid) :
    ((db.applyAll ws).users.find? id).isSome = (db.users.find? id).isSome := by
  have hchange := eval_users h
  generalize (db.applyAll ws).users = t at hchange ⊢
  cases hchange with
  | same => rfl
  | inserted r hr _ => cases s <;> first | exact hs.elim | cases hr
  | loggedIn => exact isSome_update (key_loggedIn now) id
  | reissued => exact isSome_update (key_reissued now _ _) id
  | verified => exact isSome_update (key_activated now _) id
  | reseeded _ _ _ _ _ hup => rcases hup with rfl | rfl <;> exact hs.elim
  | purged => exact hs.elim

theorem eval_calm (hs : Calm s) (h : s.eval env now pick db = .ok (v, ws)) :
    (∀ x ∈ ws, Silent x) ∧ ∀ k, (account k db).Same (account k (db.applyAll ws)) := by
  by_cases hout : TableName.outbox ∈ s.writes
  · cases s with
    | insertOutboxEvent e =>
        rw [ok_writes h]
        have hsilent : Silent (.emit e) := by
          intro e' he'
          rw [List.mem_singleton.mp he']
          exact hs
        refine ⟨by simpa using hsilent, fun k => ?_⟩
        have hsame : account k (db.apply (.emit e)) = account k db :=
          account_apply env hsilent (by simp [Write.locks]) db
        rw [DB.applyAll_cons, DB.applyAll_nil, hsame]
        exact ⟨rfl, rfl, rfl⟩
    | _ => simp [Sql.writes] at hout
  · have houtbox : (db.applyAll ws).outbox = db.outbox := eval_same h hout
    refine ⟨silent_of_eval hout h, fun k => ?_⟩
    cases k with
    | user id =>
        exact ⟨eval_calm_users hs h id, by simp only [account,
          houtbox], by simp only [account, houtbox]⟩
    | _ => exact ⟨rfl, rfl, by simp only [account, houtbox]⟩

end Statements

/-! ## Transactions -/

/-- The transaction has inserted the account and has not announced it yet. -/
structure Owes (env : Env) (id : Uuid) (l : TxState) : Prop where
  held : LockKey.user id ∈ l.held
  inserted : ∃ r, account (.user id) ((engine env).view l) = ⟨some r, 0, 0⟩
  others : ∀ k ∈ l.held, k ≠ .user id → (account k ((engine env).view l)).fine

section Transactions

variable {env : Env} {α β : Type} {l : TxState} {id : Uuid}

theorem owes_rely {l' : TxState} (h : (accounts env).Rely l l') (hl : Owes env id l) :
    Owes env id l' := by
  have hsame : ∀ k ∈ l.held, account k ((engine env).view l') = account k ((engine env).view l) :=
    fun k hk => Partition.part_view h hk
  refine ⟨by rw [h.held]; exact hl.held, ?_, ?_⟩
  · rw [hsame _ hl.held]
    exact hl.inserted
  · intro k hk hne
    rw [h.held] at hk
    rw [hsame k hk]
    exact hl.others k hk hne

section Steps

variable {s : Sql} {c : Tick} {v : s.Val} {ws : List Write}

/-- A statement locks what it writes, unless it announces an account. -/
theorem covered_eval (h : s.eval env c.now c.pick ((engine env).view l) = .ok (v, ws))
    (hsilent : ∀ x ∈ ws, Silent x) :
    (accounts env).Covered ws (l.held ++ (engine env).locks s c ((engine env).view l)) := by
  refine covered_silent hsilent fun k hk => List.mem_append_right _ ?_
  rw [(engine_ok h).2]
  exact List.mem_append_right _ hk

/-- A statement that leaves every account as it is. -/
theorem ready_same (hok : (accounts env).Ok l) (hready : (accounts env).Ready l)
    (h : s.eval env c.now c.pick ((engine env).view l) = .ok (v, ws))
    (hsame : ∀ k, (account k ((engine env).view l)).Same
      (account k (((engine env).view l).applyAll ws))) :
    (accounts env).Ready ((engine env).statement s c l).2 := by
  refine Partition.ready_of_inv fun k => ?_
  rw [seen_statement h]
  exact Account.fine_of_same (hsame k) (Partition.inv_view hok hready k)

theorem account_putUser {r : UserRow} {k : LockKey} (hk : k ≠ .user r.id) (db : DB) :
    account k (db.apply (.putUser r)) = account k db := by
  cases k with
  | user id =>
      have hne : r.id ≠ id := fun heq => hk (by rw [heq])
      simp only [account, DB.apply, find?_put, key_user, if_neg hne]
  | _ => rfl

theorem silent_putUser (r : UserRow) : ∀ x ∈ [Write.putUser r], Silent x := by
  intro x hx e he
  rw [List.mem_singleton.mp hx] at he
  cases he

/-- An insert: the account was not there, so it had not been announced. -/
theorem owes_insert {r : UserRow} (hok : (accounts env).Ok l) (hready : (accounts env).Ready l)
    (h : s.eval env c.now c.pick ((engine env).view l) = .ok (v, [.putUser r]))
    (hfree : Untaken ((engine env).view l).users r) :
    Owes env r.id ((engine env).statement s c l).2 := by
  have hinv := Partition.inv_view hok hready
  have hnone : ((engine env).view l).users.find? r.id = none :=
    find?_eq_none.mpr fun r' hr' hkey => (hfree r' hr').1 hkey
  have hseen : (engine env).view ((engine env).statement s c l).2 =
      ((engine env).view l).apply (.putUser r) := seen_statement h
  refine ⟨?_, ⟨r, ?_⟩, ?_⟩
  · refine List.mem_append_right _ ?_
    rw [(engine_ok h).2]
    refine List.mem_append_right _ (List.mem_flatMap.mpr ⟨.putUser r, by simp, ?_⟩)
    simp [Write.locks]
  · have hfine : (account (.user r.id) ((engine env).view l)).fine := hinv (.user r.id)
    obtain ⟨hannounced, hgarbled⟩ := hfine
    simp only [account, hnone] at hannounced hgarbled
    rw [hseen]
    simp only [account, DB.apply, find?_put, key_user, if_true, hannounced, hgarbled]
    rfl
  · intro k _ hne
    rw [hseen, account_putUser hne]
    exact hinv k

/-- An update of a row that was there. -/
theorem ready_rewrite {r x : UserRow} (hok : (accounts env).Ok l) (hready : (accounts env).Ready l)
    (h : s.eval env c.now c.pick ((engine env).view l) = .ok (v, [.putUser x]))
    (hr : r ∈ ((engine env).view l).users) (hid : x.id = r.id) :
    (accounts env).Ready ((engine env).statement s c l).2 := by
  refine ready_same hok hready h fun k => ?_
  cases k with
  | user id => exact ⟨isSome_put hr hid id, rfl, rfl⟩
  | _ => exact ⟨rfl, rfl, rfl⟩

end Steps

theorem keeps_calm {p : Store.Tx β α} (hp : p.Uses Calm) (hl : (accounts env).Ready l) :
    (accounts env).Keeps p (fun _ l => (accounts env).Ready l) l := by
  refine safe_keeps (K := (accounts env).Ready) ?_ ?_ hp l hl
  · intro _ l l' hrely
    exact Partition.ready_rely hrely
  · intro s hs l hok hready c
    cases heval : s.eval env c.now c.pick ((engine env).view l) with
    | error e =>
        rw [statement_error heval]
        exact ⟨hok, trivial, hready⟩
    | ok out =>
        obtain ⟨hsilent, hsame⟩ := eval_calm hs heval
        refine ⟨Partition.ok_statement hok ?_, trivial, ready_same hok hready heval hsame⟩
        rw [(engine_ok heval).1]
        exact covered_eval heval hsilent

/-- A statement that inserts the account or fails. -/
theorem keeps_insert {context : String}
    (hs : ∀ now pick db v ws, s.eval env now pick db = .ok (v, ws) →
      ∃ r, r.id = id ∧ Untaken db.users r ∧ ws = [.putUser r]) (hl : (accounts env).Ready l) :
    (accounts env).Keeps (Store.stmt context s : Store.Tx β s.Val)
    (fun _ l => Owes env id l) l := by
  refine keeps_stmt fun l' hok hrely c v ws heval => ?_
  obtain ⟨r, rfl, hfree, rfl⟩ := hs _ _ _ _ _ heval
  exact ⟨covered_eval heval (silent_putUser r),
    owes_insert hok (Partition.ready_rely hrely hl) heval hfree⟩

/-- The announcement settles what the transaction owes. -/
theorem keeps_announce {now t : Time} {text : String} (htext : Uuid.parse text = some id)
    (hl : Owes env id l) :
    (accounts env).Keeps (Store.emitEvents now [.userCreated text t] : Store.Tx β Unit)
      (fun _ l => (accounts env).Ready l) l := by
  suffices hstmt : (accounts env).Keeps (Store.stmt "postgres: outbox"
      (.insertOutboxEvent (Store.stamp now (.userCreated text t))) : Store.Tx β Unit)
      (fun _ l => (accounts env).Ready l) l from
    safe_bind hstmt fun _ l hready => .done hready
  refine keeps_stmt fun l' hok hrely c v ws heval => ?_
  obtain rfl : ws = [.emit (Store.stamp now (.userCreated text t))] := ok_writes heval
  have howes : Owes env id l' := owes_rely hrely hl
  -- the event names one user, so every other account is as it was
  have hother : ∀ k, k ≠ .user id → ∀ db : DB,
      account k (db.apply (.emit (Store.stamp now (.userCreated text t)))) = account k db := by
    intro k hk db
    cases k with
    | user id' =>
        have hne : id ≠ id' := fun heq => hk (by rw [heq])
        simp [account, DB.apply, Store.stamp, announces, garbled, htext, hne]
    | _ => simp [account, DB.apply, Store.stamp, garbled, htext]
  refine ⟨?_, Partition.ready_of_inv fun k => ?_⟩
  · intro x hx k hk w
    rw [List.mem_singleton.mp hx]
    exact hother k (fun heq => hk (heq ▸ List.mem_append_left _ howes.held)) w
  · rw [seen_statement heval, DB.applyAll_cons, DB.applyAll_nil]
    show (account k _).fine
    by_cases hk : k = .user id
    · subst hk
      obtain ⟨r, hr⟩ := howes.inserted
      simp only [account, Account.mk.injEq] at hr
      obtain ⟨hrow, hannounced, hgarbled⟩ := hr
      simp [account, Account.fine, DB.apply, Store.stamp, announces, garbled, htext,
        hrow, hannounced, hgarbled]
    · rw [hother k hk]
      by_cases hheld : k ∈ l'.held
      · exact howes.others k hheld hk
      -- an account that is not held is as the transaction found it
      · have hbase : account k ((engine env).view l') = account k l'.base :=
          Partition.part_applyAll hok.2 hheld l'.base
        rw [hbase]
        exact hok.1 k

theorem keeps_create (a : Address) (hl : (accounts env).Ready l) :
    (accounts env).Keeps (a.create now id) (fun _ l => (accounts env).Ready l) l := by
  have hannounce : ∀ (p : Store.Tx User Unit) (user : User),
      (accounts env).Keeps p (fun _ l => Owes env id l) l →
      (accounts env).Keeps (do p; Store.emitEvents now [.userCreated id.string now]; pure user)
        (fun _ l => (accounts env).Ready l) l := by
    intro p user hp
    refine safe_bind hp fun _ l howes => ?_
    exact safe_bind (keeps_announce (Uuid.parse_string id) howes) fun _ l hready =>
      .done hready
  cases a with
  | email text =>
      refine hannounce _ _ (keeps_insert (s := .createUserWithEmail id text .active) ?_ hl)
      intro _ _ db v ws heval
      exact ⟨_, rfl, insertUser_eq_ok heval⟩
  | mobile text =>
      refine hannounce _ _ (keeps_insert (s := .createUserWithMobile id text) ?_ hl)
      intro _ _ db v ws heval
      exact ⟨_, rfl, insertUser_eq_ok heval⟩

/-- Whichever the address is, an account is inserted only after a lookup that found none. -/
theorem keeps_findOrCreate (a : Address) (hl : (accounts env).Ready l) :
    (accounts env).Keeps (findOrCreate now id a) (fun _ l => (accounts env).Ready l) l := by
  have hcreate : ∀ {l}, (accounts env).Ready l →
      (accounts env).Keeps (a.create now id) (fun _ l => (accounts env).Ready l) l :=
    keeps_create a
  cases a with
  | email text | mobile text =>
      refine safe_bind (keeps_calm (.call trivial fun _ => .done _) hl) fun r l hready => ?_
      cases r with
      | ok user => exact .done hready
      | error e =>
          cases e with
          | noRows => exact hcreate hready
          | _ => exact .fail

/-- Of `CreateSignupUser`: a conflict on the address inserts nothing. -/
theorem createSignupUser_ok {db : DB} {email hash name : String} {status : UserStatus}
    {verified : Option Time} {n : Nat} {ws : List Write}
    (h : createSignupUser now db id email hash name status verified = .ok (n, ws)) :
    (n = 0 ∧ ws = []) ∨
      (n ≠ 0 ∧ ∃ r : UserRow, r.id = id ∧ Untaken db.users r ∧ ws = [.putUser r]) := by
  unfold createSignupUser at h
  split at h
  · cases h
    exact .inl ⟨rfl, rfl⟩
  · cases hins :
      insertUser db (newUser now id (some email) none (some hash) (some name) status verified) with
    | error e =>
        rw [hins] at h
        cases h
    | ok out =>
        rw [hins] at h
        cases h
        have hins' : insertUser db _ = .ok (out.1, out.2) := hins
        obtain ⟨hfree, hws⟩ := insertUser_eq_ok hins'
        exact .inr ⟨by simp, _, rfl, hfree, hws⟩

theorem keeps_createSignupUser {user : User} {org : Option Organization} {invite : Option Invite}
    {acceptedAt : Time} (hl : (accounts env).Ready l) :
    (accounts env).Keeps (Store.createSignupUser now user org invite acceptedAt)
      (fun _ l => (accounts env).Ready l) l := by
  refine safe_bind (M := fun u l => Uuid.parse user.id = some u ∧ (accounts env).Ready l)
    (keeps_parseID fun u hu => ⟨hu, hl⟩) fun userID l h => ?_
  have hinsert :
      (accounts env).Keeps
        (Store.stmt "postgres: create signup user"
          (.createSignupUser userID user.email user.passwordHash user.displayName user.status
      (if user.emailVerified then Store.timestamptz acceptedAt else none)) : Store.Tx Bool Nat)
      (fun n l => (n = 0 → (accounts env).Ready l) ∧ (n ≠ 0 → Owes env userID l)) l := by
    refine keeps_stmt fun l' hok hrely c n ws heval => ?_
    have hready := Partition.ready_rely hrely h.2
    rcases createSignupUser_ok heval with ⟨rfl, rfl⟩ | ⟨hn, r, rfl, hfree, rfl⟩
    · refine ⟨Partition.covered_nil _, fun _ => ?_, fun hne => absurd rfl hne⟩
      exact ready_same hok hready heval fun k => ⟨rfl, rfl, rfl⟩
    · refine ⟨covered_eval heval (silent_putUser r), fun heq => absurd heq hn, fun _ => ?_⟩
      exact owes_insert hok hready heval hfree
  refine safe_bind hinsert fun n l hn => ?_
  split
  · rename_i hzero
    exact .done (hn.1 hzero)
  · rename_i hsome
    refine safe_bind (keeps_announce h.1 (hn.2 hsome)) fun _ l hready => ?_
    -- what follows is about the organization
    have hjoin :
        (Store.joinInvite now userID user.id acceptedAt (Store.orNow now acceptedAt) invite).Uses
          Calm :=
      Store.uses_joinInvite (fun _ he => he) (fun _ => trivial) (fun _ _ => trivial)
        (fun _ => trivial) invite
    refine safe_bind (keeps_calm hjoin hready) fun _ l hready => ?_
    have hown : (Store.ownOrg now userID user.id (Store.orNow now acceptedAt) org).Uses Calm :=
      Store.uses_ownOrg (fun _ he => he) (fun _ _ _ _ => trivial) (fun _ => trivial) org
    refine safe_bind (keeps_calm hown hready) fun _ l hready => ?_
    exact .done hready

theorem keeps_reissuePendingSignup {user : User} {challenge : Option OTPChallenge}
    {invite : Option Invite} {acceptedAt : Time} (hl : (accounts env).Ready l) :
    (accounts env).Keeps (Store.reissuePendingSignup now user challenge invite acceptedAt)
      (fun _ l => (accounts env).Ready l) l := by
  refine keeps_calm ?_ hl
  exact Store.uses_reissuePendingSignup trivial (fun _ _ => trivial) (fun _ _ _ _ _ => trivial)
    (fun _ => trivial) (fun _ he => he) (fun _ => trivial) (fun _ _ => trivial) (fun _ _ => trivial)

end Transactions

/-! ## The demo upsert -/

def announceIf (now : Time) (id : Uuid) (created : Bool) : Store.Tx Unit Unit :=
  if created then Store.emitEvents now [.userCreated id.string now] else pure ()

/-- `UpsertDemoUser` after its lookup. -/
def demoRest (now : Time) (id : Uuid) (email mobile hash name : String) (created : Bool) :
    Store.Tx Unit Unit := do
  Store.demoUpsert id email mobile hash name
  announceIf now id created

section Demo

variable {env : Env} {now : Time} {id : Uuid} {email mobile hash name : String} {created : Bool}

/-- The statement answers as the lookup of `UpsertDemoUser`. -/
def Looks (env : Env) (email mobile : String) (s : Sql) : Prop :=
  ∀ now pick db, (lookupFinds email mobile db = true → ∃ v, s.eval env now pick db = .ok (v, [])) ∧
    (lookupFinds email mobile db = false → s.eval env now pick db = .error .noRows)

/-- The statement inserts or updates as the upsert of `UpsertDemoUser`. -/
def Upserts (env : Env) (id : Uuid) (email mobile : String) (s : Sql) : Prop :=
  ∀ now pick db v ws, s.eval env now pick db = .ok (v, ws) →
    (upsertMeets email mobile db = false →
      ∃ r : UserRow, r.id = id ∧ Untaken db.users r ∧ ws = [.putUser r]) ∧
    (upsertMeets email mobile db = true →
      ∃ r x : UserRow, r ∈ db.users ∧ x.id = r.id ∧ ws = [.putUser x])

theorem looks_one {t : Table UserRow} {p : UserRow → Bool} :
    (t.any p = true → ∃ u, (one ((t.rows.find? p).map UserRow.user) : Outcome User) = .ok (u, [])) ∧
      (t.any p = false → (one ((t.rows.find? p).map UserRow.user) : Outcome User) =
        .error .noRows) := by
  constructor
  · intro h
    obtain ⟨r, hr, hp⟩ := any_eq_true.mp h
    cases hfind : t.rows.find? p with
    | none => exact absurd hp (List.find?_eq_none.mp hfind r hr)
    | some u => exact ⟨u.user, rfl⟩
  · intro h
    have hnone : t.rows.find? p = none :=
      List.find?_eq_none.mpr fun r hr => by simp [any_eq_false.mp h r hr]
    rw [hnone]
    rfl

theorem upsertDemoUser_ok {conflict : UserRow → Bool} {db : DB} {e m : Option String} {v : Unit}
    {ws : List Write} (h : upsertDemoUser conflict now db id e m hash name = .ok (v, ws)) :
    (db.users.any conflict = false →
      ∃ r : UserRow, r.id = id ∧ Untaken db.users r ∧ ws = [.putUser r]) ∧
    (db.users.any conflict = true →
      ∃ r x : UserRow, r ∈ db.users ∧ x.id = r.id ∧ ws = [.putUser x]) := by
  rcases upsertDemoUser_iff.mp h with ⟨r, hfind, _, hws⟩ | ⟨hfind, hfree, hws⟩
  · have hr : r ∈ db.users := List.mem_of_find?_eq_some hfind
    have hmatch : conflict r = true := List.find?_some hfind
    refine ⟨fun hnone => ?_, fun _ => ⟨r, r.reseeded now e m hash name, hr, rfl, hws⟩⟩
    rw [any_eq_false.mp hnone r hr] at hmatch
    cases hmatch
  · refine ⟨fun _ => ⟨_, rfl, hfree, hws⟩, fun hsome => ?_⟩
    obtain ⟨r, hr, hmatch⟩ := any_eq_true.mp hsome
    exact absurd hmatch (List.find?_eq_none.mp hfind r hr)

/-- `UpsertDemoUser` starts with its lookup. -/
theorem upsertDemoUser_call (env : Env) (now : Time) (id : Uuid)
    (email mobile hash name : String) :
    ∃ s k, silently (Store.upsertDemoUser now id email mobile hash name) = .call s k ∧
      Looks env email mobile s ∧ s.forUpdate = [] ∧
      (∀ v, k (.ok v) = silently (demoRest now id email mobile hash name false)) ∧
      k (.error .noRows) = silently (demoRest now id email mobile hash name true) := by
  unfold Store.upsertDemoUser
  by_cases hemail : email = ""
  · have hlookup : Store.demoLookup email mobile = .findUserByMobile mobile := if_pos hemail
    rw [hlookup]
    refine ⟨.findUserByMobile mobile, _, rfl, ?_, rfl, fun _ => rfl, rfl⟩
    intro now pick db
    have hfinds : lookupFinds email mobile db = db.users.any fun r => r.mobile = some mobile := by
      simp [lookupFinds, hemail]
    rw [hfinds]
    exact looks_one
  · have hlookup : Store.demoLookup email mobile = .findUserByEmail email := if_neg hemail
    rw [hlookup]
    refine ⟨.findUserByEmail email, _, rfl, ?_, rfl, fun _ => rfl, rfl⟩
    intro now pick db
    have hfinds : lookupFinds email mobile db = db.users.any fun r => r.email = some email := by
      simp [lookupFinds, hemail]
    rw [hfinds]
    exact looks_one

/-- And goes on with its upsert. -/
theorem demoRest_call (env : Env) (now : Time) (id : Uuid) (email mobile hash name : String)
    (created : Bool) :
    ∃ s k,
    silently (demoRest now id email mobile hash name created) = .call s k ∧
      isUpsert s = true ∧ Upserts env id email mobile s ∧
      (∀ v, k (.ok v) = silently (announceIf now id created)) ∧ ∀ e, k (.error e) = .fail () := by
  unfold demoRest
  -- without an address the mobile number is the arbiter
  by_cases hemail : email = ""
  · have hupsert : Store.demoUpsert id email mobile hash name =
        Store.stmt "" (.upsertDemoUserByMobile id (Store.textPtr email) (Store.textPtr mobile) hash
          name) := if_pos hemail
    rw [hupsert]
    refine ⟨_, _, rfl, rfl, ?_, fun _ => rfl, fun _ => rfl⟩
    intro now pick db v ws heval
    have hmeets : upsertMeets email mobile db = db.users.any fun r =>
        (Store.textPtr mobile).isSome && r.mobile = Store.textPtr mobile := by
      simp [upsertMeets, hemail]
    rw [hmeets]
    exact upsertDemoUser_ok heval
  · have hupsert : Store.demoUpsert id email mobile hash name =
        Store.stmt "" (.upsertDemoUserByEmail id (Store.textPtr email) (Store.textPtr mobile) hash
          name) := if_neg hemail
    rw [hupsert]
    refine ⟨_, _, rfl, rfl, ?_, fun _ => rfl, fun _ => rfl⟩
    intro now pick db v ws heval
    have hmeets : upsertMeets email mobile db = db.users.any fun r =>
        (Store.textPtr email).isSome && r.email = Store.textPtr email := by
      simp [upsertMeets, Store.textPtr, hemail]
    rw [hmeets]
    exact upsertDemoUser_ok heval

/-- The upsert, at a moment when it does what the lookup has found. -/
theorem next_upsert (hs : Upserts env id email mobile s)
    {k : Except SqlError s.Val → Program sqlSignature Unit Unit}
    (hok : ∀ v, k (.ok v) = silently (announceIf now id created))
    (herr : ∀ e, k (.error e) = .fail ()) {db : DB} (hdb : (accounts env).Inv db)
    (hcreated : created = !upsertMeets email mobile db) (c : Tick) :
    (accounts env).Covered ((engine env).statement s c ⟨db, [], []⟩).2.writes
        ((engine env).statement s c ⟨db, [], []⟩).2.held ∧
      (accounts env).Keeps (k ((engine env).statement s c ⟨db, [], []⟩).1)
        (fun _ l => (accounts env).Ready l) ((engine env).statement s c ⟨db, [], []⟩).2 := by
  have hl : (accounts env).Ok ⟨db, [], []⟩ := ⟨hdb, Partition.covered_nil _⟩
  have hready : (accounts env).Ready ⟨db, [], []⟩ := fun _ hk => by cases hk
  cases heval : s.eval env c.now c.pick ((engine env).view ⟨db, [], []⟩) with
  | error e =>
      rw [statement_error heval]
      refine ⟨Partition.covered_nil _, ?_⟩
      rw [herr]
      exact .fail
  | ok out =>
      obtain ⟨v, ws⟩ := out
      have hans : ((engine env).statement s c ⟨db, [], []⟩).1 = .ok v := by
        simp [Engine.statement, (engine_ok heval).1]
      have hwrites : ((engine env).statement s c ⟨db, [], []⟩).2.writes = ws := by
        simp [Engine.statement, (engine_ok heval).1]
      have hcase := hs _ _ _ _ _ heval
      rw [hans, hok, hwrites]
      -- what the lookup said decides whether the creation is announced
      cases hmeets : upsertMeets email mobile db with
      | true =>
          obtain ⟨r, x, hr, hid, rfl⟩ := hcase.2 hmeets
          refine ⟨covered_eval heval (silent_putUser x), ?_⟩
          rw [hcreated, hmeets]
          exact .done (ready_rewrite hl hready heval hr hid)
      | false =>
          obtain ⟨r, rfl, hfree, rfl⟩ := hcase.1 hmeets
          refine ⟨covered_eval heval (silent_putUser r), ?_⟩
          rw [hcreated, hmeets]
          exact safe_bimap
            (keeps_announce (Uuid.parse_string r.id) (owes_insert hl hready heval hfree))

/-- The lookup writes and locks nothing. -/
theorem next_lookup (hs : Looks env email mobile s) (hfree : s.forUpdate = [])
    {k : Except SqlError s.Val → Program sqlSignature Unit Unit}
    (hok : ∀ v, k (.ok v) = silently (demoRest now id email mobile hash name false))
    (hnone : k (.error .noRows) = silently (demoRest now id email mobile hash name true))
    (db : DB) (c : Tick) :
    ((engine env).statement s c ⟨db, [], []⟩).2 = ⟨db, [], []⟩ ∧
      k ((engine env).statement s c ⟨db, [], []⟩).1 =
        silently (demoRest now id email mobile hash name (!lookupFinds email mobile db)) := by
  cases hfinds : lookupFinds email mobile db with
  | true =>
      obtain ⟨v, heval⟩ := (hs c.now c.pick db).1 hfinds
      have hview : s.eval env c.now c.pick ((engine env).view ⟨db, [], []⟩) = .ok (v, []) := heval
      simp [Engine.statement, (engine_ok hview).1, (engine_ok hview).2, hfree, hok]
  | false =>
      have hview : s.eval env c.now c.pick ((engine env).view ⟨db, [], []⟩) = .error .noRows :=
        (hs c.now c.pick db).2 hfinds
      rw [statement_error hview]
      exact ⟨rfl, hnone⟩

/-- What the lookup would have found before a step, the upsert would have met before it. -/
theorem upsertMeets_of_finds {db db' : DB}
    (h : lookupFinds email mobile db = upsertMeets email mobile db') :
    upsertMeets email mobile db' = upsertMeets email mobile db := by
  by_cases hmobile : email = "" ∧ mobile = ""
  · -- without any address the upsert always inserts
    obtain ⟨rfl, rfl⟩ := hmobile
    have hnever : ∀ db, upsertMeets "" "" db = false := fun db =>
      any_eq_false.mpr fun r _ => by simp [Store.textPtr]
    rw [hnever db, hnever db']
  · rw [← h]
    unfold lookupFinds upsertMeets
    congr 1
    funext r
    split
    · rename_i hemail
      have hsome : mobile ≠ "" := fun hempty => hmobile ⟨hemail, hempty⟩
      simp [Store.textPtr, hsome]
    · rfl

end Demo

/-! ## Runs -/

/-- A demo upsert that has not made its lookup, or has made it and would now do as it found. -/
def Waits (calls : List CreationCall) (i : Nat) (p : Program sqlSignature Unit Unit)
    (db : DB) : Prop :=
  ∃ t email mobile hash name, calls[i]? = some t ∧
  t.creation = .upsertDemoUser email mobile hash name ∧
    (p = t.transaction ∨ ∃ created, p =
      silently (demoRest t.now t.id email mobile hash name created) ∧
      created = !upsertMeets email mobile db)

section Runs

variable {env : Env} {calls : List CreationCall} {db : DB}

theorem transaction_demo {t : CreationCall} {email mobile hash name : String}
    (h : t.creation = .upsertDemoUser email mobile hash name) :
    t.transaction = silently (Store.upsertDemoUser t.now t.id email mobile hash name) := by
  unfold CreationCall.transaction
  rw [h]

theorem atUpsert_demoRest (env : Env) (t : CreationCall) (email mobile hash name : String)
    (created : Bool) :
    atUpsert (.running (silently (demoRest t.now t.id email mobile hash name created)) [] []) =
      true := by
  obtain ⟨s, k, hcall, hs, _⟩ := demoRest_call env t.now t.id email mobile hash name created
  rw [hcall]
  exact hs

/-- Every other call is verified from its start. -/
theorem transaction_keeps (env : Env) (t : CreationCall) (db : DB) :
    (∃ email mobile hash name, t.creation = .upsertDemoUser email mobile hash name) ∨
      (accounts env).Keeps t.transaction (fun _ l => (accounts env).Ready l) ⟨db, [], []⟩ := by
  have hready : (accounts env).Ready ⟨db, [], []⟩ := fun _ hk => by cases hk
  unfold CreationCall.transaction
  cases h : t.creation with
  | findOrCreateByEmail email =>
      exact .inr (safe_bimap (keeps_findOrCreate (.email email) hready))
  | findOrCreateByMobile mobile =>
      exact .inr (safe_bimap (keeps_findOrCreate (.mobile mobile) hready))
  | createSignupUser user org invite acceptedAt =>
      exact .inr (safe_bimap (keeps_createSignupUser hready))
  | reissuePendingSignup user challenge invite acceptedAt =>
      exact .inr (safe_bimap (keeps_reissuePendingSignup hready))
  | upsertDemoUser email mobile hash name => exact .inl ⟨email, mobile, hash, name, rfl⟩

/-- What holds of the system throughout a run without overtaking. -/
abbrev Sound (env : Env) (calls : List CreationCall) (sys : CreationSystem) : Prop :=
  sys.SoundUpTo (accounts env) (fun _ _ l => (accounts env).Ready l) (Waits calls)

theorem sound_begin (hdb : (accounts env).Inv db) : Sound env calls (beginCreations db calls) := by
  refine ⟨hdb, ?_, ?_⟩
  · intro i p writes held hi
    obtain ⟨q, _, heq⟩ := System.start_session hi
    obtain ⟨_, rfl, rfl⟩ := Session.running.inj heq
    exact Partition.covered_nil _
  · intro i p writes held hi
    obtain ⟨q, hq, heq⟩ := System.start_session hi
    obtain ⟨rfl, rfl, rfl⟩ := Session.running.inj heq
    rw [List.getElem?_map, Option.map_eq_some_iff] at hq
    obtain ⟨t, ht, rfl⟩ := hq
    rcases transaction_keeps env t db with ⟨email, mobile, hash, name, hdemo⟩ | hkeeps
    · exact .inr ⟨rfl, rfl, t, email, mobile, hash, name, ht, hdemo, .inl rfl⟩
    · exact .inl hkeeps

theorem step_sound {sys : CreationSystem} (hex : sys.Exclusive) (h : Sound env calls sys) (i : Nat)
    (m : Move Tick) (hstep : overtakes calls sys (sys.step (engine env) i m) = false) :
    Sound env calls (sys.step (engine env) i m) := by
  refine System.upTo_step (fun _ _ _ h => h) (fun _ => Partition.stable_ready) hex h i m ?_ ?_
  · -- somebody else's step
    rintro j p _ _ ⟨t, email, mobile, hash, name, ht, hdemo, rfl | ⟨created, rfl, hcreated⟩⟩ hafter
    · exact ⟨t, email, mobile, hash, name, ht, hdemo, .inl rfl⟩
    · refine ⟨t, email, mobile, hash, name, ht, hdemo, .inr ⟨created, rfl, ?_⟩⟩
      have hfinds :=
        not_overtakes hstep ht hdemo hafter (atUpsert_demoRest env t email mobile hash name created)
      rw [hcreated, upsertMeets_of_finds hfinds]
  · -- its own
    rintro o k c hi ⟨t, email, mobile, hash, name, ht, hdemo, hp | ⟨created, hp, hcreated⟩⟩ hx
    · obtain ⟨s, k', hcall, hlooks, hfree, hfound, hmissing⟩ :=
        upsertDemoUser_call env t.now t.id email mobile hash name
      rw [transaction_demo hdemo, hcall] at hp
      cases hp
      obtain ⟨hlocal, hrest⟩ := next_lookup hlooks hfree hfound hmissing sys.committed c
      rw [hlocal, hrest] at hx ⊢
      refine ⟨Partition.covered_nil _, .inr ⟨rfl, rfl, t, email, mobile, hash, name, ht, hdemo,
        .inr ⟨_, rfl, ?_⟩⟩⟩
      -- the session stands before its upsert now
      have hafter : (sys.step (engine env) i m).sessions[i]? = some (.running (silently
          (demoRest t.now t.id email mobile hash name (!lookupFinds email mobile sys.committed))) []
          []) := by
        have hlt : i < sys.sessions.length := (List.getElem?_eq_some_iff.mp hi).1
        rw [hx]
        exact List.getElem?_set_self hlt
      have hsame : (sys.step (engine env) i m).committed = sys.committed := by rw [hx]; rfl
      rw [not_overtakes hstep ht hdemo hafter (atUpsert_demoRest env t email mobile hash name _),
        hsame]
    · obtain ⟨s, k', hcall, _, hupserts, hdone, hfailed⟩ :=
        demoRest_call env t.now t.id email mobile hash name created
      rw [hcall] at hp
      cases hp
      obtain ⟨hcov, hkeeps⟩ := next_upsert hupserts hdone hfailed h.inv hcreated c
      exact ⟨hcov, .inl hkeeps⟩

theorem run_sound {sys : CreationSystem} (hex : sys.Exclusive) (h : Sound env calls sys)
    {sched : StoreSchedule} (hrun : unovertaken env calls sys sched = true) :
    Sound env calls (runCreations env sys sched) := by
  induction sched generalizing sys with
  | nil => exact h
  | cons move rest ih =>
      obtain ⟨i, m⟩ := move
      simp only [unovertaken, Bool.and_eq_true, Bool.not_eq_true'] at hrun
      exact ih (System.exclusive_step (engine env) hex i m) (step_sound hex h i m hrun.1) hrun.2

/-! ### Accounts stay -/

/-- All statements but the one that deletes accounts. -/
def Keeping : Sql → Prop
  | .purgeUnverifiedSignups _ => False
  | _ => True

theorem uses_keeping {o : Store.Op} (ho : ∀ t, o ≠ .purgeUnverifiedSignups t)
    (now : Time) (id : Uuid) :
    (o.body now id).Uses Keeping := by
  refine uses_mono (fun s hs => ?_) (Store.body_users now id o)
  cases s with
  | purgeUnverifiedSignups =>
      cases hs (by simp [Sql.writes]) with
      | purge t => exact ho t rfl
  | _ => trivial

theorem transaction_keeping (t : CreationCall) : t.transaction.Uses Keeping := by
  unfold CreationCall.transaction
  cases t.creation with
  | findOrCreateByEmail text | findOrCreateByMobile text =>
      refine uses_bimap (uses_bind (.call trivial fun _ => .done _) fun r => ?_) _ _
      cases r with
      | ok user => exact .done _
      | error e =>
          cases e with
          | noRows =>
              first
                | exact uses_keeping (o := .createByEmail text) (fun _ h => by cases h) _ _
                | exact uses_keeping (o := .createByMobile text) (fun _ h => by cases h) _ _
          | _ => exact .fail _
  | createSignupUser user org invite acceptedAt =>
      exact uses_bimap (uses_keeping (o := .createSignupUser user org invite acceptedAt)
        (fun _ h => by cases h) _ t.id) _ _
  | reissuePendingSignup user challenge invite acceptedAt =>
      exact uses_bimap (uses_keeping (o := .reissuePendingSignup user challenge invite acceptedAt)
        (fun _ h => by cases h) _ t.id) _ _
  | upsertDemoUser email mobile hash name =>
      exact uses_bimap (uses_keeping (o := .upsertDemoUser email mobile hash name)
        (fun _ h => by cases h) _ _) _ _

theorem eval_keeping {pick : Nat} {v : s.Val} {ws : List Write} (hs : Keeping s)
    (h : s.eval env now pick db = .ok (v, ws)) {id : Uuid} (hid : DB.HasUser db id) :
    DB.HasUser (db.applyAll ws) id := by
  have hput : ∀ r : UserRow, ((db.users.put r).find? id).isSome = true := by
    intro r
    rw [find?_put]
    split
    · rfl
    · exact hid
  have hchange := eval_users h
  unfold DB.HasUser
  generalize (db.applyAll ws).users = t at hchange ⊢
  cases hchange with
  | same => exact hid
  | inserted r _ _ => exact hput r
  | loggedIn => exact (isSome_update (key_loggedIn now) id).trans hid
  | reissued => exact (isSome_update (key_reissued now _ _) id).trans hid
  | verified => exact (isSome_update (key_activated now _) id).trans hid
  | reseeded => exact hput _
  | purged => exact hs.elim

/-- These calls delete no account. -/
theorem hasUser_run (db : DB) (sched more : StoreSchedule) {id : Uuid}
    (h : DB.HasUser (runCreations env (beginCreations db calls) sched).committed id) :
    DB.HasUser (runCreations env (beginCreations db calls) (sched ++ more)).committed id := by
  have hstep : ∀ s, Keeping s → ∀ c w k, ((userRows env).part k w).isSome = true →
      ((userRows env).part k ((engine env).applyAll w ((engine env).eval s c w).2)).isSome =
        true := by
    intro s hs c w k
    cases k with
    | user id =>
        exact engine_rel (R := fun db db' => DB.HasUser db id → DB.HasUser db' id)
          (fun _ h => h) c w
          fun v ws heval hid => eval_keeping hs heval hid
    | _ => exact fun h => h
  have huses : ∀ p ∈ calls.map CreationCall.transaction, p.Uses Keeping := by
    intro p hp
    obtain ⟨t, _, rfl⟩ := List.mem_map.mp hp
    exact transaction_keeping t
  exact System.run_moves (owned_userRows env) (fun _ _ => trivial)
    (R := fun _ x y => x.isSome = true → y.isSome = true) (fun _ _ h => h)
    (fun _ _ _ _ h₁ h₂ h => h₂ (h₁ h)) hstep huses db sched more (.user id) h

theorem everInserted_iff (db : DB) (sched : StoreSchedule) (id : Uuid) :
    EverInserted env db calls sched id ↔
      DB.HasUser (runCreations env (beginCreations db calls) sched).committed id := by
  constructor
  · rintro ⟨first, rest, rfl, h⟩
    exact hasUser_run db first rest h
  · intro h
    exact ⟨sched, [], (List.append_nil sched).symm, h⟩

end Runs

/-- In every interleaving in which no demo upsert is overtaken between its lookup and its upsert,
the outbox announces every account that was ever inserted, once, and no other.  It starts from any
state of which this is true. -/
theorem user_created_once {env : Env} {calls : List CreationCall} {db : DB}
    (hdb : Announced (DB.HasUser db) db.outbox) {sched : StoreSchedule}
    (hrun : unovertaken env calls (beginCreations db calls) sched = true) :
    Announced (EverInserted env db calls sched)
      (runCreations env (beginCreations db calls) sched).committed.outbox := by
  have hsound := run_sound (System.exclusive_start db _)
    (sound_begin ((inv_iff env db).mpr hdb)) hrun
  have hdone := (inv_iff env _).mp hsound.inv
  refine ⟨fun id hid => ?_, fun text t hmem => ?_⟩
  · exact hdone.once id ((everInserted_iff db sched id).mp hid)
  · obtain ⟨id, hid, hparse⟩ := hdone.real text t hmem
    exact ⟨id, (everInserted_iff db sched id).mpr hid, hparse⟩

/-! ## Two instances -/

/-- One instance seeds an account, and its owner logs in at another instance for the first time. -/
def seedAndLogin : List CreationCall :=
  [⟨1000, Uuid.ofNat 1, .upsertDemoUser "ann@example.com" "" "hash" "Ann"⟩,
    ⟨1000, Uuid.ofNat 2, .findOrCreateByEmail "ann@example.com"⟩]

/-- The sessions advance in this order. -/
def inOrder (order : List Nat) : StoreSchedule :=
  order.map fun i => (i, .advance ⟨1000, 0⟩)

theorem announced_empty : Announced (DB.HasUser DB.empty) DB.empty.outbox := by
  refine ⟨fun id hid => ?_, fun text t hmem => ?_⟩
  · cases hid
  · cases hmem

set_option maxRecDepth 10000 in
/-- Both have looked and found nobody.  The login waits for the seed to commit and fails on the
conflict. -/
theorem user_created_once_contended :
    unovertaken Service.toyEnv seedAndLogin (beginCreations DB.empty seedAndLogin)
        (inOrder [0, 1, 0, 1, 0, 0, 1, 1]) = true ∧
      Announced (EverInserted Service.toyEnv DB.empty seedAndLogin
        (inOrder [0, 1, 0, 1, 0, 0, 1, 1]))
          (runCreations Service.toyEnv (beginCreations DB.empty seedAndLogin)
          (inOrder [0, 1, 0, 1, 0, 0, 1, 1])).committed.outbox :=
  ⟨by decide +kernel, user_created_once announced_empty (by decide +kernel)⟩

set_option maxRecDepth 10000 in
/-- The login commits between the lookup and the upsert of the seed.  The seed updates the account
of the login and announces the identifier it has drawn, which no account ever has. -/
theorem overtaken_upsert_announces :
    ¬ Announced
      (EverInserted Service.toyEnv DB.empty seedAndLogin (inOrder [0, 1, 1, 1, 1, 0, 0, 0]))
        (runCreations Service.toyEnv (beginCreations DB.empty seedAndLogin)
        (inOrder [0, 1, 1, 1, 1, 0, 0, 0])).committed.outbox := by
  intro h
  obtain ⟨id, hid, hparse⟩ := h.real (Uuid.ofNat 1).string 1000 (by decide +kernel)
  obtain rfl : Uuid.ofNat 1 = id := Option.some.inj ((Uuid.parse_string _).symm.trans hparse)
  have hgone : ¬ DB.HasUser (runCreations Service.toyEnv (beginCreations DB.empty seedAndLogin)
      (inOrder [0, 1, 1, 1, 1, 0, 0, 0])).committed (Uuid.ofNat 1) := by
    unfold DB.HasUser
    decide +kernel
  exact hgone ((everInserted_iff DB.empty _ _).mp hid)

end UserEvents
end Postgres
end OrbitAuth
