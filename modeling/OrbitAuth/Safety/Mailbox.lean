import OrbitAuth.Service.Requests

/-!
# Mailbox — one account per mailbox?

The unique index on `users.email` compares spellings.  Two spellings of one mailbox are kept apart
only if every path that writes an account normalises the address first, and all of them do except
one: `VerifyOTP` creates the account under the identifier it was given, trimmed.

* `mailbox_unique` — as long as every email identifier handed to `VerifyOTP` is already normalised,
  stored addresses are normalised and no mailbox has two accounts, after every interleaving of
  calls;
* `mailbox_twice` — a run with one capitalised identifier that ends with two accounts.
-/

namespace OrbitAuth
namespace Service
namespace Mailbox

open Domain Foundations Postgres

variable {env : Env}

/-- The spelling under which an address is stored by the paths that normalise. -/
def Normal (env : Env) (email : String) : Prop :=
  env.normalizeEmail email = email

def AllNormal (env : Env) (users : Table UserRow) : Prop :=
  ∀ r ∈ users, ∀ email, r.email = some email → Normal env email

/-! ## Statements -/

/-- The address a statement writes. -/
def writtenEmail : Sql → Option String
  | .createUserWithEmail _ email _ => some email
  | .createSignupUser _ email _ _ _ _ => some email
  | .upsertDemoUserByEmail _ email _ _ _ => email
  | .upsertDemoUserByMobile _ email _ _ _ => email
  | _ => none

def WritesNormal (env : Env) (s : Sql) : Prop :=
  ∀ email, writtenEmail s = some email → Normal env email

theorem allNormal_put {t : Table UserRow} {r : UserRow} (ht : AllNormal env t)
    (hr : ∀ email, r.email = some email → Normal env email) : AllNormal env (t.put r) := by
  intro s hs
  rcases mem_put.mp hs with rfl | ⟨hs, _⟩
  · exact hr
  · exact ht s hs

theorem allNormal_update {t : Table UserRow} {p : UserRow → Bool} {f : UserRow → UserRow}
    (ht : AllNormal env t) (hkey : ∀ r, Keyed.key (f r) = Keyed.key r)
    (hf : ∀ r, (f r).email = r.email) : AllNormal env (t.update p f) := by
  intro s hs
  rcases (mem_update hkey).mp hs with ⟨r, hr, _, rfl⟩ | ⟨hs, _⟩
  · rw [hf r]
    exact ht r hr
  · exact ht s hs

theorem eval_allNormal {env env' : Env} {now : Time} {pick : Nat} {db : DB} {s : Sql} {v : s.Val}
    {ws : List Write} (h : s.eval env' now pick db = .ok (v, ws)) (hs : WritesNormal env s)
    (hdb : AllNormal env db.users) : AllNormal env (db.applyAll ws).users := by
  have hchange := eval_users h
  generalize (db.applyAll ws).users = t at hchange
  cases hchange with
  | same => exact hdb
  | inserted r hins _ =>
      refine allNormal_put hdb ?_
      cases s with
      | createUserWithMobile id mobile =>
          cases hins
          intro email h
          cases h
      | createUserWithEmail | createSignupUser | upsertDemoUserByEmail | upsertDemoUserByMobile =>
          cases hins
          exact hs
      | _ => cases hins
  | loggedIn id => exact allNormal_update hdb (key_loggedIn now) fun _ => rfl
  | reissued email hash name => exact allNormal_update hdb (key_reissued now hash name) fun _ => rfl
  | verified id at_ => exact allNormal_update hdb (key_activated now at_) fun _ => rfl
  | reseeded id email mobile hash name hstmt r hr _ =>
      have hwritten : writtenEmail s = email := by rcases hstmt with rfl | rfl <;> rfl
      refine allNormal_put hdb ?_
      intro e he
      -- the seeded address wins over the stored one
      cases email with
      | some seeded => exact hs e (hwritten.trans he)
      | none => exact hdb r hr e he
  | purged before => exact fun r hr => hdb r (mem_delete.mp hr).1

/-! ## Store calls -/

theorem writesNormal_of_none {s : Sql} (h : writtenEmail s = none) : WritesNormal env s := by
  intro email hemail
  rw [h] at hemail
  cases hemail

theorem writtenEmail_of_frame {s : Sql} (h : TableName.users ∉ s.writes) :
    writtenEmail s = none := by
  cases s <;> first | rfl | simp [Sql.writes] at h

/-- The address a store call writes an account under. -/
def opEmail : Store.Op → Option String
  | .createByEmail email => some email
  | .createSignupUser user _ _ _ => some user.email
  | .upsertDemoUser email _ _ _ => some email
  | _ => none

theorem body_writesNormal {o : Store.Op} (h : ∀ email, opEmail o = some email → Normal env email)
    (now : Time) (id : Uuid) : (o.body now id).Uses (WritesNormal env) := by
  refine uses_mono (fun s hs => ?_) (Store.body_users now id o)
  by_cases hwrites : TableName.users ∈ s.writes
  · cases hs hwrites with
    | createByEmail | createSignupUser | seedByEmail => exact h
    | _ => exact writesNormal_of_none rfl
  · exact writesNormal_of_none (writtenEmail_of_frame hwrites)

theorem exec_allNormal {env env' : Env} {o : Store.Op} {now : Time} {id : Uuid}
    {pick : Nat} {db : DB} (h : ∀ email, opEmail o = some email → Normal env email)
    (hdb : AllNormal env db.users) :
    AllNormal env (o.exec env' now id pick db).2.users := by
  have hrel : AllNormal env db.users → AllNormal env (o.exec env' now id pick db).2.users := by
    refine Store.exec_rel (R := fun db db' => AllNormal env db.users → AllNormal env db'.users)
      (fun _ h => h) (fun _ _ _ h₁ h₂ h => h₂ (h₁ h)) ?_ (body_writesNormal h now id) pick db
    intro s pick db v ws hs heval hdb
    exact eval_allNormal heval hs hdb
  exact hrel hdb

/-! ## Runs -/

/-- The address of a requested account is normalised, if `VerifyOTP` was given a normalised one. -/
theorem asks_normal {cfg : Config} {call : Call} {o : Store.Op} (henv : cfg.env.LawfulLower)
    (hcall : ∀ identifier channel code, call = .verifyOTP identifier channel code →
      trimSpace channel = channelEmail → cfg.env.normalizeEmail identifier = trimSpace identifier)
    (h : Asks cfg call o) : ∀ email, opEmail o = some email → Normal cfg.env email := by
  intro email hemail
  cases o with
  | createByEmail email' =>
      cases hemail
      obtain ⟨identifier, channel, code, hverify, hchannel, rfl⟩ := h
      have hnormal := hcall identifier channel code hverify hchannel
      calc cfg.env.normalizeEmail (trimSpace identifier)
          = cfg.env.normalizeEmail identifier := by simp [Env.normalizeEmail]
        _ = trimSpace identifier := hnormal
  | createSignupUser user org invite t =>
      cases hemail
      obtain ⟨⟨raw, _, _, _, _, _, _, hraw⟩, _⟩ := h
      rw [hraw]
      exact Env.normalizeEmail_normalizeEmail henv raw
  | upsertDemoUser email' mobile hash name =>
      cases hemail
      obtain ⟨u, _, rfl⟩ := h
      exact Env.normalizeEmail_normalizeEmail henv u.email
  | _ => cases hemail

/-- Stored addresses are normalised and no two accounts share a mailbox. -/
def OnePerMailbox (env : Env) (db : DB) : Prop :=
  (∀ r ∈ db.users, ∀ email, r.email = some email → env.normalizeEmail email = email) ∧
    ∀ r ∈ db.users, ∀ s ∈ db.users, ∀ e f, r.email = some e → s.email = some f →
      env.normalizeEmail e = env.normalizeEmail f → r = s

theorem onePerMailbox_of_normal {db : DB} (hdb : db.Integrity) (h : AllNormal env db.users) :
    OnePerMailbox env db := by
  refine ⟨h, ?_⟩
  intro r hr s hs e f hre hsf hef
  have he : env.normalizeEmail e = e := h r hr e hre
  have hf : env.normalizeEmail f = f := h s hs f hsf
  have hsame : e = f := by rw [← he, hef, hf]
  exact hdb.email r hr s hs e hre (hsame ▸ hsf)

/-- One account per mailbox, after every interleaving of calls from an empty database in which the
email identifiers handed to `VerifyOTP` are normalised up to surrounding space.  Of the rune table
only `LawfulLower` is used: a normalised address is its own normal form. -/
theorem mailbox_unique (cfg : Config) (henv : cfg.env.LawfulLower) (calls : List Call) {w : World}
    (hdb : w.db = DB.empty) (hnow : w.now ≠ 0)
    (hcalls : ∀ identifier channel code, .verifyOTP identifier channel code ∈ calls →
      trimSpace channel = channelEmail → cfg.env.normalizeEmail identifier = trimSpace identifier)
    (sched : Schedule) : OnePerMailbox cfg.env (runOn cfg (serve cfg w calls) sched).world.db := by
  have hintegrity : (runOn cfg (serve cfg w calls) sched).world.db.Integrity :=
    serve_integrity cfg calls (by rw [hdb]; exact DB.integrity_empty) sched
  have hempty : AllNormal cfg.env w.db.users := by
    rw [hdb]
    exact fun r hr => absurd hr (not_mem_empty r)
  have hrun := serve_keeps cfg calls (fun _ _ _ => True)
    (fun db => AllNormal cfg.env db.users) ?_ hnow hempty sched (Pool.along_true sched _)
  · exact onePerMailbox_of_normal hintegrity hrun.1
  · intro p i c call o _ hi _ hasks hI now _ id pick
    refine exec_allNormal (asks_normal henv ?_ hasks) hI
    intro identifier channel code hverify
    exact hcalls identifier channel code (hverify ▸ List.mem_of_getElem? hi)

/-! ## ASCII -/

theorem toLower_cases (c : Char) :
    c.toLower = c ∨ 65 ≤ c.toNat ∧ c.toNat ≤ 90 ∧ c.toLower.toNat = c.toNat + 32 := by
  unfold Char.toLower
  split
  · rename_i h
    have hlo : 65 ≤ c.toNat := h.1
    have hhi : c.toNat ≤ 90 := h.2
    refine .inr ⟨hlo, hhi, ?_⟩
    show (c.val + 32).toNat = c.toNat + 32
    have hc : c.val.toNat = c.toNat := rfl
    have h32 : (32 : UInt32).toNat = 32 := rfl
    rw [UInt32.toNat_add, hc, h32]
    omega
  · exact .inl rfl

theorem isSpace_of_letter {c : Char} (hlo : 65 ≤ c.toNat) (hhi : c.toNat ≤ 122) :
    isSpace c = false := by
  simp only [isSpace, Bool.or_eq_false_iff, Bool.and_eq_false_iff, decide_eq_false_iff_not,
    beq_eq_false_iff_ne]
  omega

/-- ASCII case folding meets the assumption about lower-casing. -/
theorem toyEnv_lawful : toyEnv.LawfulLower where
  lower := by
    intro c
    show c.toLower.toLower = c.toLower
    rcases toLower_cases c with h | ⟨hlo, hhi, h⟩
    · rw [h, h]
    · rcases toLower_cases c.toLower with h' | ⟨hlo', hhi', _⟩
      · exact h'
      · omega
  space := by
    intro c
    show isSpace c.toLower = isSpace c
    rcases toLower_cases c with h | ⟨hlo, hhi, h⟩
    · rw [h]
    · rw [isSpace_of_letter hlo (by omega), isSpace_of_letter (by omega) (by omega)]

/-! ## Two runs -/

/-- The steps of `turns` with every feature switched on. -/
def enabled (sched : Schedule) : Schedule :=
  sched.map fun t => (t.1, { t.2 with flag := true })

/-- A one-time code is requested and used, and then the mailbox is registered. -/
def otpThenRegister (identifier : String) : World :=
  (runOn toyConfig (serve toyConfig toyWorld
    [.requestOTP identifier "email" "", .verifyOTP identifier "email" "123456",
      .registerWithEmail "ann@example.com" "secret" "Ann" "" "" ""])
    (enabled (turns 0 1000 100 12 ++ turns 1 1000 200 12 ++ turns 2 1000 300 12))).world

theorem mailbox_unique_lowercase :
    toyEnv.LawfulLower ∧ toyEnv.normalizeEmail "ann@example.com" = trimSpace "ann@example.com" ∧
      OnePerMailbox toyConfig.env (otpThenRegister "ann@example.com").db := by
  have hnormal : toyEnv.normalizeEmail "ann@example.com" =
    trimSpace "ann@example.com" := by decide +kernel
  refine ⟨toyEnv_lawful, hnormal, ?_⟩
  unfold otpThenRegister
  refine mailbox_unique toyConfig toyEnv_lawful _ rfl (by decide) ?_ _
  intro identifier channel code hmem _
  have hcall : identifier = "ann@example.com" := by
    simp at hmem
    exact hmem.1
  rw [hcall]
  exact hnormal

set_option maxRecDepth 10000 in
/-- The capitalised identifier is stored as it is, next to the registered spelling of the mailbox.
-/
theorem mailbox_twice :
    ∃ r ∈ (otpThenRegister "Ann@example.com").db.users,
      ∃ s ∈ (otpThenRegister "Ann@example.com").db.users, r.id ≠ s.id ∧
      r.email = some "Ann@example.com" ∧ s.email = some "ann@example.com" ∧
        toyEnv.normalizeEmail "Ann@example.com" = "ann@example.com" ∧
        toyEnv.normalizeEmail "ann@example.com" = "ann@example.com" := by
  decide +kernel

end Mailbox
end Service
end OrbitAuth
