import OrbitAuth.Postgres.Commits
import OrbitAuth.Service.Requests

/-!
# Enumeration — registration does not tell whether an address has an account

Run alone, with a clock that stands at one reading and no dependency failing, a registration ends as
`verdict` says.  The verdict looks at the deployment, the arguments, the clock and the invitations;
it does not look at the accounts, so two databases that differ in what they hold about the address
give the same answer.

* `Gives` — how a use case ends from a given database, with its proof rules;
* `exec_createSignupUser_ok`, `exec_reissue_ok` — the two submitting calls never fail on their own;
* `perform_registerWithEmail` — a registration ends with its verdict;
* `registration_indistinguishable` — the two-run property.
-/

namespace OrbitAuth
namespace Service
namespace Enumeration

open Domain Foundations Postgres

/-! ## Runs without failures -/

/-- No row that a registration could collide with has this identifier. -/
def Unused (db : DB) (id : Uuid) : Prop :=
  (∀ r ∈ db.users, r.id ≠ id) ∧ (∀ o ∈ db.orgs, o.id ≠ id) ∧ ∀ c ∈ db.challenges, c.id ≠ id

/-- The clock reads `t`, nothing fails and the identifier drawn is new. -/
def Cooperates (t : Time) (db₀ : DB) (c : Choice) : Prop :=
  c.now = t ∧ c.fails = false ∧ Unused db₀ c.id

section Gives

variable {α β : Type} {env : Env} {t : Time} {db₀ db : DB}
variable {Q : Except Err β → DB → Prop}

/-- Started at `t` at the latest with the database `db`, `p` ends with a result and a database that
meet `Q`. -/
def Gives (env : Env) (t : Time) (db₀ : DB) (p : Action α) (db : DB)
    (Q : Except Err α → DB → Prop) :
    Prop :=
  ∀ w : World, w.now ≤ t → w.db = db →
    p.Surely (exec env) (Cooperates t db₀) (fun res w' => w'.now ≤ t ∧ Q res w'.db) w

theorem gives_done {a : α} {Q : Except Err α → DB → Prop} (h : Q (.ok a) db) :
    Gives env t db₀ (.done a) db Q := by
  intro w hw hdb
  exact .done ⟨hw, hdb ▸ h⟩

theorem gives_fail {e : Err} {Q : Except Err α → DB → Prop} (h : Q (.error e) db) :
    Gives env t db₀ (.fail e) db Q := by
  intro w hw hdb
  exact .fail ⟨hw, hdb ▸ h⟩

theorem gives_bind {p : Action α} {f : α → Action β} {M : Except Err α → DB → Prop}
    (hp : Gives env t db₀ p db M) (hf : ∀ a db', M (.ok a) db' → Gives env t db₀ (f a) db' Q)
    (herr : ∀ e db', M (.error e) db' → Q (.error e) db') : Gives env t db₀ (p >>= f) db Q := by
  intro w hw hdb
  refine Program.surely_bind (hp w hw hdb) ?_ ?_
  · intro a w' hM
    exact hf a w'.db hM.2 w' hM.1 rfl
  · intro e w' hM
    exact ⟨hM.1, herr e w'.db hM.2⟩

/-- Sequencing after a part that returns a value. -/
theorem gives_bind_ok {p : Action α} {f : α → Action β} {M : α → DB → Prop}
    (hp : Gives env t db₀ p db fun res db' => ∃ a, res = .ok a ∧ M a db')
    (hf : ∀ a db', M a db' → Gives env t db₀ (f a) db' Q) : Gives env t db₀ (p >>= f) db Q := by
  refine gives_bind hp ?_ ?_
  · rintro a db' ⟨a', ha, hM⟩
    cases ha
    exact hf a db' hM
  · rintro e db' ⟨a, ha, _⟩
    cases ha

theorem gives_failIf {c : Bool} {e : Err} {f : Unit → Action β}
    (hfail : c = true → Q (.error e) db) (hf : c = false → Gives env t db₀ (f ()) db Q) :
    Gives env t db₀ (failIf c e >>= f) db Q := by
  cases c with
  | true => exact gives_fail (hfail rfl)
  | false => exact hf rfl

/-- One operation at the instant `t`. -/
theorem gives_call {o : Port} {k : o.Ans → Action α} {Q : Except Err α → DB → Prop}
    (h : ∀ c : Choice, Cooperates t db₀ c → ∀ w : World, w.now = t → w.db = db →
      (answer env o c w).2.now ≤ t ∧
        Gives env t db₀ (k (answer env o c w).1) (answer env o c w).2.db Q) :
    Gives env t db₀ (.call o k) db Q := by
  intro w hw hdb
  refine .call fun c hc => ?_
  have hnow : (w.advance c.now).now = t := by
    rw [hc.1]
    exact max_eq_right hw
  obtain ⟨hlater, hrest⟩ := h c hc (w.advance c.now) hnow hdb
  exact hrest _ hlater rfl

theorem gives_now {f : Time → Action β} (h : Gives env t db₀ (f t) db Q) :
    Gives env t db₀ (now >>= f) db Q := by
  refine gives_call fun c _ w hnow hdb => ⟨hnow.le, ?_⟩
  have hreads : (answer env .now c w).1 = t := hnow
  rw [hreads]
  exact hdb ▸ h

theorem gives_newID {f : String → Action β}
    (h : ∀ u : Uuid, Unused db₀ u → Gives env t db₀ (f u.string) db Q) :
    Gives env t db₀ (newID >>= f) db Q := by
  refine gives_call fun c hc w hnow hdb => ⟨hnow.le, ?_⟩
  exact hdb ▸ h c.id hc.2.2

/-- The hasher and the code generator do not fail. -/
theorem gives_attempt {o : Port} {k : o.Ans → Action α} {Q : Except Err α → DB → Prop}
    (ho : ∀ c : Choice, c.fails = false → ∀ w, (answer env o c w).2 = w)
    (h : ∀ c : Choice, c.fails = false → ∀ w, Gives env t db₀ (k (answer env o c w).1) db Q) :
    Gives env t db₀ (.call o k) db Q := by
  refine gives_call fun c hc w hnow hdb => ?_
  rw [ho c hc.2.1 w]
  exact ⟨hnow.le, hdb ▸ h c hc.2.1 w⟩

theorem gives_hash {secret : String} {f : String → Action β} (h : ∀ s, Gives env t db₀ (f s) db Q) :
    Gives env t db₀ (hash secret >>= f) db Q := by
  refine gives_attempt (fun _ _ _ => rfl) fun c hc w => ?_
  have hok : (answer env (.hash secret) c w).1 = .ok (env.hash c.salt secret) := by
    simp [answer, attempt, hc]
  rw [hok]
  exact h _

theorem gives_newCode {f : String → Action β} (h : ∀ s, Gives env t db₀ (f s) db Q) :
    Gives env t db₀ (newCode >>= f) db Q := by
  refine gives_attempt (fun _ _ _ => rfl) fun c hc w => ?_
  have hok : (answer env .newCode c w).1 = .ok c.code := by simp [answer, attempt, hc]
  rw [hok]
  exact h _

theorem gives_send {n : Notification} {Q : Except Err Unit → DB → Prop} (h : Q (.ok ()) db) :
    Gives env t db₀ (send n) db Q := by
  refine gives_call fun c hc w hnow hdb => ?_
  have hsent : answer env (.send n) c w = (.ok (), { w with sent := w.sent ++ [n] }) := by
    simp [answer, execSend, attempt, hc.2.1]
  rw [hsent]
  exact ⟨hnow.le, gives_done (hdb ▸ h)⟩

/-- A store call runs as one step of the store. -/
theorem gives_storeCall {o : Store.Op} {k : Except Err o.Val → Action α}
    {Q : Except Err α → DB → Prop}
    (h : ∀ id pick, Gives env t db₀ (k (o.exec env t id pick db).1) (o.exec env t id pick db).2 Q) :
    Gives env t db₀ (.call (.store o) k) db Q := by
  refine gives_call fun c hc w hnow hdb => ?_
  have hruns : answer env (.store o) c w =
      ((o.exec env t c.id c.pick db).1, { w with db := (o.exec env t c.id c.pick db).2 }) := by
    simp [answer, execStore, hc.2.1, hnow, hdb]
  rw [hruns]
  exact ⟨hnow.le, h c.id c.pick⟩

theorem gives_ignore {o : Store.Op} {f : Unit → Action β}
    (h : ∀ id pick, Gives env t db₀ (f ()) (o.exec env t id pick db).2 Q) :
    Gives env t db₀ (ignore o >>= f) db Q :=
  gives_storeCall h

/-- A store call that succeeds. -/
theorem gives_passes {o : Store.Op} {p : Action o.Val} (hp : Passes o p) {f : o.Val → Action β}
    (h : ∀ id pick, ∃ v db', o.exec env t id pick db = (.ok v, db') ∧
      Gives env t db₀ (f v) db' Q) : Gives env t db₀ (p >>= f) db Q := by
  cases hp with
  | mk k hok _ =>
      refine gives_storeCall fun id pick => ?_
      obtain ⟨v, db', hexec, hrest⟩ := h id pick
      rw [hexec]
      dsimp only
      rw [hok v]
      exact hrest

end Gives

/-! ## The use case -/

section Registration

variable {env : Env} {t : Time} {db₀ db : DB}

/-- A challenge that can be stored. -/
def Storable (db : DB) (ch : OTPChallenge) : Prop :=
  ∃ cid, Uuid.parse ch.id = some cid ∧ ch.expiresAt ≠ 0 ∧ ch.createdAt ≠ 0 ∧
    ∀ c ∈ db.challenges, c.id ≠ cid

theorem gives_buildOTPChallenge (identifier channel : String) (ht : t ≠ 0) :
    Gives env t db₀ (buildOTPChallenge identifier channel) db fun res db' =>
      ∃ p, res = .ok p ∧ Storable db₀ p.1 ∧ db' = db := by
  refine gives_newCode fun code => ?_
  refine gives_hash fun codeHash => ?_
  refine gives_now ?_
  refine gives_newID fun u hu => gives_done ⟨_, rfl, ⟨u, Uuid.parse_string u, ?_, ht, hu.2.2⟩, rfl⟩
  exact Nat.ne_of_gt (Nat.lt_add_right _ (Nat.pos_of_ne_zero ht))

/-- A new account gets its code. -/
theorem gives_sendSignupCode (user : User) (locale : String) (ht : t ≠ 0)
    (hchallenges : ∀ c ∈ db.challenges, c ∈ db₀.challenges) :
    Gives env t db₀ (sendSignupCode user locale) db fun res _ => res = .ok () := by
  have hnew : Gives env t db₀ (newOTPChallenge user.email channelEmail) db fun res _ =>
      ∃ p, res = .ok p ∧ True := by
    refine gives_ignore fun id pick => ?_
    rw [Store.exec_deleteExpiredChallenges]
    refine gives_bind_ok (gives_buildOTPChallenge user.email channelEmail ht) ?_
    rintro ⟨ch, code⟩ db' ⟨⟨cid, hcid, hexpires, hcreated, hfree⟩, rfl⟩
    refine gives_passes (passes_store (.upsertChallenge ch)) fun id pick => ?_
    refine ⟨_, _, Store.exec_upsertChallenge_ok hcid hexpires hcreated ?_,
      gives_done ⟨_, rfl, trivial⟩⟩
    intro c hc
    exact hfree c (hchallenges c (mem_delete.mp hc).1)
  refine gives_bind_ok hnew ?_
  rintro ⟨ch, code⟩ db' _
  exact gives_send rfl

/-- The retry without an invitation. -/
theorem gives_reissueSignup (user : User) (locale : String) (ht : t ≠ 0) :
    Gives env t db (reissueSignup user locale t) db fun res _ => res = .ok () := by
  have hcooldown : Gives env t db (signupCooldownActive user.email t) db fun res db' =>
      ∃ b, res = .ok b ∧ db' = db := by
    refine gives_storeCall fun id pick => ?_
    rw [Store.exec_getLatestChallenge]
    dsimp only
    -- a lookup that finds nothing means that no cooldown is active
    cases Store.found _ with
    | error e => exact gives_done ⟨false, rfl, rfl⟩
    | ok ch => exact gives_done ⟨_, rfl, rfl⟩
  refine gives_bind_ok hcooldown ?_
  rintro cooldown db' rfl
  -- during the cooldown the sign-up is updated without a new code
  cases cooldown with
  | true =>
      refine gives_passes (passes_store (.reissuePendingSignup user none none t)) fun id pick => ?_
      obtain ⟨v, db', hexec⟩ := Store.exec_reissue_ok env t id pick user none none t
        (fun _ h => by cases h) fun _ h => by cases h
      exact ⟨v, db', hexec, gives_done rfl⟩
  | false =>
      refine gives_bind_ok (gives_buildOTPChallenge user.email channelEmail ht) ?_
      rintro ⟨ch, code⟩ db' ⟨hstorable, rfl⟩
      refine gives_passes (passes_store (.reissuePendingSignup user (some ch) none t))
        fun id pick => ?_
      obtain ⟨⟨userID, reissued⟩, db', hexec⟩ := Store.exec_reissue_ok env t id pick user (some ch)
        none t (fun c hc => Option.some.inj hc ▸ hstorable) fun _ h => by cases h
      refine ⟨_, db', hexec, ?_⟩
      cases reissued with
      | true => exact gives_send rfl
      | false => exact gives_done rfl

/-- The address has an account: with an invitation or without, the answer is success. -/
theorem gives_retryPendingSignup (user : User) (invite : Option Invite)
    (locale : String) (ht : t ≠ 0) (hinvite : ∀ i, invite = some i → Store.Usable db i) :
    Gives env t db (retryPendingSignup user invite locale t) db fun res _ => res = .ok () := by
  cases invite with
  | some invite =>
      refine gives_passes
        (passes_storeMapping _ _ (.reissuePendingSignup user none (some invite) t))
        fun id pick => ?_
      obtain ⟨v, db', hexec⟩ := Store.exec_reissue_ok env t id pick user none (some invite) t
        (fun _ h => by cases h) hinvite
      exact ⟨v, db', hexec, gives_done rfl⟩
  | none =>
      refine gives_storeCall fun id pick => ?_
      rw [Store.exec_findByEmail]
      dsimp only
      cases Store.found _ with
      | error e => exact gives_reissueSignup user locale ht
      | ok existing =>
          change Gives env t db (if _ then _ else _) db _
          split
          · exact gives_done rfl
          · exact gives_reissueSignup user locale ht

theorem gives_signupOrg (invite : Option Invite) (orgName : String) (ht : t ≠ 0) :
    Gives env t db₀ (signupOrg invite orgName t) db fun res db' => ∃ org, res = .ok org ∧
      (∀ o, org = some o → ∃ oid, Uuid.parse o.id = some oid ∧ o.createdAt ≠ 0 ∧ o.updatedAt ≠ 0 ∧
        ∀ x ∈ db₀.orgs, x.id ≠ oid) ∧ db' = db := by
  unfold signupOrg
  split
  · refine gives_done ⟨none, rfl, ?_, rfl⟩
    intro o ho
    cases ho
  · refine gives_newID fun u hu => gives_done ⟨_, rfl, ?_, rfl⟩
    intro o ho
    obtain rfl := Option.some.inj ho
    exact ⟨u, Uuid.parse_string u, ht, ht, hu.2.1⟩

/-- The account a registration submits. -/
def submitted (id email passwordHash displayName : String) (invite : Option Invite) : User where
  id := id
  email := email
  mobile := ""
  passwordHash := passwordHash
  displayName := displayName
  status := if invite.isSome then .active else .signupPending
  emailVerified := invite.isSome

/-- Behind its checks a registration succeeds, whatever account the address has. -/
theorem gives_submitSignup (email passwordHash displayName locale orgName : String)
    (invite : Option Invite) (ht : t ≠ 0) (hinvite : ∀ i, invite = some i → Store.Usable db i) :
    Gives env t db (submitSignup email passwordHash displayName locale orgName invite) db
      fun res _ => res = .ok () := by
  refine gives_now ?_
  refine gives_newID fun u hu => ?_
  refine gives_bind_ok (gives_signupOrg invite orgName ht) ?_
  rintro org db' ⟨horg, rfl⟩
  refine gives_passes (passes_storeMapping _ _ (.createSignupUser _ org invite t)) fun id pick => ?_
  obtain ⟨created, db'', hexec, hsame, hchallenges⟩ := Store.exec_createSignupUser_ok env t id pick
    (submitted u.string email passwordHash displayName invite) org invite t
      (Uuid.parse_string u) hu.1
    hinvite horg
  refine ⟨created, db'', hexec, ?_⟩
  cases created with
  | false =>
      rw [hsame rfl]
      exact gives_retryPendingSignup _ invite locale ht hinvite
  | true =>
      cases invite with
      | some invite => exact gives_done rfl
      | none => exact gives_sendSignupCode _ locale ht fun c hc => hchallenges ▸ hc

/-! ## The verdict -/

/-- What becomes of the invitation token of a registration. -/
def inviteVerdict (cfg : Config) (invites : Table InviteRow) (t : Time) (token email : String) :
    Except Err (Option Invite) :=
  if trimSpace token = "" then .ok none
  else match invites.rows.find? fun r => r.tokenHash =
    cfg.env.hashInviteToken (trimSpace token) with
    | none => .error .invalidInvite
    | some i =>
        if i.status ≠ .pending || i.expiresAt ≤ t || !equalFold cfg.env.foldRune i.email email then
          .error .invalidInvite
        else .ok (some i.invite)

/-- How a registration ends: no account is looked at. -/
def verdict (cfg : Config) (invites : Table InviteRow) (t : Time)
    (email password inviteToken : String) :
    Except Err Unit :=
  if !cfg.signupOpen then .error .signupDisabled
  else if !isEmail (cfg.env.normalizeEmail email) then .error .invalidEmail
  else if trimSpace password = "" then .error .passwordRequired
  else (inviteVerdict cfg invites t inviteToken (cfg.env.normalizeEmail email)).map fun _ => ()

theorem gives_signupInvite {cfg : Config} (token email : String) :
    Gives cfg.env t db₀ (signupInvite cfg token email) db fun res db' =>
      res = inviteVerdict cfg db.invites t token email ∧ db' = db := by
  unfold signupInvite inviteVerdict
  split
  · exact gives_done ⟨rfl, rfl⟩
  · refine gives_storeCall fun id pick => ?_
    rw [Store.exec_findInviteByTokenHash]
    dsimp only
    cases hfind : db.invites.rows.find? fun r =>
        r.tokenHash = cfg.env.hashInviteToken (trimSpace token) with
    | none => exact gives_fail ⟨rfl, rfl⟩
    | some i =>
        refine gives_now (gives_failIf ?_ ?_)
        · intro hbad
          refine ⟨?_, rfl⟩
          exact (if_pos hbad).symm
        · intro hgood
          refine gives_done ⟨?_, rfl⟩
          exact (if_neg (Bool.eq_false_iff.mp hgood)).symm

/-- An invitation that passes the checks is usable. -/
theorem usable_of_verdict {cfg : Config} (hdb : db.Integrity) {token email : String}
    {invite : Option Invite} (h : inviteVerdict cfg db.invites t token email = .ok invite) :
    ∀ i, invite = some i → Store.Usable db i := by
  rintro i rfl
  unfold inviteVerdict at h
  split at h
  · cases h
  · split at h
    · cases h
    · rename_i row hfind
      split at h
      · cases h
      · rename_i hgood
        obtain rfl := Option.some.inj (Except.ok.inj h)
        have hrow : row ∈ db.invites := List.mem_of_find?_eq_some hfind
        refine ⟨row, hrow, rfl, ?_, hdb.inviteOrg row hrow⟩
        by_contra hstatus
        exact hgood (by simp [hstatus])

/-- A registration ends with its verdict. -/
theorem gives_registerWithEmail {cfg : Config} (hdb : db.Integrity) (ht : t ≠ 0)
    (email password displayName locale orgName inviteToken : String) :
    Gives cfg.env t db (registerWithEmail cfg email password displayName locale orgName inviteToken)
      db
      fun res _ => res = verdict cfg db.invites t email password inviteToken := by
  refine gives_failIf (fun hclosed => by simp [verdict, hclosed]) fun hopen => ?_
  refine gives_failIf (fun hbad => by simp [verdict, hopen, hbad]) fun hemail => ?_
  refine gives_failIf (fun hblank => by simp [verdict, hopen, hemail, of_decide_eq_true hblank])
    fun hpassword => ?_
  have hverdict : verdict cfg db.invites t email password inviteToken =
      (inviteVerdict cfg db.invites t inviteToken (cfg.env.normalizeEmail email)).map
        fun _ => () := by
    simp [verdict, hopen, hemail, of_decide_eq_false hpassword]
  rw [hverdict]
  refine gives_bind (gives_signupInvite inviteToken _) ?_ ?_
  · rintro invite db' ⟨hinvite, rfl⟩
    rw [← hinvite]
    refine gives_hash fun passwordHash => ?_
    exact gives_submitSignup _ _ _ _ _ invite ht (usable_of_verdict hdb hinvite.symm)
  · rintro e db' ⟨he, _⟩
    rw [← he]
    rfl

end Registration

/-! ## Two runs -/

section Runs

variable (cfg : Config) (email password displayName locale orgName inviteToken : String)

/-- The result of a registration that nothing disturbs. -/
theorem perform_registerWithEmail {w : World} {t : Time} (hdb : w.db.Integrity) (ht : t ≠ 0)
    (hw : w.now ≤ t) {choices : Nat → Choice} (hchoices : ∀ n, Cooperates t w.db (choices n)) :
    ((Call.registerWithEmail email password displayName locale orgName inviteToken).perform cfg
        choices w).1 = (verdict cfg w.db.invites t email password inviteToken).map
          fun _ => .none := by
  have hgives : Gives cfg.env t w.db
      ((Call.registerWithEmail email password displayName locale orgName inviteToken).program cfg)
        w.db
      fun res _ => res = (verdict cfg w.db.invites t email password inviteToken).map
        fun _ => .none := by
    refine gives_bind (gives_registerWithEmail hdb ht email password displayName locale orgName
      inviteToken) ?_ ?_
    · intro _ db' h
      rw [← h]
      exact gives_done rfl
    · intro e db' h
      rw [← h]
      rfl
  exact (Program.surely_run (hgives w hw rfl) choices hchoices).2

/-- Two databases that hold the same invitations, whatever accounts they hold, answer a registration
alike at the same reading of the clock when no dependency fails. -/
theorem registration_indistinguishable {w₁ w₂ : World} {t : Time} (hdb₁ : w₁.db.Integrity)
    (hdb₂ : w₂.db.Integrity) (hinvites : w₁.db.invites = w₂.db.invites) (ht : t ≠ 0)
    (hw₁ : w₁.now ≤ t) (hw₂ : w₂.now ≤ t) {choices₁ choices₂ : Nat → Choice}
    (hchoices₁ : ∀ n, Cooperates t w₁.db (choices₁ n))
    (hchoices₂ : ∀ n, Cooperates t w₂.db (choices₂ n)) :
    ((Call.registerWithEmail email password displayName locale orgName inviteToken).perform cfg
        choices₁ w₁).1 =
      ((Call.registerWithEmail email password displayName locale orgName inviteToken).perform cfg
        choices₂ w₂).1 := by
  rw [perform_registerWithEmail cfg email password displayName locale orgName
      inviteToken hdb₁ ht hw₁ hchoices₁,
    perform_registerWithEmail cfg email password displayName locale orgName inviteToken hdb₂ ht hw₂
      hchoices₂, hinvites]

end Runs

/-- Somebody has registered Ann's address. -/
def squatted : World :=
  ((Call.registerWithEmail "ann@example.com" "squat" "Eve" "" "" "").perform toyConfig
    (fun n => { now := 1000, id := Uuid.ofNat (100 + n), code := "123456" }) toyWorld).2

/-- The environment of the second registration. -/
def calm : Nat → Choice :=
  fun _ => { now := 2000, id := Uuid.ofNat 900, code := "654321" }

instance (db : DB) (id : Uuid) : Decidable (Unused db id) :=
  inferInstanceAs (Decidable (_ ∧ _ ∧ _))

instance (t : Time) (db : DB) (c : Choice) : Decidable (Cooperates t db c) :=
  inferInstanceAs (Decidable (_ ∧ _ ∧ _))

/-- An unknown address and one with a pending account. -/
theorem registration_indistinguishable_squatted :
    (∀ r ∈ toyWorld.db.users, r.email ≠ some "ann@example.com") ∧
      (∃ r ∈ squatted.db.users, r.email = some "ann@example.com" ∧ r.status = .signupPending) ∧
      ((Call.registerWithEmail "ann@example.com" "secret" "Ann" "" "" "").perform toyConfig calm
          toyWorld).1 =
        ((Call.registerWithEmail "ann@example.com" "secret" "Ann" "" "" "").perform toyConfig calm
          squatted).1 := by
  have hdb : squatted.db.Integrity := perform_integrity toyConfig _ _ DB.integrity_empty
  have hfree₁ : Cooperates 2000 toyWorld.db (calm 0) := by decide +kernel
  obtain ⟨hpending, hrows, hfree₂, hnow⟩ :
      (∃ r ∈ squatted.db.users, r.email = some "ann@example.com" ∧ r.status = .signupPending) ∧
      toyWorld.db.invites.rows = squatted.db.invites.rows ∧
      Cooperates 2000 squatted.db (calm 0) ∧ squatted.now ≤ 2000 := by decide +kernel
  refine ⟨by decide, hpending, ?_⟩
  exact registration_indistinguishable toyConfig _ _ _ _ _ _ DB.integrity_empty hdb
    (Table.ext_rows hrows) (by decide) (by decide) hnow (fun _ => hfree₁) fun _ => hfree₂

end Enumeration
end Service
end OrbitAuth
