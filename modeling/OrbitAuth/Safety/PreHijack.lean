import OrbitAuth.Service.Steps

/-!
# PreHijack — whose password does an activated account carry?

`VerifySignup` compares the password on one read, consumes the code in a second step and activates
the row by id in a third.  A registration that replaces the credentials of the still pending row
between the first and the third step wins: the owner's code activates somebody else's password.

* `Undisturbed` is the condition on a step: no registration replaces the credentials of an address
  while a verification of that address is past its comparison, unless the new password is the one
  that verification was given.
* `activated_password_exact` shows that every interleaving of undisturbed steps is safe;
* `preHijack_race` is an interleaving of three calls that is not.

The proof is by rely and guarantee.  What a verification relies on after its comparison is
`Secured`: the row it is about to activate exists and, while it is unverified, carries a hash of
its password.
-/

namespace OrbitAuth
namespace Service
namespace PreHijack

open Domain Foundations Postgres

variable {env : Env} {s : Sql} {o : Port}

/-! ## Hashes and rows -/

/-- `passwordHash` verifies `password` and nothing else. -/
def VerifiesExactly (env : Env) (passwordHash password : String) : Prop :=
  ∀ t, env.compare passwordHash t = true ↔ t = password

/-- Every stored password hash is the hash of some password. -/
def Hashed (env : Env) (users : Table UserRow) : Prop :=
  ∀ r ∈ users, ∀ h, r.passwordHash = some h → ∃ password, VerifiesExactly env h password

/-- The row `uid` exists and, while it is unverified, belongs to `email` and carries a hash of
`password`. -/
def Secured (env : Env) (email : String) (uid : Uuid) (password : String)
    (users : Table UserRow) : Prop :=
  ∃ r ∈ users, r.id = uid ∧ (r.unverified = true →
    r.email = some email ∧ ∃ h, r.passwordHash = some h ∧ env.compare h password = true)

theorem verifiesExactly_hash (hideal : env.IdealHasher) (salt : Nat) (password : String) :
    VerifiesExactly env (env.hash salt password) password := by
  intro t
  rw [hideal salt password t]
  exact eq_comm

/-! ## Statements -/

/-- The hash a statement writes is the hash of some password. -/
def HashArg (env : Env) : Sql → Prop
  | .createSignupUser _ _ h _ _ _ | .reissueSignupUser _ h _ | .upsertDemoUserByEmail _ _ _ h _
  | .upsertDemoUserByMobile _ _ _ h _ => ∃ password, VerifiesExactly env h password
  | _ => True

/-- The statement does not take `password` away from the pending account of `email`. -/
def Tame (env : Env) (email password : String) : Sql → Prop
  | .reissueSignupUser e h _ => e = email → env.compare h password = true
  | .purgeUnverifiedSignups _ => False
  | _ => True

theorem hashArg_of_frame (h : TableName.users ∉ s.writes) : HashArg env s := by
  cases s <;> first | exact trivial | simp [Sql.writes] at h

theorem tame_of_frame {email password : String} (h : TableName.users ∉ s.writes) :
    Tame env email password s := by
  cases s <;> first | exact trivial | simp [Sql.writes] at h

theorem hashed_insertedUser {now : Time} {r : UserRow} (harg : HashArg env s)
    (hr : s.insertedUser now = some r) :
    ∀ h, r.passwordHash = some h → ∃ password, VerifiesExactly env h password := by
  intro h hh
  cases s <;> simp only [Sql.insertedUser, Option.some.injEq, reduceCtorEq] at hr <;>
    subst hr <;> simp only [newUser, Option.some.injEq, reduceCtorEq] at hh <;>
    subst hh <;> exact harg

theorem hashed_change {now : Time} {t t' : Table UserRow} (hchange : UserChange now t s t')
    (harg : HashArg env s) (ht : Hashed env t) : Hashed env t' := by
  intro r hr h hh
  cases hchange with
  | same => exact ht r hr h hh
  -- an inserted row has the hash that the statement carries
  | inserted r' hs _ =>
      rcases mem_put.1 hr with rfl | ⟨hr, _⟩
      · exact hashed_insertedUser harg hs h hh
      · exact ht r hr h hh
  | loggedIn id =>
      rcases (mem_update (key_loggedIn now)).1 hr with ⟨r', hr', _, rfl⟩ | ⟨hr, _⟩
      · exact ht r' hr' h hh
      · exact ht r hr h hh
  | reissued email hash name =>
      rcases (mem_update (key_reissued now hash name)).1 hr with ⟨r', _, _, rfl⟩ | ⟨hr, _⟩
      · have : hash = h := by simpa [UserRow.reissued] using hh
        exact this ▸ harg
      · exact ht r hr h hh
  | verified id verifiedAt =>
      rcases (mem_update (key_activated now verifiedAt)).1 hr with ⟨r', hr', _, rfl⟩ | ⟨hr, _⟩
      · exact ht r' hr' h hh
      · exact ht r hr h hh
  | reseeded id email mobile hash name hs r' _ _ =>
      rcases mem_put.1 hr with rfl | ⟨hr, _⟩
      · have : hash = h := by simpa [UserRow.reseeded] using hh
        subst this
        rcases hs with rfl | rfl <;> exact harg
      · exact ht r hr h hh
  | purged before => exact ht r (mem_delete.1 hr).1 h hh

/-- A tame statement leaves a secured row secured. -/
theorem secured_change {now : Time} {t t' : Table UserRow} {email : String} {uid : Uuid}
    {password : String} (hchange : UserChange now t s t') (htame : Tame env email password s)
    (ht : Secured env email uid password t) : Secured env email uid password t' := by
  rcases ht with ⟨r, hr, hid, hsec⟩
  cases hchange with
  | same => exact ⟨r, hr, hid, hsec⟩
  | inserted r' _ hfree => exact ⟨r, mem_put.2 (.inr ⟨hr, (hfree r hr).1⟩), hid, hsec⟩
  | loggedIn id =>
      have hmem := update_mem (p := fun r => decide (r.id = id)) (key_loggedIn now) hr
      split at hmem
      · exact ⟨_, hmem, hid, hsec⟩
      · exact ⟨_, hmem, hid, hsec⟩
  | reissued email' hash name =>
      have hmem := update_mem (p := UserRow.unverifiedAt email') (key_reissued now hash name) hr
      split at hmem
      · -- the row is rewritten, so the statement was for its address
        rename_i hmatch
        have hm : r.email = some email' ∧ r.unverified = true := by
          simpa [UserRow.unverifiedAt] using hmatch
        refine ⟨_, hmem, hid, ?_⟩
        intro _
        have hemail := (hsec hm.2).1
        have heq : email' = email := Option.some.inj (hm.1.symm.trans hemail)
        exact ⟨hemail, hash, rfl, htame heq⟩
      · exact ⟨_, hmem, hid, hsec⟩
  | verified id verifiedAt =>
      have hmem := update_mem (p := UserRow.unverifiedWith id) (key_activated now verifiedAt) hr
      split at hmem
      · refine ⟨_, hmem, hid, ?_⟩
        intro hun
        simp [UserRow.activated, UserRow.unverified] at hun
      · exact ⟨_, hmem, hid, hsec⟩
  | reseeded id email' mobile hash name _ r' hr' _ =>
      by_cases hrr : r.id = r'.id
      · have heq : r = r' := eq_of_key hr hr' hrr
        subst heq
        refine ⟨_, mem_put.2 (.inl rfl), hid, ?_⟩
        intro hun
        simp [UserRow.reseeded, UserRow.unverified] at hun
      · exact ⟨r, mem_put.2 (.inr ⟨hr, hrr⟩), hid, hsec⟩
  | purged before => exact absurd htame id

/-! ## Operations -/

/-- The operations of registrations and verifications.  An account is only written with the hash of
some password. -/
def Regular (env : Env) : Port → Prop
  | .store (.createSignupUser user _ _ _) | .store (.reissuePendingSignup user _ _ _) =>
      ∃ password, VerifiesExactly env user.passwordHash password
  | .store (.verifySignup _ _) | .store (.consumeChallenge _) | .store (.storeRefresh _ _ _ _)
  | .store (.upsertChallenge _) | .store (.getLatestChallenge _ _) => True
  | .store o => plainStore o = true
  | _ => True

/-- The operation does not replace `password` as the credential of `email`. -/
def Spares (env : Env) (email password : String) : Port → Prop
  | .store (.reissuePendingSignup user _ _ _) =>
      user.email = email → env.compare user.passwordHash password = true
  | _ => True

/-- What a statement of an operation `o` is allowed to be. -/
def Within (env : Env) (o : Port) (s : Sql) : Prop :=
  HashArg env s ∧ ∀ email password, Spares env email password o → Tame env email password s

theorem within_of_frame (h : TableName.users ∉ s.writes) : Within env o s :=
  ⟨hashArg_of_frame h, fun _ _ _ => tame_of_frame h⟩

/-- A regular store call sends only statements that are within it. -/
theorem uses_regular {o : Store.Op} (h : Regular env (.store o)) (now : Time) (id : Uuid) :
    (o.body now id).Uses (Within env (.store o)) := by
  have hframe : ∀ s : Sql, TableName.users ∉ s.writes → Within env (.store o) s :=
    fun _ => within_of_frame
  have hverify : ∀ u t, Within env (.store o) (.verifySignupUser u t) :=
    fun _ _ => ⟨trivial, fun _ _ _ => trivial⟩
  have hplain : TableName.users ∉ o.writes → (o.body now id).Uses (Within env (.store o)) :=
    fun hn => uses_mono (fun s hs => hframe s fun hmem => hn (hs hmem))
      (Store.body_writes now id o)
  cases o with
  | createSignupUser user org invite t =>
      refine Store.uses_createSignupUser (fun _ => ⟨h, fun _ _ _ => trivial⟩) ?_ ?_ ?_ ?_ ?_ ?_
        <;> intros <;> exact hframe _ (by simp [Sql.writes])
  | reissuePendingSignup user challenge invite t =>
      refine Store.uses_reissuePendingSignup ⟨h, fun _ _ hspares => hspares⟩ ?_ ?_
        (fun u => hverify u _) ?_ ?_ ?_ ?_ <;> intros <;> exact hframe _ (by simp [Sql.writes])
  | verifySignup userID t =>
      refine uses_bind (Store.uses_parseID _ _) fun _ => ?_
      exact uses_bind (Store.uses_stmt (hverify _ _)) fun _ => Store.uses_failIf _ _
  | consumeChallenge | upsertChallenge | getLatestChallenge | storeRefresh =>
      exact hplain (by simp [Store.Op.writes])
  | _ => exact hplain (plainStore_writes h (by simp))

/-- What a step of `o` leaves in place: stored hashes are hashes, and every secured row that `o`
spares is secured. -/
structure Keeps (env : Env) (o : Port) (db db' : DB) : Prop where
  hashed : Hashed env db.users → Hashed env db'.users
  secured : ∀ email uid password, Spares env email password o →
    Secured env email uid password db.users → Secured env email uid password db'.users

theorem keeps_refl (env : Env) (o : Port) (db : DB) : Keeps env o db db :=
  ⟨fun h => h, fun _ _ _ _ h => h⟩

theorem exec_keeps (h : Regular env o) (c : Choice) (w : World) :
    Keeps env o w.db (exec env o c w).2.db := by
  refine exec_db_rel (R := Keeps env o) (keeps_refl env o) ?_ c
  rintro o' rfl now id pick
  refine Store.exec_rel (R := Keeps env (.store o')) (keeps_refl env _) ?_ ?_
    (uses_regular h now id) pick w.db
  · intro db₁ db₂ db₃ h₁ h₂
    refine ⟨fun h => h₂.hashed (h₁.hashed h), ?_⟩
    intro email uid password hsp hsec
    exact h₂.secured _ _ _ hsp (h₁.secured _ _ _ hsp hsec)
  · intro s pick db v ws hs heval
    have hchange := eval_users heval
    refine ⟨hashed_change hchange hs.1, ?_⟩
    intro email uid password hsp hsec
    exact secured_change hchange (hs.2 _ _ hsp) hsec

/-! ## Threads -/

section Threads

variable (cfg : Config) (calls : List Call)

/-- The account is activated between `w` and `w'`, with a hash of exactly `password`. -/
def Activates (env : Env) (userID password : String) (w w' : World) : Prop :=
  ∃ r ∈ w.db.users, ∃ r' ∈ w'.db.users, Uuid.parse userID = some r.id ∧ r'.id = r.id ∧
    r.status = .signupPending ∧ r'.status = .active ∧
    ∃ h, r'.passwordHash = some h ∧ VerifiesExactly env h password

/-- A verification that is about to make one of these calls has compared its password. -/
def Armed : Port → Prop
  | .store (.consumeChallenge _) | .store (.verifySignup _ _) => True
  | _ => False

def Inv (w : World) : Prop :=
  Hashed cfg.env w.db.users

/-- What thread `i` relies on while it waits for `o`: a verification past its comparison relies on
its row staying secured. -/
def Rely (i : Nat) (o : Port) (w w' : World) : Prop :=
  ∀ email code password, calls[i]? = some (.verifySignup email code password) → Armed o →
    ∀ uid, Secured cfg.env (cfg.env.normalizeEmail email) uid password w.db.users →
      Secured cfg.env (cfg.env.normalizeEmail email) uid password w'.db.users

/-- What thread `i` guarantees with a call. -/
structure Good (i : Nat) (o : Port) (w : World) (ans : o.Ans) (w' : World) : Prop where
  keeps : Keeps cfg.env o w.db w'.db
  activates : ∀ email code password userID t,
    calls[i]? = some (.verifySignup email code password) →
    (⟨o, ans⟩ : Answered ports) = ⟨.store (.verifySignup userID t), .ok ()⟩ →
    Activates cfg.env userID password w w'

/-- Every regular operation but the activation. -/
def Quiet (o : Port) : Prop :=
  Regular cfg.env o ∧ ∀ userID t, o ≠ .store (.verifySignup userID t)

variable {cfg calls}

/-- A quiet operation is good in every thread. -/
theorem step_quiet (i : Nat) (ho : Quiet cfg o) (w : World) (hinv : Inv cfg w) (c : Choice) :
    Inv cfg (exec cfg.env o c w).2 ∧
      Good cfg calls i o w (exec cfg.env o c w).1 (exec cfg.env o c w).2 := by
  have hkeeps := exec_keeps ho.1 c w
  refine ⟨hkeeps.hashed hinv, hkeeps, ?_⟩
  intro email code password userID t _ heq
  exact absurd (congrArg Answered.op heq) (ho.2 userID t)

theorem quiet_of_plain (h : o.plain = true) : Quiet cfg o := by
  cases o with
  | store o =>
      refine ⟨?_, ?_⟩
      · cases o <;> first | exact h | simp [Port.plain, plainStore] at h
      · rintro userID t heq
        cases heq
        simp [Port.plain, plainStore] at h
  | _ => exact ⟨trivial, fun _ _ heq => by cases heq⟩

theorem safe_quiet (i : Nat) {α : Type} {p : Action α} (hp : p.Uses (Quiet cfg))
    (w : World) :
    p.Safe (exec cfg.env) (Inv cfg) (Rely cfg calls i) (Good cfg calls i) (fun _ _ => True) w :=
  Program.safe_of_uses (fun _ ho w hinv c => step_quiet i ho w hinv c) hp w

theorem quiet_account {user : User} {password : String}
    (h : VerifiesExactly cfg.env user.passwordHash password) (org : Option Organization)
    (challenge : Option OTPChallenge) (invite : Option Invite) (t : Time) :
    Quiet cfg (.store (.createSignupUser user org invite t)) ∧
      Quiet cfg (.store (.reissuePendingSignup user challenge invite t)) :=
  ⟨⟨⟨password, h⟩, fun _ _ heq => by cases heq⟩, ⟨⟨password, h⟩, fun _ _ heq => by cases heq⟩⟩

/-- A registration is good in every thread: the only hash it writes is that of its password. -/
theorem register_safe (hideal : cfg.env.IdealHasher) (i : Nat)
    (email password displayName locale orgName inviteToken : String) (w : World) :
    (registerWithEmail cfg email password displayName locale orgName inviteToken).Safe
      (exec cfg.env) (Inv cfg) (Rely cfg calls i) (Good cfg calls i) (fun _ _ => True) w := by
  refine safe_bind (safe_quiet i (uses_failIf _ _) w) fun _ w _ => ?_
  refine safe_bind (safe_quiet i (uses_failIf _ _) w) fun _ w _ => ?_
  refine safe_bind (safe_quiet i (uses_failIf _ _) w) fun _ w _ => ?_
  refine safe_bind
    (safe_quiet i (uses_signupInvite (fun _ => quiet_of_plain) _ _) w) fun invite w _ => ?_
  have hhash : (hash password).Safe (exec cfg.env) (Inv cfg) (Rely cfg calls i)
      (Good cfg calls i) (fun h _ => VerifiesExactly cfg.env h password) w :=
    safe_hash (fun w hinv _ c => step_quiet i (quiet_of_plain rfl) w hinv c)
      fun salt _ => verifiesExactly_hash hideal salt password
  refine safe_bind hhash fun passwordHash w hexact => ?_
  refine safe_quiet i (uses_submitSignup (fun _ => quiet_of_plain)
    (fun _ => ⟨trivial, fun _ _ heq => by cases heq⟩) ⟨trivial, fun _ _ heq => by cases heq⟩
    ?_ ?_) w
  · intro user org t _ hh
    exact (quiet_account (hh ▸ hexact) org none invite t).1
  · intro user ch t _ hh
    exact (quiet_account (hh ▸ hexact) none ch invite t).2

/-- The comparison of a verification: the account it returns is secured. -/
theorem matchSignup_safe (i : Nat) (ch : OTPChallenge) (email password : String) (w : World) :
    (matchSignup cfg ch email password).Safe (exec cfg.env) (Inv cfg) (Rely cfg calls i)
      (Good cfg calls i)
      (fun user w => ∃ uid : Uuid, user.id = uid.string ∧
        Secured cfg.env email uid password w.db.users) w := by
  -- a rejection counts an attempt, which concerns no account
  have hreject : ∀ w, (rejectSignup ch).Safe (exec cfg.env) (Inv cfg) (Rely cfg calls i)
      (Good cfg calls i)
      (fun user w => ∃ uid : Uuid, user.id = uid.string ∧
        Secured cfg.env email uid password w.db.users) w := by
    intro w
    refine safe_bind (safe_quiet i (uses_ignore (quiet_of_plain rfl)) w) fun _ w _ => ?_
    exact .fail
  refine .call (fun w hinv _ c => step_quiet i (quiet_of_plain rfl) w hinv c) ?_
  intro w' _ _ c
  cases hres : (exec cfg.env (.store (.findByEmail email)) c w').1 with
  | error e => exact hreject _
  | ok user =>
      dsimp only [Program.bind]
      split
      · exact hreject _
      · rename_i hcheck
        rcases exec_store_ok hres with ⟨hanswer, hdb⟩
        rcases Store.exec_findByEmail_ok hanswer with ⟨r, hr, hemail, rfl⟩
        have hr' : r ∈ (exec cfg.env (.store (.findByEmail email)) c w').2.db.users := by
          rw [hdb, Store.exec_findByEmail]
          exact hr
        refine .done ⟨r.id, rfl, r, hr', rfl, ?_⟩
        intro _
        refine ⟨hemail, ?_⟩
        -- the check includes that a password is set and that it is this one
        have hpw : r.passwordHash.getD "" ≠ "" ∧
            cfg.env.compare (r.passwordHash.getD "") password = true := by
          simp only [Bool.or_eq_true, not_or, UserRow.user, Bool.not_eq_true',
            Bool.not_eq_false] at hcheck
          exact ⟨fun hempty => hcheck.1.2 (decide_eq_true hempty), hcheck.2⟩
        cases hh : r.passwordHash with
        | none => simp [hh] at hpw
        | some h => exact ⟨h, rfl, by simpa [hh] using hpw.2⟩

/-- The activation: a row that is secured is activated with a hash of exactly that password. -/
theorem activation_step {i : Nat} {email code password : String} {uid : Uuid} {t : Time}
    (hi : calls[i]? = some (.verifySignup email code password)) {w : World} (hinv : Inv cfg w)
    (hsec : Secured cfg.env (cfg.env.normalizeEmail email) uid password w.db.users) (c : Choice) :
    Inv cfg (exec cfg.env (.store (.verifySignup uid.string t)) c w).2 ∧
      Good cfg calls i (.store (.verifySignup uid.string t)) w
        (exec cfg.env (.store (.verifySignup uid.string t)) c w).1
        (exec cfg.env (.store (.verifySignup uid.string t)) c w).2 := by
  have hkeeps : Keeps cfg.env (.store (.verifySignup uid.string t)) w.db
      (exec cfg.env (.store (.verifySignup uid.string t)) c w).2.db :=
    exec_keeps (o := .store (.verifySignup uid.string t)) trivial c w
  refine ⟨hkeeps.hashed hinv, hkeeps, ?_⟩
  intro email' code' password' userID t' hi' heq
  have hcall : Call.verifySignup email code password = .verifySignup email' code' password' :=
    Option.some.inj (hi.symm.trans hi')
  rcases Call.verifySignup.inj hcall with ⟨rfl, rfl, rfl⟩
  have hop : Port.store (.verifySignup uid.string t) = .store (.verifySignup userID t') :=
    congrArg Answered.op heq
  rcases Store.Op.verifySignup.inj (Port.store.inj hop) with ⟨rfl, rfl⟩
  have hok : (exec cfg.env (.store (.verifySignup uid.string t)) c w).1 = .ok () :=
    eq_of_heq (Answered.mk.inj heq).2
  rcases exec_store_ok hok with ⟨hanswer, hdb⟩
  rcases Store.exec_verifySignup_ok hanswer with ⟨r, hr, hid, hpending, hafter⟩
  rcases hsec with ⟨r₀, hr₀, hid₀, hrow⟩
  -- the row found by id is the secured one
  have hsame : r = r₀ := by
    refine eq_of_key hr hr₀ ?_
    have : some uid = some r.id := by simpa using hid
    exact (Option.some.inj this).symm.trans hid₀.symm
  subst hsame
  rcases hrow hpending with ⟨_, h, hh, hcompare⟩
  rcases hinv r hr h hh with ⟨s, hexact⟩
  have hs : password = s := (hexact password).1 hcompare
  have hafter' : r.activated (max w.now c.now) (Store.timestamptz t) ∈
      (exec cfg.env (.store (.verifySignup uid.string t)) c w).2.db.users := by
    rw [hdb]
    exact hafter
  refine ⟨r, hr, _, hafter', hid, rfl, ?_, rfl, h, hh, hs ▸ hexact⟩
  simpa [UserRow.unverified] using (Bool.and_eq_true_iff.1 hpending).1

theorem verifySignup_safe {i : Nat} {email code password : String}
    (hi : calls[i]? = some (.verifySignup email code password)) (w : World) :
    (verifySignup cfg email code password).Safe (exec cfg.env) (Inv cfg) (Rely cfg calls i)
      (Good cfg calls i) (fun _ _ => True) w := by
  refine safe_bind (safe_quiet i (uses_failIf _ _) w) fun _ w _ => ?_
  refine safe_bind (safe_quiet i (uses_failIf _ _) w) fun _ w _ => ?_
  refine safe_bind
    (safe_quiet i (uses_matchChallenge (silent_of_plain (fun _ => quiet_of_plain))
      ⟨trivial, fun _ _ heq => by cases heq⟩ _) w) fun res w _ => ?_
  rcases res with ⟨ch, t⟩
  refine safe_bind (matchSignup_safe i ch _ password w) fun user w hmatch => ?_
  rcases hmatch with ⟨uid, hid, hsec⟩
  -- from here on the thread relies on the row staying secured
  have hconsume : Quiet cfg (.store (.consumeChallenge ch.id)) :=
    ⟨trivial, fun _ _ heq => by cases heq⟩
  refine safe_bind (safe_passes (passes_store (.consumeChallenge ch.id)) (Q := fun _ w =>
      Secured cfg.env (cfg.env.normalizeEmail email) uid password w.db.users)
    (fun w hinv _ c => step_quiet i hconsume w hinv c) ?_) fun _ w hsec => ?_
  · intro w' _ hrely c _ _
    exact (exec_keeps hconsume.1 c w').secured _ _ _ trivial
      (hrely email code password hi trivial uid hsec)
  rw [hid]
  refine safe_bind (safe_passes (passes_storeMapping _ _ (.verifySignup uid.string t))
    (Q := fun _ _ => True) ?_ ?_) fun _ w _ => ?_
  · intro w' hinv hrely c
    exact activation_step hi hinv (hrely email code password hi trivial uid hsec) c
  · intros
    trivial
  · refine safe_quiet i (uses_issueTokens (silent_of_plain (fun _ => quiet_of_plain)) ?_ ?_) w
    · intro org t
      exact ⟨trivial, fun _ _ heq => by cases heq⟩
    · intro org tokenHash t
      exact ⟨trivial, fun _ _ heq => by cases heq⟩

end Threads

/-! ## Runs -/

/-- A verification that returned a token pair has activated an account. -/
theorem verifySignup_traces (cfg : Config) (email code password : String) :
    ((Call.verifySignup email code password).program cfg).Traces
      (Program.OnOk fun tr _ => ∃ userID t, ⟨.store (.verifySignup userID t), .ok ()⟩ ∈ tr) [] := by
  refine traces_ok_map ?_
  refine traces_ok_skip fun _ _ => traces_ok_skip fun _ _ => ?_
  refine traces_ok_skip fun res _ => traces_ok_skip fun user _ => ?_
  refine traces_ok_skip fun _ _ => ?_
  refine traces_ok_bind (traces_passes (passes_storeMapping _ _ (.verifySignup user.id res.2)))
    fun _ tr htr => ?_
  refine Program.traces_ok_of_extends fun more _ => ⟨user.id, res.2, ?_⟩
  simp [htr]

/-- The calls the protocol is made of. -/
inductive IsSignupCall : Call → Prop
  | register (email password displayName locale orgName inviteToken : String) :
      IsSignupCall (.registerWithEmail email password displayName locale orgName inviteToken)
  | verify (email code password : String) : IsSignupCall (.verifySignup email code password)

/-- Whoever got a token pair from `VerifySignup` has activated an account that carries exactly the
password of that call. -/
def PreHijackSafe (cfg : Config) (calls : List Call) (p : ServicePool) : Prop :=
  ∀ i email code password pair, calls[i]? = some (.verifySignup email code password) →
    p.result? i = some (.ok (.tokens pair)) →
    ∃ e ∈ p.log, e.thread = i ∧ ∃ userID t,
      e.answered = ⟨.store (.verifySignup userID t), .ok ()⟩ ∧
      Activates cfg.env userID password e.before e.after

/-- A step that replaces the credentials of a pending account does so while no verification of
that address is past its comparison with another password. -/
def Undisturbed (cfg : Config) (calls : List Call) (p : ServicePool) (i : Nat) (_ : Choice) :
    Prop :=
  ∀ user challenge invite t,
    p.head? i = some (.store (.reissuePendingSignup user challenge invite t)) →
    ∀ j email code password o, calls[j]? = some (.verifySignup email code password) →
      p.head? j = some o → Armed o → user.email = cfg.env.normalizeEmail email →
      cfg.env.compare user.passwordHash password = true

section Runs

variable {cfg : Config} {calls : List Call}

theorem spares_of_undisturbed {p : ServicePool} {i j : Nat} {c : Choice} {o o' : Port}
    {email code password : String} (hok : Undisturbed cfg calls p i c) (hi : p.head? i = some o)
    (hj : calls[j]? = some (.verifySignup email code password)) (hhead : p.head? j = some o')
    (harmed : Armed o') : Spares cfg.env (cfg.env.normalizeEmail email) password o := by
  cases o with
  | store s =>
      cases s with
      | reissuePendingSignup user challenge invite t =>
          intro hemail
          exact hok user challenge invite t hi j email code password o' hj hhead harmed hemail
      | _ => exact trivial
  | _ => exact trivial

theorem signup_sound (hideal : cfg.env.IdealHasher) (hcalls : ∀ call ∈ calls, IsSignupCall call)
    {w : World} (hw : Hashed cfg.env w.db.users) :
    (serve cfg w calls).Sound (exec cfg.env) (Inv cfg) (Rely cfg calls) (Good cfg calls) := by
  refine serve_sound hw ?_
  intro i call hi
  cases hcalls call (List.mem_of_getElem? hi) with
  | register => exact safe_map (register_safe hideal i _ _ _ _ _ _ _)
  | verify => exact safe_map (verifySignup_safe hi _)

/-- Pre-hijack safety of every interleaving of undisturbed steps. -/
theorem activated_password_exact (hideal : cfg.env.IdealHasher)
    (hcalls : ∀ call ∈ calls, IsSignupCall call) {w : World} (hw : Hashed cfg.env w.db.users)
    {sched : Schedule}
    (hok : Pool.Along (exec cfg.env) (Undisturbed cfg calls) (serve cfg w calls) sched) :
    PreHijackSafe cfg calls (runOn cfg (serve cfg w calls) sched) := by
  have hsound : (runOn cfg (serve cfg w calls) sched).Sound (exec cfg.env) (Inv cfg)
      (Rely cfg calls) (Good cfg calls) := by
    refine Pool.run_safe ?_ ?_ ?_ sched _ hok (signup_sound hideal hcalls hw)
    · intro i o w email code password _ _ uid hsec
      exact hsec
    · intro i o w₁ w₂ w₃ h₁ h₂ email code password hi ho uid hsec
      exact h₂ _ _ _ hi ho uid (h₁ _ _ _ hi ho uid hsec)
    · intro p i c o _ hstep hi hgood j o' _ hj email code password hcall harmed uid hsec
      exact hgood.keeps.secured _ _ _ (spares_of_undisturbed hstep hi hcall hj harmed) hsec
  intro i email code password pair hi hres
  rcases serve_history hi (verifySignup_traces cfg email code password) hres with
    ⟨userID, t, hmem⟩
  rcases Pool.mem_history hmem with ⟨e, he, hthread, hans⟩
  exact ⟨e, he, hthread, userID, t, hans,
    (hsound.log e he).activates email code password userID t (hthread ▸ hi) hans⟩

end Runs

/-! ## Concrete runs -/

/-- A step that is clear of all comparisons: it replaces no credentials, or no thread is past its
comparison. -/
def clear (p : ServicePool) (i : Nat) (_ : Choice) : Bool :=
  match p.head? i with
  | some (.store (.reissuePendingSignup _ _ _ _)) =>
      p.threads.all fun q =>
        match q.head? with
        | some (.store (.consumeChallenge _)) | some (.store (.verifySignup _ _)) => false
        | _ => true
  | _ => true

theorem undisturbed_of_clear {cfg : Config} {calls : List Call} {p : ServicePool} {i : Nat}
    {c : Choice} (h : clear p i c = true) : Undisturbed cfg calls p i c := by
  intro user challenge invite t hi j email code password o _ hj harmed _
  simp only [clear, hi, List.all_eq_true] at h
  unfold Pool.head? at hj
  rcases Option.bind_eq_some_iff.1 hj with ⟨q, hq, hhead⟩
  have hcalm := h q (List.mem_of_getElem? hq)
  rw [hhead] at hcalm
  cases o with
  | store s => cases s <;> first | exact absurd harmed id | cases hcalm
  | _ => exact absurd harmed id

/-- Two registrations of one address, then the verification with the second password. -/
def retriedCalls : List Call :=
  [.registerWithEmail "ann@example.com" "first" "" "" "" "",
   .registerWithEmail "ann@example.com" "second" "" "" "" "",
   .verifySignup "ann@example.com" "123456" "second"]

def retriedSchedule : Schedule :=
  turns 0 1000 1 12 ++ turns 1 2000 20 12 ++ turns 2 3000 40 12

set_option maxRecDepth 10000 in
theorem activated_password_exact_retried :
    gotTokens (runOn toyConfig (serve toyConfig World.empty retriedCalls) retriedSchedule) 2 =
      true ∧
      PreHijackSafe toyConfig retriedCalls
        (runOn toyConfig (serve toyConfig World.empty retriedCalls) retriedSchedule) := by
  obtain ⟨hgot, hclear⟩ :
      gotTokens (runOn toyConfig (serve toyConfig World.empty retriedCalls) retriedSchedule) 2 =
        true ∧
      Pool.Along (exec toyConfig.env) (fun p i c => clear p i c = true)
        (serve toyConfig World.empty retriedCalls) retriedSchedule := by decide +kernel
  refine ⟨hgot, activated_password_exact toyEnv_ideal ?_ ?_ ?_⟩
  · intro call hcall
    simp only [retriedCalls, List.mem_cons, List.not_mem_nil, or_false] at hcall
    rcases hcall with rfl | rfl | rfl <;> constructor
  · intro r hr
    cases hr
  · exact Pool.along_mono (fun _ _ _ => undisturbed_of_clear) _ _ hclear

/-- The owner registers and verifies; an attacker registers the same address while the verification
is past its comparison. -/
def raceCalls : List Call :=
  [.registerWithEmail "ann@example.com" "owner" "" "" "" "",
   .verifySignup "ann@example.com" "123456" "owner",
   .registerWithEmail "ann@example.com" "attacker" "" "" "" ""]

def raceSchedule : Schedule :=
  turns 0 1000 1 12 ++ turns 1 2000 20 4 ++ turns 2 3000 40 12 ++ turns 1 4000 60 12

set_option maxRecDepth 10000 in
/-- The verification returns a token pair, and the account it activated answers to the attacker's
password. -/
theorem preHijack_race :
    ¬ PreHijackSafe toyConfig raceCalls
      (runOn toyConfig (serve toyConfig World.empty raceCalls) raceSchedule) := by
  intro hsafe
  obtain ⟨hgot, hfoiled⟩ :
      gotTokens (runOn toyConfig (serve toyConfig World.empty raceCalls) raceSchedule) 1 = true ∧
      ∀ e ∈ (runOn toyConfig (serve toyConfig World.empty raceCalls) raceSchedule).log,
        e.thread = 1 → ∀ r ∈ e.after.db.users.rows,
          r.status = .active → r.passwordHash = some "bcrypt:attacker" := by decide +kernel
  rcases gotTokens_iff.1 hgot with ⟨pair, hpair⟩
  rcases hsafe 1 _ _ _ pair rfl hpair with
    ⟨e, he, hthread, userID, t, _, _, _, r', hr', _, _, _, hactive, h, hh, hexact⟩
  have hh' : h = "bcrypt:attacker" :=
    Option.some.inj (hh.symm.trans (hfoiled e he hthread r' hr' hactive))
  have howner : toyConfig.env.compare "bcrypt:attacker" "owner" = true :=
    hh' ▸ (hexact "owner").2 rfl
  exact absurd howner (by decide)

end PreHijack
end Service
end OrbitAuth
