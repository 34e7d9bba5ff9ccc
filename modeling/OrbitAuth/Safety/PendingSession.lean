import OrbitAuth.Postgres.Accounts
import OrbitAuth.Service.Steps

/-!
# PendingSession — a pending sign-up never holds a session

An account is *settled* when its row exists and is not a pending sign-up.  No statement takes that
away: a row never moves back to `signup_pending`, and only pending rows are purged.

* `exec_settles` — every operation leaves settled accounts settled;
* `Vouched` — the condition on the two minting operations, signing an access token and storing a
  refresh token: their subject is settled;
* `pending_holds_nothing` — in every interleaving of calls that starts from an empty database, the
  subjects of all tokens ever issued are settled.

The second point is a matter of the thread that mints: `LoginWithPassword` and `VerifyOTP` have
looked at the status, `VerifySignup` has activated the row, `Refresh` and `SelectOrg` continue an
older session.  What such a thread relies on between its look and its minting is `exec_settles`.
-/

namespace OrbitAuth
namespace Service
namespace PendingSession

open Domain Foundations Postgres Token

variable {o : Port} {user : User} {w : World} {u : Uuid}

/-! ## Settled accounts -/

def Settled (u : Uuid) (users : Table UserRow) : Prop :=
  ∃ r ∈ users, r.id = u ∧ r.status ≠ .signupPending

/-- A settled account has no pending row. -/
theorem not_pending_of_settled {users : Table UserRow} {r : UserRow} (hr : r ∈ users)
    (h : Settled r.id users) : r.status ≠ .signupPending := by
  rcases h with ⟨r', hr', hid, hstatus⟩
  have hsame : r' = r := eq_of_key hr' hr hid
  exact hsame ▸ hstatus

theorem unverified_pending {r : UserRow} (h : r.unverified = true) : r.status = .signupPending := by
  simpa [UserRow.unverified] using (Bool.and_eq_true_iff.1 h).1

theorem settled_change {now : Time} {t t' : Table UserRow} {s : Sql}
    (hchange : UserChange now t s t') (h : Settled u t) : Settled u t' := by
  rcases h with ⟨r, hr, hid, hstatus⟩
  cases hchange with
  | same => exact ⟨r, hr, hid, hstatus⟩
  | inserted r' _ hfree => exact ⟨r, mem_put.2 (.inr ⟨hr, (hfree r hr).1⟩), hid, hstatus⟩
  | loggedIn id =>
      have hmem := update_mem (p := fun r => decide (r.id = id)) (key_loggedIn now) hr
      split at hmem
      · exact ⟨_, hmem, hid, hstatus⟩
      · exact ⟨_, hmem, hid, hstatus⟩
  | reissued email hash name =>
      have hmem := update_mem (p := UserRow.unverifiedAt email) (key_reissued now hash name) hr
      split at hmem
      · exact ⟨_, hmem, hid, hstatus⟩
      · exact ⟨_, hmem, hid, hstatus⟩
  | verified id verifiedAt =>
      have hmem := update_mem (p := UserRow.unverifiedWith id) (key_activated now verifiedAt) hr
      split at hmem
      · exact ⟨_, hmem, hid, by simp [UserRow.activated]⟩
      · exact ⟨_, hmem, hid, hstatus⟩
  | reseeded id email mobile hash name _ r' hr' _ =>
      by_cases hrr : r.id = r'.id
      · refine ⟨_, mem_put.2 (.inl rfl), hrr ▸ hid, ?_⟩
        simp [UserRow.reseeded]
      · exact ⟨r, mem_put.2 (.inr ⟨hr, hrr⟩), hid, hstatus⟩
  | purged before =>
      -- the purge deletes unverified rows only
      have hkept : UserRow.purged before r = false := by
        cases hp : UserRow.purged before r with
        | false => rfl
        | true =>
            have hun := (Bool.and_eq_true_iff.1 hp).1
            exact absurd (unverified_pending hun) hstatus
      exact ⟨r, mem_delete.2 ⟨hr, hkept⟩, hid, hstatus⟩

/-- What every operation leaves in place. -/
def Settles (w w' : World) : Prop :=
  ∀ u, Settled u w.db.users → Settled u w'.db.users

theorem exec_settles (env : Env) (o : Port) (c : Choice) (w : World) :
    Settles w (exec env o c w).2 := by
  intro u
  refine exec_db_rel (R := fun db db' => Settled u db.users → Settled u db'.users)
    (fun _ h => h) ?_ c
  rintro o' rfl now id pick
  refine Store.exec_rel_all (R := fun db db' => Settled u db.users → Settled u db'.users)
    (fun _ h => h) (fun _ _ _ h₁ h₂ h => h₂ (h₁ h)) ?_ o' id pick w.db
  intro s pick db v ws heval
  exact settled_change (eval_users heval)

/-! ## Minting -/

/-- The subject of a minting operation. -/
def subject? : Port → Option String
  | .sign subject _ _ => some subject
  | .store (.storeRefresh userID _ _ _) => some userID
  | _ => none

theorem subject?_of_plain (h : o.plain = true) : subject? o = none := by
  cases o with
  | store o => cases o <;> first | rfl | simp [Port.plain, plainStore] at h
  | sign => simp [Port.plain] at h
  | _ => rfl

/-- Only signing issues access tokens, and the subject is the one it was asked for. -/
theorem exec_issued {env : Env} {c : Choice} {t : SignedToken} (h : t ∈ (exec env o c w).2.issued) :
    t ∈ w.issued ∨ ∃ s, subject? o = some s ∧ t.claims.subject = trimSpace s := by
  cases o with
  | store o =>
      rcases exec_store env o c w with hx | hx <;> rw [hx] at h <;> exact .inl h
  | sign subject orgID expires =>
      -- the token that is added is the one that was signed
      simp only [exec, answer, execSign] at h
      split at h
      · rename_i t' hsigned
        rcases List.mem_append.1 h with h | h
        · exact .inl h
        · refine .inr ⟨subject, rfl, ?_⟩
          have ht : t = t' := by simpa using h
          unfold attempt at hsigned
          split at hsigned
          · cases hsigned
          · rw [ht]
            exact (signAccessTokenWithOrg_claims hsigned).1
      · exact .inl h
  | send n =>
      simp only [exec, answer, execSend] at h
      split at h <;> exact .inl h
  | now => exact .inl h
  | newID => exact .inl h
  | newCode => exact .inl h
  | newSecret => exact .inl h
  | hash secret => exact .inl h
  | flag name => exact .inl h

/-- Every session in `t'` is that of a user with a session in `t`, or of the user `text` names. -/
def Continues (text : Option String) (t t' : Table RefreshRow) : Prop :=
  ∀ s ∈ t', (∃ s₀ ∈ t, s₀.userID = s.userID) ∨
    ∃ userID, text = some userID ∧ Uuid.parse userID = some s.userID

theorem continues_refl (text : Option String) (t : Table RefreshRow) : Continues text t t :=
  fun s hs => .inl ⟨s, hs, rfl⟩

theorem continues_trans {text : Option String} {t₁ t₂ t₃ : Table RefreshRow}
    (h₁ : Continues text t₁ t₂) (h₂ : Continues text t₂ t₃) : Continues text t₁ t₃ := by
  intro s hs
  rcases h₂ s hs with ⟨s', hs', heq⟩ | h
  · rw [← heq]
    exact h₁ s' hs'
  · exact .inr h

theorem continues_change {now : Time} {t t' : Table RefreshRow} {s : Sql} {text : Option String}
    (hchange : RefreshChange now t s t')
    (hs : ∀ id user org hash expires, s = .storeRefreshToken id user org hash expires →
      ∃ userID, text = some userID ∧ Uuid.parse userID = some user) : Continues text t t' := by
  intro r hr
  cases hchange with
  | same => exact .inl ⟨r, hr, rfl⟩
  | stored id user org hash expires r' huser _ =>
      rcases mem_put.1 hr with rfl | ⟨hr, _⟩
      · exact .inr (huser ▸ hs id user org hash expires rfl)
      · exact .inl ⟨r, hr, rfl⟩
  | revoked hash =>
      rcases (mem_update (key_revoked now)).1 hr with ⟨r', hr', _, rfl⟩ | ⟨hr, _⟩
      · exact .inl ⟨r', hr', rfl⟩
      · exact .inl ⟨r, hr, rfl⟩

theorem exec_continues (env : Env) (o : Port) (c : Choice) (w : World) :
    Continues (subject? o) w.db.refreshTokens (exec env o c w).2.db.refreshTokens := by
  refine exec_db_rel (R := fun db db' => Continues (subject? o) db.refreshTokens db'.refreshTokens)
    (fun _ => continues_refl _ _) ?_ c
  rintro o' rfl now id pick
  have huses : (o'.body now id).Uses fun s : Sql => ∀ id user org hash expires,
      s = .storeRefreshToken id user org hash expires →
      ∃ userID, subject? (.store o') = some userID ∧ Uuid.parse userID = some user := by
    by_cases hstore : ∃ userID orgID tokenHash t, o' = .storeRefresh userID orgID tokenHash t
    · rcases hstore with ⟨userID, orgID, tokenHash, t, rfl⟩
      refine Store.uses_storeRefresh ?_
      intro u org expires hp id' user' org' hash' expires' heq
      rcases Sql.storeRefreshToken.inj heq with ⟨_, rfl, _⟩
      exact ⟨userID, rfl, hp⟩
    · by_cases hrevoke : ∃ tokenHash, o' = .revoke tokenHash
      · rcases hrevoke with ⟨tokenHash, rfl⟩
        exact Store.uses_stmt fun _ _ _ _ _ heq => Sql.noConfusion heq
      · refine uses_mono ?_ (Store.body_writes now id o')
        rintro s hs id' user org hash expires rfl
        -- no other call writes this table
        have hwrites : TableName.refreshTokens ∈ o'.writes := hs (by simp [Sql.writes])
        cases o' with
        | storeRefresh a b c d => exact absurd ⟨a, b, c, d, rfl⟩ hstore
        | revoke a => exact absurd ⟨a, rfl⟩ hrevoke
        | _ => simp [Store.Op.writes] at hwrites
  refine Store.exec_rel
    (R := fun db db' => Continues (subject? (.store o')) db.refreshTokens db'.refreshTokens)
    (fun _ => continues_refl _ _) (fun _ _ _ => continues_trans) ?_ huses pick w.db
  intro s pick db v ws hs heval
  exact continues_change (eval_refreshTokens heval) hs

/-! ## The invariant -/

/-- The subjects of all tokens ever issued are settled. -/
structure Inv (w : World) : Prop where
  issued : ∀ t ∈ w.issued, ∃ u : Uuid, t.claims.subject = u.string ∧ Settled u w.db.users
  stored : ∀ s ∈ w.db.refreshTokens, Settled s.userID w.db.users

theorem inv_empty : Inv World.empty where
  issued t ht := by cases ht
  stored s hs := absurd hs (not_mem_empty s)

/-- A minting operation mints for a settled account. -/
def Vouched (o : Port) (w : World) : Prop :=
  ∀ s, subject? o = some s → ∃ u : Uuid, s = u.string ∧ Settled u w.db.users

theorem vouched_of_none (h : subject? o = none) (w : World) : Vouched o w := by
  intro s hs
  rw [h] at hs
  cases hs

theorem step_inv {env : Env} (hinv : Inv w) (hv : Vouched o w) (c : Choice) :
    Inv (exec env o c w).2 := by
  have hsettles := exec_settles env o c w
  refine ⟨?_, ?_⟩
  · intro t ht
    rcases exec_issued ht with hold | ⟨s, hs, hsubject⟩
    · rcases hinv.issued t hold with ⟨u, hu, hset⟩
      exact ⟨u, hu, hsettles u hset⟩
    · rcases hv s hs with ⟨u, rfl, hset⟩
      exact ⟨u, by simpa using hsubject, hsettles u hset⟩
  · intro r hr
    rcases exec_continues env o c w r hr with ⟨r₀, hr₀, heq⟩ | ⟨s, hs, hparse⟩
    · exact heq ▸ hsettles _ (hinv.stored r₀ hr₀)
    · rcases hv s hs with ⟨u, rfl, hset⟩
      have hu : u = r.userID := by simpa using hparse
      exact hu ▸ hsettles u hset

/-! ## Threads -/

section Threads

variable {cfg : Config} {w : World} {α : Type}

/-- Threads rely on each other, and guarantee each other, that settled accounts stay settled. -/
abbrev Guarded (env : Env) (p : Action α) (post : α → World → Prop) (w : World) : Prop :=
  p.Safe (exec env) Inv (fun _ => Settles) (fun _ w _ w' => Settles w w') post w

/-- An operation that mints nothing. -/
abbrev Idle (o : Port) : Prop :=
  subject? o = none

theorem idle_of_plain (o : Port) (h : o.plain = true) : Idle o :=
  subject?_of_plain h

theorem step_idle (ho : Idle o) (w : World) (hinv : Inv w) (c : Choice) :
    Inv (exec cfg.env o c w).2 ∧ Settles w (exec cfg.env o c w).2 :=
  ⟨step_inv hinv (vouched_of_none ho w) c, exec_settles cfg.env o c w⟩

theorem guarded_idle {p : Action α} (hp : p.Uses Idle) (w : World) :
    Guarded cfg.env p (fun _ _ => True) w :=
  Program.safe_of_uses (fun _ ho w hinv c => step_idle ho w hinv c) hp w

/-- Minting for an account that is settled by now. -/
theorem guarded_minting {p : Action α} (hp : p.Uses fun o => Idle o ∨ subject? o = some u.string)
    (hu : Settled u w.db.users) : Guarded cfg.env p (fun _ w => Settled u w.db.users) w := by
  refine safe_keeps (K := fun w => Settled u w.db.users) ?_ ?_ hp w hu
  · intro o w w' hrely
    exact hrely u
  intro o ho w' hinv hset c
  have hvouched : Vouched o w' := by
    rcases ho with ho | ho
    · exact vouched_of_none ho w'
    · intro s hs
      exact ⟨u, Option.some.inj (hs.symm.trans ho), hset⟩
  exact ⟨step_inv hinv hvouched c, exec_settles _ _ _ _, exec_settles _ _ _ _ u hset⟩

theorem issueTokensForOrg_guarded (orgID : String) (hu : Settled u w.db.users) :
    Guarded cfg.env (issueTokensForOrg cfg u.string orgID) (fun _ _ => True) w := by
  refine safe_mono (fun _ _ _ => trivial) (guarded_minting ?_ hu)
  exact uses_issueTokensForOrg (silent_of_plain (fun o h => .inl (idle_of_plain o h)))
    (fun _ => .inr rfl)
    fun _ _ => .inr rfl

theorem issueTokens_guarded (hu : Settled u w.db.users) :
    Guarded cfg.env (issueTokens cfg u.string) (fun _ _ => True) w := by
  refine safe_mono (fun _ _ _ => trivial) (guarded_minting ?_ hu)
  exact uses_issueTokens (silent_of_plain (fun o h => .inl (idle_of_plain o h)))
    (fun _ _ => .inr rfl)
    fun _ _ _ => .inr rfl

/-- The user is that of a row; unless it is pending, the account is settled. -/
def Known (user : User) (w : World) : Prop :=
  ∃ u : Uuid, user.id = u.string ∧ (user.status ≠ .signupPending → Settled u w.db.users)

theorem known_row {r : UserRow} (h : r ∈ w.db.users) : Known r.user w :=
  ⟨r.id, rfl, fun hstatus => ⟨r, h, rfl, hstatus⟩⟩

theorem known_settles {w' : World} (h : Known user w) (hs : Settles w w') : Known user w' := by
  rcases h with ⟨u, hid, hset⟩
  exact ⟨u, hid, fun hstatus => hs u (hset hstatus)⟩

theorem findByEmail_known {email : String} {c : Choice}
    (h : (exec cfg.env (.store (.findByEmail email)) c w).1 = .ok user) :
    Known user (exec cfg.env (.store (.findByEmail email)) c w).2 := by
  rcases Store.exec_findByEmail_ok (exec_store_ok h).1 with ⟨r, hr, _, rfl⟩
  exact known_settles (known_row hr) (exec_settles _ _ _ _)

theorem findByMobile_known {mobile : String} {c : Choice}
    (h : (exec cfg.env (.store (.findByMobile mobile)) c w).1 = .ok user) :
    Known user (exec cfg.env (.store (.findByMobile mobile)) c w).2 := by
  rcases Store.exec_findByMobile_ok (exec_store_ok h).1 with ⟨r, hr, _, rfl⟩
  exact known_settles (known_row hr) (exec_settles _ _ _ _)

/-- A pending sign-up created in between makes the creating transaction fail, so a created account
is settled. -/
theorem findOrCreate_known (identifier channel : String) (w : World) :
    Guarded cfg.env (findOrCreate identifier channel) Known w := by
  have hidle : ∀ {o : Port}, Idle o → ∀ w', Inv w' → Settles w w' → ∀ c,
      Inv (exec cfg.env o c w').2 ∧ Settles w' (exec cfg.env o c w').2 :=
    fun ho w' hinv _ c => step_idle ho w' hinv c
  unfold findOrCreate
  split
  · refine .call (hidle rfl) ?_
    intro w₁ _ _ c
    cases hres : (exec cfg.env (.store (.findByEmail identifier)) c w₁).1 with
    | ok user => exact .done (findByEmail_known hres)
    | error e =>
        dsimp only [Program.bind]
        split
        -- nobody has the address: the transaction inserts an active account
        · refine safe_passes (passes_store (.createByEmail identifier))
            (fun w' hinv _ c => step_idle rfl w' hinv c) ?_
          intro w₂ _ _ c' user hv
          rcases exec_store_ok hv with ⟨hanswer, hdb⟩
          obtain ⟨rfl, _, hr⟩ := Store.execCreate_ok (a := .email identifier) hanswer
          exact ⟨c'.id, rfl, fun _ => ⟨_, hdb ▸ hr, rfl, by simp [Address.inserted, newUser]⟩⟩
        · exact .fail
  · split
    · refine .call (hidle rfl) ?_
      intro w₁ _ _ c
      cases hres : (exec cfg.env (.store (.findByMobile identifier)) c w₁).1 with
      | ok user => exact .done (findByMobile_known hres)
      | error e =>
          dsimp only [Program.bind]
          split
          -- the same for a mobile number
          · refine safe_passes (passes_store (.createByMobile identifier))
              (fun w' hinv _ c => step_idle rfl w' hinv c) ?_
            intro w₂ _ _ c' user hv
            rcases exec_store_ok hv with ⟨hanswer, hdb⟩
            obtain ⟨rfl, _, hr⟩ := Store.execCreate_ok (a := .mobile identifier) hanswer
            exact ⟨c'.id, rfl, fun _ => ⟨_, hdb ▸ hr, rfl, by simp [Address.inserted, newUser]⟩⟩
          · exact .fail
    · exact .fail

theorem findByIdentifier_known (identifier : String) (w : World) :
    Guarded cfg.env (findByIdentifier cfg identifier) Known w := by
  unfold findByIdentifier
  split
  · exact safe_passes (passes_storeOr _ (.findByMobile identifier))
      (fun w' hinv _ c => step_idle rfl w' hinv c) fun _ _ _ _ _ hv => findByMobile_known hv
  · exact safe_passes (passes_storeOr _ (.findByEmail _))
      (fun w' hinv _ c => step_idle rfl w' hinv c) fun _ _ _ _ _ hv => findByEmail_known hv

/-- The check that both logins make before they mint. -/
theorem guarded_unless_pending {e : Err} {p : Action α} (hknown : Known user w)
    (hp : ∀ u : Uuid, user.id = u.string → Settled u w.db.users →
      Guarded cfg.env p (fun _ _ => True) w) :
    Guarded cfg.env (failIf (user.status = .signupPending) e >>= fun _ => p)
    (fun _ _ => True) w := by
  rcases hknown with ⟨u, hid, hset⟩
  by_cases hpending : user.status = .signupPending
  · simp only [hpending, decide_true]
    exact .fail
  · simp only [hpending, decide_false]
    exact hp u hid (hset hpending)

theorem verifyOTP_guarded (identifier channel code : String) (w : World) :
    Guarded cfg.env (verifyOTP cfg identifier channel code) (fun _ _ => True) w := by
  refine safe_bind (guarded_idle (uses_failIf _ _) w) fun _ w _ => ?_
  refine safe_bind (guarded_idle (uses_matchChallenge (silent_of_plain idle_of_plain) rfl _) w)
    fun res w _ => ?_
  refine safe_bind (guarded_idle (uses_store (o := .consumeChallenge res.1.id) rfl) w)
    fun _ w _ => ?_
  refine safe_bind (findOrCreate_known _ _ w) fun user w hknown => ?_
  refine guarded_unless_pending hknown fun u hid hset => ?_
  rw [hid]
  exact issueTokens_guarded hset

theorem loginWithPassword_guarded (identifier password : String) (w : World) :
    Guarded cfg.env (loginWithPassword cfg identifier password) (fun _ _ => True) w := by
  refine safe_bind (guarded_idle (uses_failIf _ _) w) fun _ w _ => ?_
  refine safe_bind (findByIdentifier_known _ w) fun user w hknown => ?_
  refine guarded_unless_pending hknown fun u hid hset => ?_
  -- the remaining checks and the login mark mint nothing and leave the account settled
  have hkeep : ∀ {β : Type} {q : Action β} {w : World}, q.Uses Idle → Settled u w.db.users →
      Guarded cfg.env q (fun _ w => Settled u w.db.users) w :=
    fun hq => guarded_minting (uses_mono (fun _ h => .inl h) hq)
  refine safe_bind (hkeep (uses_failIf _ _) hset) fun _ w hset => ?_
  refine safe_bind (hkeep (uses_failIf _ _) hset) fun _ w hset => ?_
  refine safe_bind (hkeep (uses_ignore rfl) hset) fun _ w hset => ?_
  rw [hid]
  exact issueTokens_guarded hset

/-- An open session is that of a settled account. -/
theorem findValid_guarded {e : Err} (tokenHash : String) (w : World) :
    Guarded cfg.env (storeOr e (.findValid tokenHash))
      (fun v w => ∃ u : Uuid, v.1 = u.string ∧ Settled u w.db.users) w := by
  refine safe_passes (passes_storeOr _ (.findValid tokenHash))
    (fun w' hinv _ c => step_idle rfl w' hinv c) ?_
  intro w' hinv _ c v hv
  rcases Store.exec_findValid_ok (exec_store_ok hv).1 with ⟨r, hr, _, rfl⟩
  exact ⟨r.userID, rfl, exec_settles _ _ _ _ _ (hinv.stored r hr)⟩

theorem refresh_guarded (token : String) (w : World) :
    Guarded cfg.env (refresh cfg token) (fun _ _ => True) w := by
  refine safe_bind (findValid_guarded _ w) fun found w hfound => ?_
  rcases found with ⟨userID, orgID⟩
  rcases hfound with ⟨u, rfl, hset⟩
  refine safe_bind (guarded_minting (uses_ignore (.inl rfl)) hset) fun _ w hset => ?_
  refine safe_bind
    (guarded_minting (uses_activeOrg (fun o h => .inl (idle_of_plain o h)) _ _) hset)
    fun org w hset => ?_
  exact issueTokensForOrg_guarded org hset

theorem selectOrg_guarded (userID token orgID : String) (w : World) :
    Guarded cfg.env (selectOrg cfg userID token orgID) (fun _ _ => True) w := by
  refine safe_bind (guarded_idle (uses_failIf _ _) w) fun _ w _ => ?_
  refine safe_bind (guarded_idle (uses_isActiveMember idle_of_plain _ _) w)
    fun active w _ => ?_
  refine safe_bind (guarded_idle (uses_failIf _ _) w) fun _ w _ => ?_
  refine safe_bind (findValid_guarded _ w) fun found w hfound => ?_
  rcases found with ⟨tokenUserID, _⟩
  rcases hfound with ⟨u, rfl, hset⟩
  -- past the next check the caller is the user of the session
  refine safe_bind (safe_failIf (Q := fun _ w => u.string = trimSpace userID ∧
    Settled u w.db.users) ?_) fun _ w hsame => ?_
  · intro hcheck
    exact ⟨by simpa using hcheck, hset⟩
  rcases hsame with ⟨hsame, hset⟩
  rw [← hsame]
  refine safe_bind (guarded_minting (uses_ignore (.inl rfl)) hset) fun _ w hset => ?_
  exact issueTokensForOrg_guarded _ hset

theorem matchSignup_known (ch : OTPChallenge) (email password : String) (w : World) :
    Guarded cfg.env (matchSignup cfg ch email password) Known w := by
  have hreject : ∀ w, Guarded cfg.env (rejectSignup ch) Known w := by
    intro w
    exact safe_bind (guarded_idle (uses_ignore rfl) w) fun _ w _ => .fail
  refine .call (fun w' hinv _ c => step_idle rfl w' hinv c) ?_
  intro w₁ _ _ c
  cases hres : (exec cfg.env (.store (.findByEmail email)) c w₁).1 with
  | error e => exact hreject _
  | ok user =>
      dsimp only [Program.bind]
      split
      · exact hreject _
      · exact .done (findByEmail_known hres)

theorem verifySignup_guarded (email code password : String) (w : World) :
    Guarded cfg.env (verifySignup cfg email code password) (fun _ _ => True) w := by
  refine safe_bind (guarded_idle (uses_failIf _ _) w) fun _ w _ => ?_
  refine safe_bind (guarded_idle (uses_failIf _ _) w) fun _ w _ => ?_
  refine safe_bind (guarded_idle (uses_matchChallenge (silent_of_plain idle_of_plain) rfl _) w)
    fun res w _ => ?_
  rcases res with ⟨ch, t⟩
  refine safe_bind (matchSignup_known ch _ password w) fun user w hknown => ?_
  rcases hknown with ⟨u, hid, _⟩
  refine safe_bind (guarded_idle (uses_store (o := .consumeChallenge ch.id) rfl) w)
    fun _ w _ => ?_
  rw [hid]
  -- the transaction that precedes the minting activates the row
  refine safe_bind (safe_passes (passes_storeMapping _ _ (.verifySignup u.string t))
    (Q := fun _ w => Settled u w.db.users) (fun w' hinv _ c => step_idle rfl w' hinv c) ?_)
    fun _ w hset => issueTokens_guarded hset
  intro w' _ _ c v hv
  rcases exec_store_ok hv with ⟨hanswer, hdb⟩
  rcases Store.exec_verifySignup_ok hanswer with ⟨r, _, hparse, _, hafter⟩
  have hu : u = r.id := by simpa using hparse
  refine ⟨r.activated (max w'.now c.now) (Store.timestamptz t), ?_, hu.symm, ?_⟩
  · rw [hdb]
    exact hafter
  · simp [UserRow.activated]

/-- Every call of the service. -/
theorem call_guarded (call : Call) (w : World) :
    Guarded cfg.env (call.program cfg) (fun _ _ => True) w := by
  have hidle : ∀ {β : Type} {q : Action β} {f : β → Reply}, q.Uses Idle →
      Guarded cfg.env (f <$> q) (fun _ _ => True) w :=
    fun hq => guarded_idle (uses_map hq _) w
  -- five calls sign; the others never do
  cases call with
  | verifyOTP => exact safe_map (verifyOTP_guarded _ _ _ w)
  | loginWithPassword => exact safe_map (loginWithPassword_guarded _ _ w)
  | refresh => exact safe_map (refresh_guarded _ w)
  | selectOrg => exact safe_map (selectOrg_guarded _ _ _ w)
  | verifySignup => exact safe_map (verifySignup_guarded _ _ _ w)
  | requestOTP => exact hidle (uses_requestOTP idle_of_plain (fun _ => rfl) _ _ _)
  | registerWithEmail =>
      exact hidle (uses_registerWithEmail idle_of_plain (fun _ => rfl) (fun _ => rfl)
        (fun _ _ _ _ => rfl) fun _ _ _ _ => rfl)
  | purgeUnverifiedSignups before =>
      exact hidle (uses_bind (uses_failIf _ _) fun _ =>
        uses_store (o := .purgeUnverifiedSignups before) rfl)
  | seedDemoUsers => exact hidle (uses_seedDemoUsers idle_of_plain fun _ _ _ _ => rfl)
  | createApiToken => exact hidle (uses_createApiToken idle_of_plain fun _ => rfl)
  | listApiTokens => exact hidle (uses_listApiTokens idle_of_plain _)
  | revokeApiToken => exact hidle (uses_revokeApiToken fun _ _ => rfl)
  | validateApiToken => exact hidle (uses_validateApiToken idle_of_plain _)
  | createOrg => exact hidle (uses_createOrg idle_of_plain fun _ _ => rfl)
  | listOrgsForUser => exact hidle (uses_listOrgsForUser idle_of_plain _)
  | listMembers => exact hidle (uses_listMembers idle_of_plain _)
  | addMember => exact hidle (uses_addMember idle_of_plain fun _ _ _ => rfl)
  | suspendMember => exact hidle (uses_suspendMember idle_of_plain fun _ _ _ => rfl)
  | removeMember => exact hidle (uses_removeMember idle_of_plain fun _ _ => rfl)
  | inviteMember => exact hidle (uses_inviteMember idle_of_plain (fun _ _ => rfl) fun _ _ => rfl)
  | acceptInvite => exact hidle (uses_acceptInvite idle_of_plain fun _ _ _ _ => rfl)
  | revokeInvite => exact hidle (uses_revokeInvite idle_of_plain fun _ _ => rfl)
  | listInvites => exact hidle (uses_listInvites idle_of_plain _)

end Threads

/-! ## Runs -/

/-- No issued access token and no session belongs to an account whose row is pending. -/
def PendingHoldsNothing (w : World) : Prop :=
  ∀ r ∈ w.db.users, r.status = .signupPending →
    (∀ t ∈ w.issued, t.claims.subject ≠ r.id.string) ∧ ∀ s ∈ w.db.refreshTokens, s.userID ≠ r.id

theorem pendingHoldsNothing_of_inv (h : Inv w) : PendingHoldsNothing w := by
  intro r hr hpending
  have hunsettled : ¬ Settled r.id w.db.users :=
    fun hset => not_pending_of_settled hr hset hpending
  refine ⟨?_, ?_⟩
  · intro t ht hsubject
    rcases h.issued t ht with ⟨u, hu, hset⟩
    have hid : u = r.id := Uuid.string_injective (hu.symm.trans hsubject)
    exact hunsettled (hid ▸ hset)
  · intro s hs hid
    exact hunsettled (hid ▸ h.stored s hs)

theorem run_inv (cfg : Config) (calls : List Call) (hw : Inv w) (sched : Schedule) :
    Inv (runOn cfg (serve cfg w calls) sched).world := by
  have hstart : (serve cfg w calls).Sound (exec cfg.env) Inv (fun _ _ => Settles)
      (fun _ _ w _ w' => Settles w w') :=
    serve_sound hw fun _ call _ => call_guarded call w
  have hsound : (runOn cfg (serve cfg w calls) sched).Sound (exec cfg.env) Inv
      (fun _ _ => Settles) (fun _ _ w _ w' => Settles w w') := by
    refine Pool.run_safe ?_ ?_ ?_ sched _ (Pool.along_true sched _) hstart
    · intro i o w u h
      exact h
    · intro i o w₁ w₂ w₃ h₁ h₂ u h
      exact h₂ u (h₁ u h)
    · intro p i c o _ _ _ hgood j o' _ _
      exact hgood
  exact hsound.world

/-- From an empty database no interleaving of service calls gives a pending sign-up a session. -/
theorem pending_holds_nothing (cfg : Config) (calls : List Call) (sched : Schedule) :
    PendingHoldsNothing (runOn cfg (serve cfg World.empty calls) sched).world :=
  pendingHoldsNothing_of_inv (run_inv cfg calls inv_empty sched)

end PendingSession
end Service
end OrbitAuth
