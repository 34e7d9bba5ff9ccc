import OrbitAuth.Postgres.Accounts
import OrbitAuth.Service.Steps

/-!
# Disabled — what a disabled account can still do

Only `LoginWithPassword` asks whether an account is disabled.  The other credential paths look the
account up by something it owns — a one-time code, a refresh token, an API token — and never read
its status, or compare it with `signup_pending` only.

`LiveCredential` lists what such an account can own, and `disabled_authenticates_iff` shows that
the list is complete and correct: a call authenticates a disabled account, for some behaviour of
the environment, exactly when the caller presents a live credential of that account.

* The *only if* part reads the calls demonically (`Program.Must`): whatever the environment does, a
  result belongs to a row with such a credential.
* The *if* part reads them angelically (`Program.May`): it constructs the run.
-/

namespace OrbitAuth
namespace Service
namespace Disabled

open Domain Foundations Postgres Token

variable {r : RefreshRow}

/-! ## The property -/

/-- The reply is a token pair or an identity of this user. -/
def identifies (userID : String) : Reply → Bool
  | .tokens pair => pair.access.claims.subject = userID
  | .identity id _ => id = userID
  | _ => false

theorem identifies_tokens {userID : String} {pair : TokenPair} :
    identifies userID (.tokens pair) = true ↔ pair.access.claims.subject = userID := by
  simp [identifies]

theorem identifies_identity {userID id : String} {scopes : Option (List String)} :
    identifies userID (.identity id scopes) = true ↔ id = userID := by
  simp [identifies]

/-- Some behaviour of the environment lets the call succeed for the account. -/
def Authenticates (cfg : Config) (w : World) (u : UserRow) (call : Call) : Prop :=
  ∃ choices reply, (call.perform cfg choices w).1 = .ok reply ∧
    identifies u.id.string reply = true

/-- The call presents a credential of the account that is still good at `w`. -/
inductive LiveCredential (cfg : Config) (w : World) (u : UserRow) : Call → Prop
  | code {identifier channel code : String} (r : ChallengeRow)
      (hident : trimSpace identifier ≠ "") (hcode : code ≠ "")
      (hu : (trimSpace channel = channelEmail ∧ u.email = some (trimSpace identifier)) ∨
        (trimSpace channel = channelSMS ∧ u.mobile = some (trimSpace identifier)))
      (hr : r ∈ newest ChallengeRow.createdAt (w.db.challenges.select
        (ChallengeRow.addressedTo (trimSpace identifier) (trimSpace channel))))
      (hexpires : w.now ≤ r.expiresAt) (hattempts : r.attempts < maxOTPAttempts)
      (hcompare : cfg.env.compare r.codeHash code = true) :
      LiveCredential cfg w u (.verifyOTP identifier channel code)
  | session {token : String} (r : RefreshRow) (hr : r ∈ w.db.refreshTokens) (hu : r.userID = u.id)
      (hvalid : r.valid w.now (cfg.env.hashRefreshToken token) = true) :
      LiveCredential cfg w u (.refresh token)
  | switch {userID token orgID : String} (r : RefreshRow) (m : MembershipRow)
      (huser : trimSpace userID = u.id.string) (hr : r ∈ w.db.refreshTokens)
      (hu : r.userID = u.id) (hvalid : r.valid w.now (cfg.env.hashRefreshToken token) = true)
      (hm : m ∈ w.db.memberships) (horg : Uuid.parse (trimSpace orgID) = some m.orgID)
      (hmu : m.userID = u.id) (hactive : m.status = .active) :
      LiveCredential cfg w u (.selectOrg userID token orgID)
  | apiToken {secret box rest : String} (t : APITokenRow)
      (hsplit : splitToken secret = some (box, rest))
      (ht : t ∈ newest APITokenRow.createdAt (w.db.apiTokens.select fun t =>
        t.tokenPrefix = box && t.revokedAt.isNone))
      (hu : t.userID = u.id) (hexpires : ∀ e, t.expiresAt = some e → w.now ≤ e)
      (hcompare : cfg.env.compare t.tokenHash (box ++ rest) = true) :
      LiveCredential cfg w u (.validateApiToken secret)

/-! ## Whatever the environment does -/

section Must

variable {cfg : Config} {w : World}

/-- An issued pair is for the user it was asked for. -/
theorem issueTokensForOrg_must (userID orgID : String) (w : World) :
    (issueTokensForOrg cfg userID orgID).Must (exec cfg.env)
      (fun pair _ => pair.access.claims.subject = trimSpace userID) w := by
  refine safe_bind (must_true _ w) fun t w _ => ?_
  have hsign : (sign userID orgID (t + accessTokenTTL)).Must (exec cfg.env)
      (fun token _ => token.claims.subject = trimSpace userID) w := by
    refine must_call fun c => ?_
    cases hres : (exec cfg.env (.sign userID orgID (t + accessTokenTTL)) c w).1 with
    | error e => exact .fail
    | ok token =>
        refine .done ?_
        -- the answer is an error of the environment or what the signer returns
        simp only [exec, answer, execSign, attempt] at hres
        split at hres
        · rename_i token' htoken
          cases hres
          split at htoken
          · cases htoken
          · exact (signAccessTokenWithOrg_claims htoken).1
        · cases hres
  refine safe_bind hsign fun access w hsubject => ?_
  refine safe_bind (must_true _ w) fun first w _ => ?_
  refine safe_bind (must_true _ w) fun second w _ => ?_
  exact safe_bind (must_true _ w) fun _ w _ => .done hsubject

theorem issueTokens_must (userID : String) (w : World) :
    (issueTokens cfg userID).Must (exec cfg.env)
      (fun pair _ => pair.access.claims.subject = trimSpace userID) w :=
  safe_bind (must_true _ w) fun _ w _ => issueTokensForOrg_must userID _ w

/-- A token that is valid now was valid before. -/
theorem valid_mono {t t' : Time} (ht : t ≤ t') {tokenHash : String}
    (h : r.valid t' tokenHash = true) : r.valid t tokenHash = true := by
  simp only [RefreshRow.valid, Bool.and_eq_true, decide_eq_true_eq] at h ⊢
  exact ⟨⟨h.1.1, lt_of_le_of_lt ht h.1.2⟩, h.2⟩

theorem findValid_must {e : Err} {tokenHash : String} {t : Time} (ht : t ≤ w.now) :
    (storeOr e (.findValid tokenHash)).Must (exec cfg.env)
      (fun v _ => ∃ r ∈ w.db.refreshTokens, r.valid t tokenHash = true ∧ v.1 = r.userID.string)
      w := by
  refine must_passes (passes_storeOr _ _) ?_
  intro c v hv
  rcases Store.exec_findValid_ok (exec_store_ok hv).1 with ⟨r, hr, hvalid, rfl⟩
  have hle : t ≤ max w.now c.now := le_trans ht (le_max_left _ _)
  exact ⟨r, hr, valid_mono hle hvalid, rfl⟩

theorem refresh_must (token : String) :
    (refresh cfg token).Must (exec cfg.env)
      (fun pair _ => ∃ r ∈ w.db.refreshTokens,
        r.valid w.now (cfg.env.hashRefreshToken token) = true ∧
        pair.access.claims.subject = r.userID.string) w := by
  refine safe_bind (findValid_must le_rfl) fun found w' hfound => ?_
  rcases hfound with ⟨r, hr, hvalid, huser⟩
  refine safe_bind (must_true _ w') fun _ w' _ => ?_
  refine safe_bind (must_true _ w') fun org w' _ => ?_
  refine safe_mono ?_ (issueTokensForOrg_must _ org w')
  intro pair _ hsubject
  refine ⟨r, hr, hvalid, ?_⟩
  rw [hsubject, huser, Uuid.trimSpace_string]

/-- A caller that is found to be an active member has an active membership row. -/
theorem isActiveMember_must (orgID userID : String) :
    (isActiveMember orgID userID).Must (exec cfg.env)
      (fun active w' => w.now ≤ w'.now ∧ w'.db = w.db ∧ (active = true →
        ∃ m ∈ w.db.memberships, Uuid.parse (trimSpace orgID) = some m.orgID ∧
          Uuid.parse (trimSpace userID) = some m.userID ∧ m.status = .active)) w := by
  refine safe_bind (safe_failIf (Q := fun _ w' => w' = w) fun _ => rfl) fun _ w' hw => ?_
  subst hw
  refine must_call fun c => ?_
  have hnow := exec_now_le cfg.env
    (.store (.getMembership (trimSpace orgID) (trimSpace userID))) c w'
  cases hres :
    (exec cfg.env (.store (.getMembership (trimSpace orgID) (trimSpace userID))) c w').1 with
  -- a missing membership is the answer no; every other error ends the call
  | error e =>
      dsimp only [Program.bind]
      split
      · refine .done ⟨hnow, exec_store_error hres, ?_⟩
        intro h
        cases h
      · exact .fail
  | ok m =>
      rcases exec_store_ok hres with ⟨hanswer, hdb⟩
      refine .done ⟨hnow, ?_, ?_⟩
      · rw [hdb]
        exact Store.exec_reads rfl _ _ _ _
      · intro hactive
        rcases Store.exec_getMembership_ok hanswer with ⟨r, hr, horg, huser, rfl⟩
        exact ⟨r, hr, horg, huser, of_decide_eq_true hactive⟩

theorem selectOrg_must (userID token orgID : String) :
    (selectOrg cfg userID token orgID).Must (exec cfg.env)
      (fun pair _ => ∃ r ∈ w.db.refreshTokens, ∃ m ∈ w.db.memberships,
        r.valid w.now (cfg.env.hashRefreshToken token) = true ∧
        trimSpace userID = r.userID.string ∧ Uuid.parse (trimSpace orgID) = some m.orgID ∧
        m.userID = r.userID ∧ m.status = .active ∧
        pair.access.claims.subject = r.userID.string) w := by
  refine safe_bind (safe_failIf (Q := fun _ w' => w' = w) fun _ => rfl) fun _ w' hw => ?_
  subst hw
  refine safe_bind (isActiveMember_must _ _) fun active w₁ hactive => ?_
  rcases hactive with ⟨hnow, hdb, hmember⟩
  refine safe_bind (safe_failIf (Q := fun _ w₂ => w₂ = w₁ ∧ active = true)
    fun h => ⟨rfl, by simpa using h⟩) fun _ w₂ hw₂ => ?_
  rcases hw₂ with ⟨rfl, rfl⟩
  rcases hmember rfl with ⟨m, hm, horg, huser, hstatus⟩
  refine safe_bind (findValid_must hnow) fun found w₃ hfound => ?_
  rcases hfound with ⟨r, hr, hvalid, hfoundUser⟩
  rcases found with ⟨tokenUserID, tokenOrg⟩
  refine safe_bind (safe_failIf (Q := fun _ _ => tokenUserID = trimSpace userID)
    fun h => by simpa using h) fun _ w₄ hsame => ?_
  refine safe_bind (must_true _ w₄) fun _ w₅ _ => ?_
  refine safe_mono ?_ (issueTokensForOrg_must _ _ w₅)
  intro pair _ hsubject
  -- the token's user, the caller and the member are one
  have hcaller : trimSpace userID = r.userID.string := hsame.symm.trans hfoundUser
  have hmu : m.userID = r.userID := by
    rw [hcaller, Uuid.trimSpace_string, Uuid.parse_string] at huser
    exact (Option.some.inj huser).symm
  rw [hdb] at hr
  refine ⟨r, hr, m, hm, hvalid, hcaller, ?_, hmu, hstatus, ?_⟩
  · simpa using horg
  · rw [hsubject, hcaller, Uuid.trimSpace_string]

/-- The lookup by the readable part finds a newest token that is not revoked. -/
theorem findByPrefix_must (box : String) :
    (storeOr .invalidToken (.findByPrefix box)).Must (exec cfg.env)
      (fun v w' => w.now ≤ w'.now ∧ ∃ t ∈ newest APITokenRow.createdAt
        (w.db.apiTokens.select fun t => t.tokenPrefix = box && t.revokedAt.isNone), v =
          t.token) w := by
  refine must_passes (passes_storeOr _ (.findByPrefix box)) ?_
  intro c v hv
  have hanswer := (exec_store_ok hv).1
  rw [Store.exec_findByPrefix, Store.found_eq_ok, Option.map_eq_some_iff] at hanswer
  rcases hanswer with ⟨t, ht, rfl⟩
  exact ⟨exec_now_le _ _ c w, t, mem_of_limitOne ht, rfl⟩

/-- A token that passes the check of its expiry had not expired when the check began. -/
theorem requireUnexpired_must (expiresAt : Option Time) :
    (requireUnexpired expiresAt).Must (exec cfg.env)
      (fun _ _ => ∀ e, expiresAt = some e → w.now ≤ e) w := by
  cases expiresAt with
  | none => exact .done fun e h => by cases h
  | some expires =>
      refine safe_bind (must_now (Q := fun t' _ => w.now ≤ t') fun w' h _ => h) fun t' w' ht' => ?_
      refine safe_failIf ?_
      intro h e heq
      cases heq
      have hle : t' ≤ expires := by simpa using h
      exact le_trans ht' hle

theorem validateApiToken_must (secret : String) :
    (validateApiToken cfg secret).Must (exec cfg.env)
      (fun v _ => ∃ box rest, splitToken secret = some (box, rest) ∧
        ∃ t ∈ newest APITokenRow.createdAt (w.db.apiTokens.select fun t =>
          t.tokenPrefix = box && t.revokedAt.isNone),
        (∀ e, t.expiresAt = some e → w.now ≤ e) ∧
        cfg.env.compare t.tokenHash (box ++ rest) = true ∧ v.1 = t.userID.string) w := by
  unfold validateApiToken
  split
  · exact .fail
  · rename_i box rest hsplit
    refine safe_bind (findByPrefix_must box) fun v w₁ hv => ?_
    rcases hv with ⟨hnow, t, ht, rfl⟩
    refine safe_bind (safe_failIf (Q := fun _ w₂ => w₂ = w₁) fun _ => rfl) fun _ w₂ hw₂ => ?_
    subst hw₂
    refine safe_bind (requireUnexpired_must t.token.expiresAt) fun _ w₃ hexpires => ?_
    refine safe_bind (safe_failIf (Q := fun _ _ =>
      cfg.env.compare t.token.tokenHash (box ++ rest) = true) fun h => by simpa using h)
      fun _ w₄ hcompare => ?_
    exact .done ⟨box, rest, hsplit, t, ht, fun e he => hnow.trans (hexpires e he), hcompare, rfl⟩

/-- The first checks of a verification: some newest challenge is live and carries the code. -/
theorem matchChallenge_must (identifier channel code : String) :
    (matchChallenge cfg identifier channel code).Must (exec cfg.env)
      (fun _ w' => w'.db = w.db ∧ ∃ r ∈ newest ChallengeRow.createdAt
        (w.db.challenges.select (ChallengeRow.addressedTo identifier channel)),
        w.now ≤ r.expiresAt ∧ r.attempts < maxOTPAttempts ∧
        cfg.env.compare r.codeHash code = true) w := by
  have hfind : (storeOr .invalidOTPCode (.getLatestChallenge identifier channel)).Must
      (exec cfg.env) (fun v w' => w.now ≤ w'.now ∧ w'.db = w.db ∧
        ∃ r ∈ newest ChallengeRow.createdAt
          (w.db.challenges.select (ChallengeRow.addressedTo identifier channel)),
          v = r.challenge) w := by
    refine must_passes (passes_storeOr _ (.getLatestChallenge identifier channel)) ?_
    intro c v hv
    rcases exec_store_ok hv with ⟨hanswer, hdb⟩
    rw [Store.exec_getLatestChallenge] at hanswer hdb
    rw [Store.found_eq_ok, Option.map_eq_some_iff] at hanswer
    rcases hanswer with ⟨r, hr, rfl⟩
    exact ⟨exec_now_le _ _ c w, hdb, r, mem_of_limitOne hr, rfl⟩
  refine safe_bind hfind fun ch w₁ hch => ?_
  rcases hch with ⟨hnow, hdb, r, hr, rfl⟩
  -- the clock has moved on since the lookup, so a code that passes now was live then
  refine safe_bind (must_now (Q := fun t w₂ => w₁.now ≤ t ∧ w₂.db = w₁.db)
    fun w' h hdb' => ⟨h, hdb'⟩) fun t w₂ ht => ?_
  rcases ht with ⟨ht, hdb₂⟩
  refine safe_bind (safe_failIf (Q := fun _ w₃ => w₃ = w₂ ∧ t ≤ r.expiresAt)
    fun h => ⟨rfl, not_lt.1 (of_decide_eq_false h)⟩) fun _ w₃ h₃ => ?_
  rcases h₃ with ⟨rfl, hexpires⟩
  refine safe_bind (safe_failIf (Q := fun _ w₄ => w₄ = w₃ ∧ r.attempts < maxOTPAttempts)
    fun h => ⟨rfl, not_le.1 (of_decide_eq_false h)⟩) fun _ w₄ h₄ => ?_
  rcases h₄ with ⟨rfl, hattempts⟩
  split
  · rename_i hcompare
    exact .done ⟨hdb₂.trans hdb, r, hr, le_trans hnow (le_trans ht hexpires), hattempts, hcompare⟩
  · exact safe_bind (must_true _ w₄) fun _ _ _ => .fail

/-- The account of a one-time code: a row with that address, or a new one. -/
def Owns (identifier channel : String) (w : World) (userID : String) : Prop :=
  (∃ r ∈ w.db.users, userID = r.id.string ∧
    ((channel = channelEmail ∧ r.email = some identifier) ∨
      (channel = channelSMS ∧ r.mobile = some identifier))) ∨
  ∃ id, userID = id.string ∧ ∀ r ∈ w.db.users, r.id ≠ id

theorem findOrCreate_must (identifier channel : String) :
    (findOrCreate identifier channel).Must (exec cfg.env)
      (fun user _ => Owns identifier channel w user.id) w := by
  unfold findOrCreate
  split
  · rename_i hchannel
    refine must_call fun c => ?_
    cases hres : (exec cfg.env (.store (.findByEmail identifier)) c w).1 with
    | ok user =>
        rcases Store.exec_findByEmail_ok (exec_store_ok hres).1 with ⟨r, hr, hemail, rfl⟩
        exact .done (.inl ⟨r, hr, rfl, .inl ⟨hchannel, hemail⟩⟩)
    -- no account: the one that is created gets an identifier nobody had
    | error e =>
        dsimp only [Program.bind]
        split
        · refine must_passes (passes_store (.createByEmail identifier)) ?_
          intro c' v hv
          obtain ⟨rfl, hfree, _⟩ :=
            Store.execCreate_ok (a := .email identifier) (exec_store_ok hv).1
          rw [exec_store_error hres] at hfree
          exact .inr ⟨c'.id, rfl, hfree⟩
        · exact .fail
  · split
    · rename_i hchannel
      refine must_call fun c => ?_
      cases hres : (exec cfg.env (.store (.findByMobile identifier)) c w).1 with
      | ok user =>
          rcases Store.exec_findByMobile_ok (exec_store_ok hres).1 with ⟨r, hr, hmobile, rfl⟩
          exact .done (.inl ⟨r, hr, rfl, .inr ⟨hchannel, hmobile⟩⟩)
      | error e =>
          dsimp only [Program.bind]
          split
          · refine must_passes (passes_store (.createByMobile identifier)) ?_
            intro c' v hv
            obtain ⟨rfl, hfree, _⟩ :=
              Store.execCreate_ok (a := .mobile identifier) (exec_store_ok hv).1
            rw [exec_store_error hres] at hfree
            exact .inr ⟨c'.id, rfl, hfree⟩
          · exact .fail
    · exact .fail

theorem verifyOTP_must (identifier channel code : String) :
    (verifyOTP cfg identifier channel code).Must (exec cfg.env)
      (fun pair _ => trimSpace identifier ≠ "" ∧ code ≠ "" ∧
        Owns (trimSpace identifier) (trimSpace channel) w pair.access.claims.subject ∧
        ∃ r ∈ newest ChallengeRow.createdAt (w.db.challenges.select
          (ChallengeRow.addressedTo (trimSpace identifier) (trimSpace channel))),
        w.now ≤ r.expiresAt ∧ r.attempts < maxOTPAttempts ∧
        cfg.env.compare r.codeHash code = true) w := by
  refine safe_bind (safe_failIf (Q := fun _ w' => w' = w ∧ trimSpace identifier ≠ "" ∧
    code ≠ "") fun h => ⟨rfl, ?_⟩) fun _ w' h => ?_
  · simp only [Bool.or_eq_false_iff, decide_eq_false_iff_not] at h
    exact ⟨h.1.1, h.2⟩
  rcases h with ⟨rfl, hident, hcode⟩
  refine safe_bind (matchChallenge_must _ _ _) fun res w₁ h₁ => ?_
  rcases h₁ with ⟨hdb₁, hchallenge⟩
  -- consuming the challenge leaves the users alone
  refine safe_bind (must_passes (passes_store (.consumeChallenge res.1.id))
    (Q := fun _ w₂ => w₂.db.users = w₁.db.users) ?_) fun _ w₂ husers => ?_
  · intro c v hv
    rw [(exec_store_ok hv).2]
    exact Store.exec_same (n := .users) (by simp [Store.Op.writes]) _ _ _ _
  refine safe_bind (findOrCreate_must _ _) fun user w₃ howns => ?_
  refine safe_bind (must_true _ w₃) fun _ w₄ _ => ?_
  refine safe_mono ?_ (issueTokens_must user.id w₄)
  intro pair _ hsubject
  refine ⟨hident, hcode, ?_, hchallenge⟩
  rw [hsubject]
  unfold Owns at howns ⊢
  rw [husers, hdb₁] at howns
  rcases howns with ⟨r, hr, hid, hrow⟩ | ⟨id, hid, hnew⟩
  · exact .inl ⟨r, hr, by rw [hid, Uuid.trimSpace_string], hrow⟩
  · exact .inr ⟨id, by rw [hid, Uuid.trimSpace_string], hnew⟩

/-- A verified sign-up was pending. -/
theorem verifySignup_must (email code password : String) :
    (verifySignup cfg email code password).Must (exec cfg.env)
      (fun pair _ => ∃ r ∈ w.db.users, r.status = .signupPending ∧
        pair.access.claims.subject = r.id.string) w := by
  refine safe_bind (safe_failIf (Q := fun _ w' => w' = w) fun _ => rfl) fun _ w' hw => ?_
  subst hw
  refine safe_bind (safe_failIf (Q := fun _ w₁ => w₁ = w') fun _ => rfl) fun _ w₁ hw => ?_
  subst hw
  refine safe_bind (matchChallenge_must _ _ _) fun res w₂ h₂ => ?_
  have hmatch : (matchSignup cfg res.1 (cfg.env.normalizeEmail email) password).Must
      (exec cfg.env) (fun user _ => ∃ r ∈ w₂.db.users, r.status = .signupPending ∧
        user.id = r.id.string) w₂ := by
    -- a rejected sign-up counts an attempt and fails
    have hreject : ∀ w, (rejectSignup res.1).Must (exec cfg.env) (fun user _ =>
        ∃ r ∈ w₂.db.users, r.status = .signupPending ∧ user.id = r.id.string) w :=
      fun w => safe_bind (must_true _ w) fun _ _ _ => .fail
    refine must_call fun c => ?_
    cases hres : (exec cfg.env (.store (.findByEmail (cfg.env.normalizeEmail email))) c w₂).1 with
    | error e => exact hreject _
    | ok user =>
        rcases Store.exec_findByEmail_ok (exec_store_ok hres).1 with ⟨r, hr, hemail, rfl⟩
        dsimp only [Program.bind]
        split
        · exact hreject _
        · rename_i hcheck
          refine .done ⟨r, hr, ?_, rfl⟩
          by_contra hne
          exact hcheck (by simp [UserRow.user, hne])
  refine safe_bind hmatch fun user w₃ hrow => ?_
  rcases hrow with ⟨r, hr, hpending, hid⟩
  rw [h₂.1] at hr
  refine safe_bind (must_true _ w₃) fun _ w₄ _ => ?_
  refine safe_bind (must_true _ w₄) fun _ w₅ _ => ?_
  refine safe_mono ?_ (issueTokens_must user.id w₅)
  intro pair _ hsubject
  exact ⟨r, hr, hpending, by rw [hsubject, hid, Uuid.trimSpace_string]⟩

/-- A password login is the one path that asks for the disabled status. -/
theorem loginWithPassword_must (identifier password : String) :
    (loginWithPassword cfg identifier password).Must (exec cfg.env)
      (fun pair _ => ∃ r ∈ w.db.users, r.status ≠ .disabled ∧
        pair.access.claims.subject = r.id.string) w := by
  refine safe_bind (safe_failIf (Q := fun _ w' => w' = w) fun _ => rfl) fun _ w' hw => ?_
  subst hw
  have hfind : (findByIdentifier cfg (trimSpace identifier)).Must (exec cfg.env)
      (fun user _ => ∃ r ∈ w'.db.users, user = r.user) w' := by
    unfold findByIdentifier
    split
    -- the two lookups differ in the column only
    · refine must_passes (passes_storeOr _ (.findByMobile (trimSpace identifier))) ?_
      intro c v hv
      rcases Store.exec_findByMobile_ok (exec_store_ok hv).1 with ⟨r, hr, _, hv⟩
      exact ⟨r, hr, hv⟩
    · refine must_passes (passes_storeOr _ (.findByEmail _)) ?_
      intro c v hv
      rcases Store.exec_findByEmail_ok (exec_store_ok hv).1 with ⟨r, hr, _, hv⟩
      exact ⟨r, hr, hv⟩
  refine safe_bind hfind fun user w₁ hrow => ?_
  rcases hrow with ⟨r, hr, rfl⟩
  refine safe_bind (must_true _ w₁) fun _ w₂ _ => ?_
  refine safe_bind (safe_failIf (Q := fun _ _ => r.status ≠ .disabled)
    fun h => of_decide_eq_false h) fun _ w₃ hstatus => ?_
  refine safe_bind (must_true _ w₃) fun _ w₄ _ => ?_
  refine safe_bind (must_true _ w₄) fun _ w₅ _ => ?_
  refine safe_mono ?_ (issueTokens_must _ w₅)
  intro pair _ hsubject
  exact ⟨r, hr, hstatus, by rw [hsubject]; exact Uuid.trimSpace_string r.id⟩

/-- Whatever the environment does, a reply for a disabled account took a live credential. -/
theorem program_must {u : UserRow} (hu : u ∈ w.db.users) (hdisabled : u.status = .disabled)
    (call : Call) :
    (call.program cfg).Must (exec cfg.env)
      (fun reply _ => identifies u.id.string reply = true → LiveCredential cfg w u call) w := by
  have hrow : ∀ r ∈ w.db.users, r.id.string = u.id.string → r = u := by
    intro r hr hid
    exact eq_of_key hr hu (Uuid.string_injective hid)
  cases call with
  | verifyOTP identifier channel code =>
      refine safe_map (safe_mono ?_ (verifyOTP_must identifier channel code))
      rintro pair _ ⟨hident, hcode, howns, r, hr, hexpires, hattempts, hcompare⟩ hid
      have hsubject : pair.access.claims.subject = u.id.string := identifies_tokens.1 hid
      rw [hsubject] at howns
      rcases howns with ⟨r', hr', hid', haddress⟩ | ⟨id, hid', hnew⟩
      · rw [hrow r' hr' hid'.symm] at haddress
        exact .code r hident hcode haddress hr hexpires hattempts hcompare
      · -- an account the call created is not one that existed before
        exact absurd (Uuid.string_injective hid') (hnew u hu)
  | refresh token =>
      refine safe_map (safe_mono ?_ (refresh_must token))
      rintro pair _ ⟨r, hr, hvalid, hsubject⟩ hid
      have hu' : r.userID = u.id :=
        Uuid.string_injective (hsubject.symm.trans (identifies_tokens.1 hid))
      exact .session r hr hu' hvalid
  | selectOrg userID token orgID =>
      refine safe_map (safe_mono ?_ (selectOrg_must userID token orgID))
      rintro pair _ ⟨r, hr, m, hm, hvalid, hcaller, horg, hmu, hactive, hsubject⟩ hid
      have hu' : r.userID = u.id :=
        Uuid.string_injective (hsubject.symm.trans (identifies_tokens.1 hid))
      exact .switch r m (hu' ▸ hcaller) hr hu' hvalid hm horg (hmu.trans hu') hactive
  | validateApiToken secret =>
      refine safe_map (safe_mono ?_ (validateApiToken_must secret))
      rintro v _ ⟨box, rest, hsplit, t, ht, hexpires, hcompare, hv⟩ hid
      have hu' : t.userID = u.id :=
        Uuid.string_injective (hv.symm.trans (identifies_identity.1 hid))
      exact .apiToken t hsplit ht hu' hexpires hcompare
  | loginWithPassword identifier password =>
      -- a password and a sign-up code are refused for the status of the account
      refine safe_map (safe_mono ?_ (loginWithPassword_must identifier password))
      rintro pair _ ⟨r, hr, hstatus, hsubject⟩ hid
      have hru := hrow r hr (hsubject.symm.trans (identifies_tokens.1 hid))
      rw [hru] at hstatus
      exact absurd hdisabled hstatus
  | verifySignup email code password =>
      refine safe_map (safe_mono ?_ (verifySignup_must email code password))
      rintro pair _ ⟨r, hr, hpending, hsubject⟩ hid
      have hru := hrow r hr (hsubject.symm.trans (identifies_tokens.1 hid))
      rw [hru, hdisabled] at hpending
      cases hpending
  | _ =>
      -- the other calls return neither tokens nor an identity
      refine safe_map (safe_mono ?_ (must_true _ w))
      intro _ _ _ hid
      cases hid

end Must

/-! ## What the environment can bring about -/

section May

variable {cfg : Config} {w : World}

/-- There is room for one more session. -/
def Room (w : World) : Prop :=
  ∃ id, ∀ r ∈ w.db.refreshTokens, r.id ≠ id

/-- The text of an organization a session can be stored with. -/
def OrgText (orgID : String) : Prop :=
  orgID = "" ∨ (trimSpace orgID = orgID ∧ ∃ org, Uuid.parse orgID = some org)

theorem sign_of_orgText (env : Env) (u : Uuid) {orgID : String} (horg : OrgText orgID)
    (expires now : Time) :
    ∃ token, signAccessTokenWithOrg env.keyID u.string orgID expires now = .ok token ∧
      token.claims.subject = u.string := by
  have hcanonical : ∃ org, canonicalOrg orgID = .ok org := by
    unfold canonicalOrg
    rcases horg with rfl | ⟨htrim, org, hparse⟩
    · exact ⟨"", rfl⟩
    · rw [htrim, hparse]
      split
      · exact ⟨"", rfl⟩
      · exact ⟨org.string, rfl⟩
  rcases hcanonical with ⟨org, hcanonical⟩
  have hkey := env.keyID_nonblank
  simp [signAccessTokenWithOrg, hkey, Uuid.string_ne_empty, hcanonical]

/-- With room for a session, issuing a pair can succeed. -/
theorem issueTokensForOrg_may (u : Uuid) {orgID : String} (horg : OrgText orgID)
    (hroom : Room w) :
    (issueTokensForOrg cfg u.string orgID).May (exec cfg.env)
      (fun pair _ => pair.access.claims.subject = u.string) w := by
  rcases hroom with ⟨id, hfree⟩
  have hnow : now.May (exec cfg.env) (fun _ w' => w'.db = w.db) w := .call {} (.done rfl)
  refine may_bind hnow fun t w₁ hdb₁ => ?_
  -- the signer refuses no organization that the service can have stored
  rcases sign_of_orgText cfg.env u horg (t + accessTokenTTL) (max w₁.now 0) with
    ⟨token, htoken, hsubject⟩
  have hsign : (sign u.string orgID (t + accessTokenTTL)).May (exec cfg.env)
      (fun access w' => access = token ∧ w'.db = w₁.db) w₁ := by
    have hexec : exec cfg.env (.sign u.string orgID (t + accessTokenTTL)) {} w₁ =
        (.ok token, { w₁.advance 0 with issued := w₁.issued ++ [token] }) := by
      simp only [exec, answer, execSign, attempt, Bool.false_eq_true, if_false]
      rw [show (w₁.advance 0).now = max w₁.now 0 from rfl, htoken]
      rfl
    refine .call {} ?_
    rw [hexec]
    exact .done ⟨rfl, rfl⟩
  refine may_bind hsign fun access w₂ h₂ => ?_
  rcases h₂ with ⟨rfl, hdb₂⟩
  -- the two halves of the refresh token
  have hid : ∀ w, newID.May (exec cfg.env) (fun _ w' => w'.db = w.db) w :=
    fun _ => .call {} (.done rfl)
  refine may_bind (hid w₂) fun first w₃ hdb₃ => ?_
  refine may_bind (hid w₃) fun second w₄ hdb₄ => ?_
  have hdb : w₄.db = w.db := by rw [hdb₄, hdb₃, hdb₂, hdb₁]
  refine may_bind (M := fun _ _ => True) (may_passes (passes_store _) { id := id } rfl
    (Store.exec_storeRefresh_of_free ?_ ?_ ?_) trivial) fun _ _ _ => .done hsubject
  · rcases horg with h | ⟨_, org, h⟩
    · exact .inl h
    · exact .inr ⟨org, h⟩
  · exact Nat.ne_of_gt (Nat.add_pos_right t (by decide))
  · rw [hdb]
    exact hfree

theorem issueTokens_may (u : Uuid) (hroom : Room w) :
    (issueTokens cfg u.string).May (exec cfg.env)
      (fun pair _ => pair.access.claims.subject = u.string) w := by
  -- a failing membership lookup selects no organization
  have horg : (loginOrg cfg u.string).May (exec cfg.env)
      (fun org w' => org = "" ∧ w'.db = w.db) w := by
    unfold loginOrg
    split
    · refine may_bind (may_tryStore_fails _) ?_
      rintro r w' ⟨rfl, hdb⟩
      exact .done ⟨rfl, hdb⟩
    · exact .done ⟨rfl, rfl⟩
  refine may_bind horg ?_
  rintro org w' ⟨rfl, hdb⟩
  refine issueTokensForOrg_may u (.inl rfl) ?_
  unfold Room
  rw [hdb]
  exact hroom

theorem findValid_may {e : Err} {tokenHash : String} (hr : r ∈ w.db.refreshTokens)
    (hvalid : r.valid w.now tokenHash = true) :
    (storeOr e (.findValid tokenHash)).May (exec cfg.env)
      (fun v w' => v = (r.userID.string, (r.orgID.map Uuid.string).getD "") ∧ w'.db = w.db) w := by
  have hmem : r ∈ w.db.refreshTokens.select (RefreshRow.valid w.now tokenHash) :=
    mem_select.2 ⟨hr, hvalid⟩
  rcases limitOne_of_mem hmem with ⟨pick, hpick⟩
  refine may_passes (passes_storeOr _ (.findValid tokenHash)) { pick := pick } rfl
    (v := (r.userID.string, (r.orgID.map Uuid.string).getD "")) ?_ ?_
  · rw [Store.exec_findValid, Store.found_eq_ok]
    simp [hpick]
  · rw [Store.exec_findValid]
    exact ⟨rfl, rfl⟩

theorem orgText_getD (org : Option Uuid) : OrgText ((org.map Uuid.string).getD "") := by
  cases org with
  | none => exact .inl rfl
  | some u => exact .inr ⟨Uuid.trimSpace_string u, u, Uuid.parse_string u⟩

/-- Asking for the remembered organization can leave it out. -/
theorem activeOrg_may (u : Uuid) {orgID : String} (horg : OrgText orgID) :
    (activeOrg u.string orgID).May (exec cfg.env) (fun org w' => org = "" ∧ w'.db = w.db) w := by
  unfold activeOrg
  split
  · exact .done ⟨rfl, rfl⟩
  · rename_i hne
    have htrim : trimSpace orgID ≠ "" := by
      rcases horg with h | ⟨h, _⟩
      · contradiction
      · rwa [h]
    refine may_bind
      (M := fun r w' => r = .error .dependency ∧ w'.db = w.db) ?_ ?_
    · have hchecked : failIf (trimSpace orgID = "" || trimSpace u.string = "")
          (.message "org_id and user_id required") = .done () := by
        simp [failIf, htrim, Uuid.string_ne_empty]
      unfold isActiveMember
      rw [hchecked]
      exact .call { fails := true } (.done ⟨rfl, rfl⟩)
    · rintro r w' ⟨rfl, hdb⟩
      exact .done ⟨rfl, hdb⟩

theorem refresh_may {token : String} (hroom : Room w) (hr : r ∈ w.db.refreshTokens)
    (hvalid : r.valid w.now (cfg.env.hashRefreshToken token) = true) :
    (refresh cfg token).May (exec cfg.env)
      (fun pair _ => pair.access.claims.subject = r.userID.string) w := by
  refine may_bind (findValid_may hr hvalid) ?_
  rintro v w₁ ⟨rfl, hdb₁⟩
  refine may_bind (may_ignore_fails _) fun _ w₂ hdb₂ => ?_
  refine may_bind (activeOrg_may r.userID (orgText_getD r.orgID)) ?_
  rintro org w₃ ⟨rfl, hdb₃⟩
  refine issueTokensForOrg_may r.userID (.inl rfl) ?_
  unfold Room
  rw [hdb₃, hdb₂, hdb₁]
  exact hroom

theorem isActiveMember_may {orgID userID : String} {m : MembershipRow}
    (hm : m ∈ w.db.memberships) (horg : Uuid.parse (trimSpace orgID) = some m.orgID)
    (huser : trimSpace userID = m.userID.string) (hactive : m.status = .active) :
    (isActiveMember orgID userID).May (exec cfg.env)
      (fun active w' => active = true ∧ w'.db = w.db ∧ w'.now = w.now) w := by
  have hblank : (trimSpace orgID = "" || trimSpace userID = "") = false := by
    simp [Uuid.ne_empty_of_parse horg, huser, Uuid.string_ne_empty]
  refine may_bind (may_failIf (Q := fun _ w' => w' = w) hblank rfl) ?_
  rintro _ w' rfl
  obtain ⟨c, hc, htime⟩ : ∃ c : Choice, c.fails = false ∧ c.now = 0 := ⟨{}, rfl, rfl⟩
  have hanswer : ((Store.Op.getMembership (trimSpace orgID) (trimSpace userID)).exec cfg.env
      (max w'.now c.now) c.id c.pick w'.db).1 = .ok m.membership :=
    Store.exec_getMembership_of_mem hm horg (huser ▸ Uuid.parse_string m.userID)
  refine may_bind (may_tryStore c hc hanswer) fun r w₁ hr => ?_
  rcases hr with ⟨hr, hw₁⟩
  rw [hr]
  refine .done ⟨?_, ?_, ?_⟩
  · simp [MembershipRow.membership, hactive]
  · rw [hw₁]
    exact Store.exec_reads (o := .getMembership (trimSpace orgID) (trimSpace userID)) rfl _ _ _ _
  · simp [hw₁, World.advance, htime]

theorem selectOrg_may {u : Uuid} {userID token orgID : String} {m : MembershipRow}
    (hroom : Room w) (huser : trimSpace userID = u.string) (hr : r ∈ w.db.refreshTokens)
    (hru : r.userID = u) (hvalid : r.valid w.now (cfg.env.hashRefreshToken token) = true)
    (hm : m ∈ w.db.memberships) (horg : Uuid.parse (trimSpace orgID) = some m.orgID)
    (hmu : m.userID = u) (hactive : m.status = .active) :
    (selectOrg cfg userID token orgID).May (exec cfg.env)
      (fun pair _ => pair.access.claims.subject = u.string) w := by
  have hblank : (trimSpace userID = "" || trimSpace orgID = "") = false := by
    simp [Uuid.ne_empty_of_parse horg, huser, Uuid.string_ne_empty]
  refine may_bind (may_failIf (Q := fun _ w' => w' = w) hblank rfl) ?_
  rintro _ w' rfl
  refine may_bind (isActiveMember_may hm (by simpa using horg)
    (by simpa [hmu] using huser) hactive) ?_
  rintro active w₁ ⟨rfl, hdb₁, hnow₁⟩
  refine may_bind (may_failIf (Q := fun _ w₂ => w₂ = w₁) rfl rfl) ?_
  rintro _ w₂ rfl
  -- nothing has been written and no time has passed since the session was checked
  rw [← hdb₁] at hr
  rw [← hnow₁] at hvalid
  refine may_bind (findValid_may hr hvalid) ?_
  rintro v w₃ ⟨rfl, hdb₃⟩
  have hsame : decide (r.userID.string ≠ trimSpace userID) = false := by simp [hru, huser]
  refine may_bind (may_failIf (Q := fun _ w₄ => w₄ = w₃) hsame rfl) ?_
  rintro _ w₄ rfl
  refine may_bind (may_ignore_fails _) fun _ w₅ hdb₅ => ?_
  rw [huser]
  refine issueTokensForOrg_may u (.inr ⟨trimSpace_trimSpace orgID, m.orgID, horg⟩) ?_
  unfold Room
  rw [hdb₅, hdb₃, hdb₁]
  exact hroom

theorem validateApiToken_may {secret box rest : String} {t : APITokenRow}
    (hsplit : splitToken secret = some (box, rest))
    (ht : t ∈ newest APITokenRow.createdAt (w.db.apiTokens.select fun t =>
      t.tokenPrefix = box && t.revokedAt.isNone))
    (hexpires : ∀ e, t.expiresAt = some e → w.now ≤ e)
    (hcompare : cfg.env.compare t.tokenHash (box ++ rest) = true) :
    (validateApiToken cfg secret).May (exec cfg.env) (fun v _ => v.1 = t.userID.string) w := by
  rcases limitOne_of_mem ht with ⟨pick, hpick⟩
  -- the lookup leaves revoked tokens out, so this check never fires
  have hlive : t.revokedAt.isSome = false := by
    have hsel := (mem_select.1 (List.mem_filter.1 ht).1).2
    simp only [Bool.and_eq_true] at hsel
    simpa using hsel.2
  unfold validateApiToken
  rw [hsplit]
  refine may_bind (M := fun v w' => v = t.token ∧ w'.now = w.now)
    (may_passes (passes_storeOr _ (.findByPrefix box)) { pick := pick } rfl (v := t.token)
      ?_ ⟨rfl, ?_⟩) ?_
  · rw [Store.exec_findByPrefix, Store.found_eq_ok]
    simp [hpick]
  · simp [World.advance]
  rintro v w₁ ⟨rfl, hnow₁⟩
  refine may_bind (may_failIf (Q := fun _ w₂ => w₂ = w₁) hlive rfl) ?_
  rintro _ w₂ rfl
  have hunexpired : (requireUnexpired t.token.expiresAt).May (exec cfg.env)
      (fun _ _ => True) w₂ := by
    cases he : t.expiresAt with
    | none =>
        have hnone : t.token.expiresAt = none := he
        rw [hnone]
        exact .done trivial
    | some expires =>
        have hsome : t.token.expiresAt = some expires := he
        rw [hsome]
        have hnow : now.May (exec cfg.env) (fun t' _ => t' = w₂.now) w₂ :=
          .call {} (.done (by simp [exec, answer, World.advance]))
        refine may_bind hnow fun t' w₃ ht' => ?_
        refine may_failIf ?_ trivial
        have hle : w₂.now ≤ expires := hnow₁ ▸ hexpires expires he
        rw [ht']
        exact decide_eq_false (not_lt.2 hle)
  refine may_bind hunexpired fun _ w₃ _ => ?_
  have hmatch : (!cfg.env.compare t.token.tokenHash (box ++ rest)) = false := by
    rw [show t.token.tokenHash = t.tokenHash from rfl, hcompare]
    rfl
  exact may_bind (may_failIf (Q := fun _ _ => True) hmatch trivial) fun _ _ _ => .done rfl

theorem matchChallenge_may {identifier channel code : String} {r : ChallengeRow}
    (hr : r ∈ newest ChallengeRow.createdAt
      (w.db.challenges.select (ChallengeRow.addressedTo identifier channel)))
    (hexpires : w.now ≤ r.expiresAt) (hattempts : r.attempts < maxOTPAttempts)
    (hcompare : cfg.env.compare r.codeHash code = true) :
    (matchChallenge cfg identifier channel code).May (exec cfg.env)
      (fun res w' => res.1 = r.challenge ∧ w'.db = w.db) w := by
  -- of several newest challenges the database picks this one
  rcases limitOne_of_mem hr with ⟨pick, hpick⟩
  refine may_bind (M := fun ch w' => ch = r.challenge ∧ w'.db = w.db ∧ w'.now = w.now)
    (may_passes (passes_storeOr _ (.getLatestChallenge identifier channel)) { pick := pick } rfl
      (v := r.challenge) ?_ ⟨rfl, ?_, ?_⟩) ?_
  · rw [Store.exec_getLatestChallenge, Store.found_eq_ok]
    simp [hpick]
  · rw [Store.exec_getLatestChallenge]
  · simp [World.advance]
  rintro ch w₁ ⟨rfl, hdb₁, hnow₁⟩
  have hnow : now.May (exec cfg.env) (fun t w₂ => t = w₁.now ∧ w₂.db = w₁.db) w₁ :=
    .call {} (.done ⟨by simp [exec, answer, World.advance], rfl⟩)
  refine may_bind hnow ?_
  rintro t w₂ ⟨rfl, hdb₂⟩
  have hunexpired : decide (r.challenge.expiresAt < w₁.now) = false :=
    decide_eq_false (not_lt.2 (hnow₁ ▸ hexpires))
  refine may_bind (may_failIf (Q := fun _ w₃ => w₃ = w₂) hunexpired rfl) ?_
  rintro _ w₃ rfl
  have hleft : decide (maxOTPAttempts ≤ r.challenge.attempts) = false :=
    decide_eq_false (not_le.2 hattempts)
  refine may_bind (may_failIf (Q := fun _ w₄ => w₄ = w₃) hleft rfl) ?_
  rintro _ w₄ rfl
  have hmatch : cfg.env.compare r.challenge.codeHash code = true := hcompare
  rw [if_pos hmatch]
  exact .done ⟨rfl, hdb₂.trans hdb₁⟩

theorem findOrCreate_may {u : UserRow} {identifier channel : String} (hdb : w.db.Integrity)
    (hu : u ∈ w.db.users)
    (haddress : (channel = channelEmail ∧ u.email = some identifier) ∨
      (channel = channelSMS ∧ u.mobile = some identifier)) :
    (findOrCreate identifier channel).May (exec cfg.env)
      (fun user w' => user = u.user ∧ w'.db = w.db) w := by
  unfold findOrCreate
  rcases haddress with ⟨rfl, h⟩ | ⟨rfl, h⟩
  · rw [if_pos rfl]
    refine may_bind (may_tryStore {} rfl (Store.exec_findByEmail_of_mem hdb hu h))
      fun r w' hr => ?_
    rw [hr.1]
    exact .done ⟨rfl, by rw [hr.2, Store.exec_findByEmail]⟩
  · rw [if_neg (by decide), if_pos rfl]
    refine may_bind (may_tryStore {} rfl (Store.exec_findByMobile_of_mem hdb hu h))
      fun r w' hr => ?_
    rw [hr.1]
    exact .done ⟨rfl, by rw [hr.2, Store.exec_findByMobile]⟩

theorem verifyOTP_may {u : UserRow} {identifier channel code : String} {r : ChallengeRow}
    (hroom : Room w) (hdb : w.db.Integrity) (hu : u ∈ w.db.users)
    (hdisabled : u.status = .disabled)
    (hident : trimSpace identifier ≠ "") (hcode : code ≠ "")
    (haddress : (trimSpace channel = channelEmail ∧ u.email = some (trimSpace identifier)) ∨
      (trimSpace channel = channelSMS ∧ u.mobile = some (trimSpace identifier)))
    (hr : r ∈ newest ChallengeRow.createdAt (w.db.challenges.select
      (ChallengeRow.addressedTo (trimSpace identifier) (trimSpace channel))))
    (hexpires : w.now ≤ r.expiresAt) (hattempts : r.attempts < maxOTPAttempts)
    (hcompare : cfg.env.compare r.codeHash code = true) :
    (verifyOTP cfg identifier channel code).May (exec cfg.env)
      (fun pair _ => pair.access.claims.subject = u.id.string) w := by
  have hchannel : trimSpace channel ≠ "" := by
    rcases haddress with ⟨h, _⟩ | ⟨h, _⟩ <;> rw [h] <;> decide
  have hblank : (trimSpace identifier = "" || trimSpace channel = "" || code = "") = false := by
    simp [hident, hchannel, hcode]
  refine may_bind (may_failIf (Q := fun _ w' => w' = w) hblank rfl) ?_
  rintro _ w' rfl
  refine may_bind (matchChallenge_may hr hexpires hattempts hcompare) ?_
  rintro ⟨ch, t⟩ w₁ ⟨hch, hdb₁⟩
  dsimp only at hch
  subst hch
  -- consuming the challenge is the only write before the account is looked up
  have hparse : Uuid.parse r.challenge.id = some r.id := Uuid.parse_string r.id
  refine may_bind (M := fun _ w₂ => w₂.db = w₁.db.apply (.delChallenge r.id))
    (may_passes (passes_store (.consumeChallenge r.challenge.id)) {} rfl (v := ()) ?_ ?_)
    fun _ w₂ hdb₂ => ?_
  · rw [Store.exec_consumeChallenge hparse]
  · rw [Store.exec_consumeChallenge hparse]
  rw [hdb₁] at hdb₂
  have hdb' : w₂.db.Integrity := by
    rw [hdb₂]
    exact ⟨hdb.email, hdb.mobile, hdb.inviteToken, hdb.membershipOrg, hdb.membershipUser,
      hdb.inviteOrg, hdb.inviter, hdb.apiTokenUser⟩
  have hu' : u ∈ w₂.db.users := by
    rw [hdb₂]
    exact hu
  refine may_bind (findOrCreate_may hdb' hu' haddress) ?_
  rintro user w₃ ⟨rfl, hdb₃⟩
  have hstatus : decide (u.user.status = .signupPending) = false := by
    simp [UserRow.user, hdisabled]
  refine may_bind (may_failIf (Q := fun _ w₄ => w₄ = w₃) hstatus rfl) ?_
  rintro _ w₄ rfl
  refine issueTokens_may u.id ?_
  unfold Room
  rw [hdb₃, hdb₂]
  exact hroom

end May

/-! ## The result -/

/-- A disabled account is locked out of a call exactly when the caller presents no live credential
of it. -/
theorem disabled_lockedOut_iff {cfg : Config} {w : World} {u : UserRow} (hdb : w.db.Integrity)
    (hroom : Room w) (hu : u ∈ w.db.users) (hdisabled : u.status = .disabled) (call : Call) :
    ¬ Authenticates cfg w u call ↔ ¬ LiveCredential cfg w u call := by
  refine not_congr ⟨?_, ?_⟩
  -- no choice of the environment gets around the checks
  · rintro ⟨choices, reply, hreply, hid⟩
    exact must_run (program_must hu hdisabled call) choices reply hreply hid
  -- with a live credential there is a choice for which the call goes through
  · intro hlive
    have hmay : (call.program cfg).May (exec cfg.env)
        (fun reply _ => identifies u.id.string reply = true) w := by
      cases hlive with
      | code r hident hcode haddress hr hexpires hattempts hcompare =>
          refine may_map (may_mono ?_ (verifyOTP_may hroom hdb hu hdisabled hident
            hcode haddress hr hexpires hattempts hcompare))
          exact fun pair _ h => identifies_tokens.2 h
      | session r hr hru hvalid =>
          refine may_map (may_mono ?_ (refresh_may hroom hr hvalid))
          exact fun pair _ h => identifies_tokens.2 (hru ▸ h)
      | switch r m huser hr hru hvalid hm horg hmu hactive =>
          refine may_map (may_mono ?_
            (selectOrg_may hroom huser hr hru hvalid hm horg hmu hactive))
          exact fun pair _ h => identifies_tokens.2 h
      | apiToken t hsplit ht htu hexpires hcompare =>
          refine may_map (may_mono ?_
            (validateApiToken_may hsplit ht hexpires hcompare))
          exact fun v _ h => identifies_identity.2 (htu ▸ h)
    rcases Program.may_run hmay with ⟨choices, reply, hreply, hid⟩
    exact ⟨choices, reply, hreply, hid⟩

/-- No credential path succeeds for a disabled account. -/
def LockedOut (cfg : Config) : Prop :=
  ∀ w u call, w.db.Integrity → u ∈ w.db.users → u.status = .disabled →
    ¬ Authenticates cfg w u call

/-! ## An account that was disabled while it had a session -/

def disabledUser : UserRow where
  id := Uuid.ofNat 1
  email := some "ann@example.com"
  mobile := none
  passwordHash := some "bcrypt:password"
  displayName := none
  status := .disabled
  emailVerifiedAt := none
  createdAt := 0
  updatedAt := 0
  lastLoginAt := none

def session : RefreshRow where
  id := Uuid.ofNat 2
  userID := Uuid.ofNat 1
  orgID := none
  tokenHash := "sha256:token"
  expiresAt := 2000
  revokedAt := none
  createdAt := 0

def disabledWorld : World :=
  { World.empty with
    now := 1000
    db := DB.empty.applyAll [.putUser disabledUser, .putRefresh session] }

theorem mem_disabledUsers {r : UserRow} : r ∈ disabledWorld.db.users ↔ r = disabledUser := by
  change r ∈ [disabledUser] ↔ _
  simp

theorem disabledWorld_integrity : disabledWorld.db.Integrity := by
  constructor
  case email =>
    intro r hr s hs _ _ _
    rw [mem_disabledUsers.1 hr, mem_disabledUsers.1 hs]
  case mobile =>
    intro r hr s hs _ _ _
    rw [mem_disabledUsers.1 hr, mem_disabledUsers.1 hs]
  all_goals
    intro r hr
    exact absurd hr (not_mem_empty r)

theorem disabledWorld_room : Room disabledWorld := by
  refine ⟨Uuid.ofNat 3, ?_⟩
  intro r hr
  change r ∈ [session] at hr
  rw [List.mem_singleton.1 hr]
  decide

theorem disabled_lockedOut_iff_password :
    ¬ Authenticates toyConfig disabledWorld disabledUser
      (.loginWithPassword "ann@example.com" "password") := by
  refine (disabled_lockedOut_iff disabledWorld_integrity disabledWorld_room
    (mem_disabledUsers.2 rfl) rfl _).2 ?_
  intro h
  cases h

set_option maxRecDepth 10000 in
/-- The disabled account exchanges its refresh token. -/
theorem disabled_refreshes : ¬ LockedOut toyConfig := by
  intro h
  refine h disabledWorld disabledUser (.refresh "token") disabledWorld_integrity
    (mem_disabledUsers.2 rfl) rfl ?_
  have hrun : ((Call.refresh "token").perform toyConfig (fun n => { id := Uuid.ofNat (10 + n) })
      disabledWorld).1.toOption.any (identifies disabledUser.id.string) = true := by
    decide +kernel
  cases hres : ((Call.refresh "token").perform toyConfig (fun n => { id := Uuid.ofNat (10 + n) })
      disabledWorld).1 with
  | error e =>
      rw [hres] at hrun
      cases hrun
  | ok reply =>
      rw [hres] at hrun
      exact ⟨_, reply, hres, hrun⟩

end Disabled
end Service
end OrbitAuth
