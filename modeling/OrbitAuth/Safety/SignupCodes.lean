import OrbitAuth.Postgres.Commits
import OrbitAuth.Safety.Superseded
import OrbitAuth.Service.Trails

/-!
# Sign-up codes — what a call does to the codes of an address

A code goes out in two ways: with a new account, and with a repeated registration once the newest
challenge of the address is older than the cooldown.  Every other operation leaves unexpired codes
and the accounts alone, apart from those that spend a code.

* `Quiet` — accounts stay, none becomes unverified again, and unexpired codes stay;
* `exec_quiet` — the operations that are quiet;
* `Mailing` — a registration that has sent a code;
* `registerWithEmail_ends` — how a registration ends when nothing but notifications can fail.
-/

namespace OrbitAuth
namespace Service
namespace SignupCodes

open Domain Foundations Postgres Superseded

variable {c : Choice} {user : User} {t : Time} {o : Store.Op}

/-! ## Accounts and codes -/

/-- No address loses its account, and none that is settled becomes unverified. -/
def AccountsKeep (db db' : DB) : Prop :=
  ∀ address, (∃ r ∈ db.users, r.email = some address) →
    (∃ r ∈ db'.users, r.email = some address) ∧
      ((∀ r ∈ db.users, r.email = some address → r.unverified = false) →
        ∀ r ∈ db'.users, r.email = some address → r.unverified = false)

/-- Codes that are unexpired at `t` stay. -/
def CodesKeep (t : Time) (db db' : DB) : Prop :=
  ∀ ch ∈ db.challenges, t ≤ ch.expiresAt → ∃ ch' ∈ db'.challenges, sameChallenge ch ch' = true

/-- Nobody's account or unexpired code is lost between the two worlds. -/
structure Quiet (w w' : World) : Prop where
  now_le : w.now ≤ w'.now
  accounts : AccountsKeep w.db w'.db
  codes : CodesKeep w'.now w.db w'.db

theorem accountsKeep_refl (db : DB) : AccountsKeep db db :=
  fun _ h => ⟨h, fun hsettled => hsettled⟩

theorem accountsKeep_trans {db₁ db₂ db₃ : DB} (h₁₂ : AccountsKeep db₁ db₂)
    (h₂₃ : AccountsKeep db₂ db₃) :
    AccountsKeep db₁ db₃ := by
  intro address h
  obtain ⟨h', hsettled⟩ := h₁₂ address h
  obtain ⟨h'', hsettled'⟩ := h₂₃ address h'
  exact ⟨h'', fun hs => hsettled' (hsettled hs)⟩

theorem accountsKeep_of_same {db db' : DB} (h : db'.users = db.users) : AccountsKeep db db' := by
  unfold AccountsKeep
  rw [h]
  exact accountsKeep_refl db

theorem codesKeep_of_same {db db' : DB} (h : db'.challenges = db.challenges) (t : Time) :
    CodesKeep t db db' := by
  intro ch hch _
  exact ⟨ch, h ▸ hch, sameChallenge_self ch⟩

theorem quiet_refl (w : World) : Quiet w w :=
  ⟨le_rfl, accountsKeep_refl w.db, codesKeep_of_same rfl _⟩

theorem quiet_trans {w₁ w₂ w₃ : World} (h₁₂ : Quiet w₁ w₂) (h₂₃ : Quiet w₂ w₃) : Quiet w₁ w₃ := by
  refine ⟨h₁₂.now_le.trans h₂₃.now_le, accountsKeep_trans h₁₂.accounts h₂₃.accounts, ?_⟩
  intro ch hch hexpires
  obtain ⟨ch', hch', hsame⟩ := h₁₂.codes ch hch (h₂₃.now_le.trans hexpires)
  have hexpires' : w₃.now ≤ ch'.expiresAt := by
    rw [sameChallenge_iff.mp hsame]
    exact hexpires
  obtain ⟨ch'', hch'', hsame'⟩ := h₂₃.codes ch' hch' hexpires'
  exact ⟨ch'', hch'', sameChallenge_trans hsame hsame'⟩

theorem quiet_advance (w : World) (t : Time) : Quiet w (w.advance t) :=
  ⟨le_max_left _ _, accountsKeep_refl w.db, codesKeep_of_same rfl _⟩

/-! ## The store -/

section Store

variable {env : Env} {now : Time} {id : Uuid} {pick : Nat} {db : DB}

/-- An update that keeps addresses and makes nobody unverified. -/
theorem accounts_update {t : Table UserRow} {p : UserRow → Bool} {f : UserRow → UserRow}
    (hkey : ∀ r, Keyed.key (f r) = Keyed.key r) (hemail : ∀ r, (f r).email = r.email)
    (hsettled : ∀ r, r.unverified = false → (f r).unverified = false) {address : String}
    (h : ∃ r ∈ t, r.email = some address) :
    (∃ r ∈ t.update p f, r.email = some address) ∧
      ((∀ r ∈ t, r.email = some address → r.unverified = false) →
        ∀ r ∈ t.update p f, r.email = some address → r.unverified = false) := by
  refine ⟨?_, ?_⟩
  · obtain ⟨r, hr, haddress⟩ := h
    refine ⟨_, update_mem (p := p) hkey hr, ?_⟩
    split
    · exact (hemail r).trans haddress
    · exact haddress
  · intro hall r hr haddress
    rcases (mem_update hkey).mp hr with ⟨s, hs, _, rfl⟩ | ⟨hr, _⟩
    · exact hsettled s (hall s hs ((hemail s).symm.trans haddress))
    · exact hall r hr haddress

/-- Only a purge and the demo users are an exception. -/
def keepsAccounts : Store.Op → Bool
  | .purgeUnverifiedSignups _ | .upsertDemoUser _ _ _ _ => false
  | _ => true

theorem exec_accounts (ho : keepsAccounts o = true) :
    AccountsKeep db (o.exec env now id pick db).2 := by
  refine Store.exec_rel (R := AccountsKeep) accountsKeep_refl (fun _ _ _ => accountsKeep_trans) ?_
    (Store.body_users now id o) pick db
  intro s pick db v ws hs heval
  unfold AccountsKeep
  have hchange := eval_users heval
  have hdemo : ∀ u email mobile hash name, s ≠ .upsertDemoUserByEmail u email mobile hash name ∧
      s ≠ .upsertDemoUserByMobile u email mobile hash name := by
    intro u email mobile hash name
    refine ⟨?_, ?_⟩ <;> rintro rfl <;> have hwrites :=
      hs (by simp [Sql.writes]) <;> cases hwrites <;>
      cases ho
  generalize (db.applyAll ws).users = t at hchange
  cases hchange with
  | same => exact accountsKeep_refl db
  | inserted r _ hfree =>
      rintro address ⟨s₀, hs₀, haddress⟩
      refine ⟨⟨s₀, mem_put.mpr (.inr ⟨hs₀, (hfree s₀ hs₀).1⟩), haddress⟩, ?_⟩
      intro hall r' hr' haddress'
      rcases mem_put.mp hr' with rfl | ⟨hr', _⟩
      · -- the address was taken
        exact absurd haddress ((hfree s₀ hs₀).2.1 address haddress')
      · exact hall r' hr' haddress'
  | loggedIn u => exact fun _ => accounts_update (key_loggedIn _) (fun _ => rfl) fun _ h => h
  | reissued email hash name =>
      exact fun _ => accounts_update (key_reissued _ _ _) (fun _ => rfl) fun _ h => h
  | verified u verifiedAt =>
      exact fun _ => accounts_update (key_activated _ _) (fun _ => rfl) fun _ _ => rfl
  | reseeded u email mobile hash name hseed =>
      rcases hseed with rfl | rfl
      · exact absurd rfl (hdemo u email mobile hash name).1
      · exact absurd rfl (hdemo u email mobile hash name).2
  | purged before =>
      have hwrites := hs (by simp [Sql.writes])
      cases hwrites
      cases ho

/-- Operations that spend a code or replace it. -/
def keepsCodes : Store.Op → Bool
  | .consumeChallenge _ | .reissuePendingSignup _ (some _) _ _ => false
  | _ => true

theorem codes_put {r : ChallengeRow} (hfree : ∀ ch ∈ db.challenges, ch.id ≠ r.id) (t : Time) :
    CodesKeep t db { db with challenges := db.challenges.put r } :=
  fun ch hch _ => ⟨ch, mem_put.mpr (.inr ⟨hch, hfree ch hch⟩), sameChallenge_self ch⟩

theorem exec_codes_upsert (ch : OTPChallenge) (t : Time) :
    CodesKeep t db ((Store.Op.upsertChallenge ch).exec env now id pick db).2 := by
  rcases Store.exec_commits env now id pick (.upsertChallenge ch) db with ⟨_, _, h⟩ | hsame
  · obtain ⟨cid, db₁, hparse, h₁⟩ := Store.commits_bind.mp h
    obtain ⟨_, rfl⟩ := Store.commits_parseID.mp hparse
    obtain ⟨_, _, hfree, hdb⟩ := Store.commits_upsertChallenge.mp h₁
    rw [hdb]
    exact codes_put hfree t
  · rw [hsame]
    exact codesKeep_of_same rfl t

theorem exec_codes_attempts (challenge : String) (t : Time) :
    CodesKeep t db ((Store.Op.incrementAttempts challenge).exec env now id pick db).2 := by
  rcases Store.exec_commits env now id pick (.incrementAttempts challenge) db with ⟨_, _, h⟩ | hsame
  · obtain ⟨cid, db₁, hparse, h₁⟩ := Store.commits_bind.mp h
    obtain ⟨_, rfl⟩ := Store.commits_parseID.mp hparse
    obtain ⟨ws, heval, hdb⟩ := Store.commits_stmt.mp h₁
    rw [hdb, ok_writes heval]
    intro ch hch _
    rw [DB.challenges_update]
    refine ⟨_, update_mem key_attempted hch, ?_⟩
    split
    · exact sameChallenge_iff.mpr rfl
    · exact sameChallenge_self ch
  · rw [hsame]
    exact codesKeep_of_same rfl t

/-- A retry that brings no challenge leaves them alone. -/
theorem exec_codes_reissue (user : User) (invite : Option Invite) (acceptedAt : Time) :
    ((Store.Op.reissuePendingSignup user none invite acceptedAt).exec env now id pick
      db).2.challenges =
      db.challenges := by
  rcases Store.exec_commits env now id pick (.reissuePendingSignup user none invite acceptedAt) db
      with
    ⟨_, _, h⟩ | hsame
  · obtain ⟨r, _, _, db₁, hrotate, hactivate⟩ := Store.commits_reissuePendingSignup.mp h
    obtain ⟨_, hdb₁⟩ := Store.commits_pure.mp hrotate
    have hkept : db₁.challenges = db.challenges := by rw [hdb₁]; rfl
    cases invite with
    | none =>
        obtain ⟨_, hdb⟩ := Store.commits_pure.mp hactivate
        rw [hdb]
        exact hkept
    | some invite =>
        obtain ⟨_, _, _, _, _, _, _, _, _, hdb⟩ := Store.commits_activateByInvite.mp hactivate
        rw [hdb]
        exact hkept
  · rw [hsame]

theorem exec_codes (ho : keepsCodes o = true) : CodesKeep now db (o.exec env now id pick db).2 := by
  by_cases hn : TableName.challenges ∈ o.writes
  · cases o with
    | upsertChallenge ch => exact exec_codes_upsert ch now
    | incrementAttempts challenge => exact exec_codes_attempts challenge now
    | deleteExpiredChallenges =>
        rw [Store.exec_deleteExpiredChallenges]
        intro ch hch hexpires
        refine ⟨ch, mem_delete.mpr ⟨hch, ?_⟩, sameChallenge_self ch⟩
        exact decide_eq_false (not_lt.mpr hexpires)
    | reissuePendingSignup user challenge invite acceptedAt =>
        cases challenge with
        | none => exact codesKeep_of_same (exec_codes_reissue user invite acceptedAt) now
        | some ch => cases ho
    | consumeChallenge => cases ho
    | _ => simp [Store.Op.writes] at hn
  · exact codesKeep_of_same (Store.exec_same hn now id pick db) now

end Store

/-! ## Quiet operations -/

/-- Neither accounts nor codes are lost. -/
def mild : Port → Bool
  | .store o => keepsAccounts o && keepsCodes o
  | _ => true

theorem exec_quiet {env : Env} {o : Port} (ho : mild o = true) (c : Choice) (w : World) :
    Quiet w (exec env o c w).2 := by
  have hnow := exec_now env o c w
  refine ⟨exec_now_le env o c w, ?_, ?_⟩
  · refine exec_db_rel (R := AccountsKeep) accountsKeep_refl ?_ c
    rintro o' rfl now id pick
    exact exec_accounts (Bool.and_eq_true_iff.mp ho).1
  · by_cases hstore : ∃ o', o = .store o'
    · obtain ⟨o', rfl⟩ := hstore
      rw [hnow]
      rcases exec_store env o' c w with hx | hx
      · rw [hx]
        exact codesKeep_of_same rfl _
      · rw [hx]
        exact exec_codes (Bool.and_eq_true_iff.mp ho).2
    · refine codesKeep_of_same ?_ _
      refine exec_db_rel (R := fun db db' => db'.challenges = db.challenges) (fun _ => rfl) ?_ c
      exact fun o' h => absurd ⟨o', h⟩ hstore

/-- A mild store call that got through. -/
theorem quiet_stored {env : Env} (ho : mild (.store o) = true) (hf : c.fails = false) {w : World} :
    Quiet w (stored env o c w) := by
  have hquiet : Quiet w (exec env (.store o) c w).2 := exec_quiet ho c w
  rw [exec_store_runs env o hf] at hquiet
  exact hquiet

/-! ## Mail -/

/-- The address a sign-up mail goes to. -/
def signupMail? : Port → Option String
  | .send (.signupVerification email _ _ _ _) => some email
  | _ => none

/-- The sign-up mails among the operations, with the instants at which they were sent. -/
def mails (tr : List Done) : List (String × Time) :=
  tr.filterMap fun s => (signupMail? s.op).map fun email => (email, instant s)

def readsClock : Port → Bool
  | .now => true
  | _ => false

/-- The clock showed `t` when it was last read. -/
def LastReading (tr : List Done) (t : Time) : Prop :=
  (∃ s ∈ tr, readsClock s.op = true ∧ instant s = t) ∧
    ∀ s ∈ tr, readsClock s.op = true → instant s ≤ t

/-- Every dependency but the notifier works. -/
def OnlySendsFail (o : Port) (c : Choice) (_ : World) : Prop :=
  c.fails = true → ∃ n, o = .send n

theorem mails_append (tr tr' : List Done) : mails (tr ++ tr') = mails tr ++ mails tr' :=
  List.filterMap_append

theorem mails_snoc {o : Port} (ho : signupMail? o = none) (tr : List Done)
    (c : Choice) (w : World) :
    mails (tr ++ [⟨o, c, w⟩]) = mails tr := by
  simp [mails, ho]

/-- Mild operations that send nothing. -/
def tame : Port → Bool
  | .send _ => false
  | o => mild o

/-- Since `w₀` nothing was sent and nobody's account or code was lost. -/
structure Calm (w₀ w : World) (tr : List Done) : Prop where
  quiet : Quiet w₀ w
  sent : w.sent = w₀.sent
  mails : mails tr = []
  timed : ∀ s ∈ tr, instant s ≤ w.now

section Calm

variable {env : Env} {w₀ w : World} {tr : List Done}

theorem calm_start (w : World) : Calm w w [] :=
  ⟨quiet_refl w, rfl, rfl, fun _ hs => nomatch hs⟩

theorem calm_step (env : Env) (o : Port) (ho : tame o = true) (c : Choice) (h : Calm w₀ w tr) :
    Calm w₀ (exec env o c w).2 (tr ++ [⟨o, c, w⟩]) := by
  -- a tame operation is no send, which settles each of the three
  have hmild : mild o = true := by
    cases o with
    | send n => cases ho
    | _ => exact ho
  have hmail : signupMail? o = none := by
    cases o with
    | send n => cases ho
    | _ => rfl
  have hsent : (exec env o c w).2.sent = w.sent := by
    cases o with
    | send n => cases ho
    | store o' => rcases exec_store env o' c w with hx | hx <;> rw [hx] <;> rfl
    | sign subject orgID expires =>
        simp only [exec, answer, execSign]
        split <;> rfl
    | _ => rfl
  refine ⟨quiet_trans h.quiet (exec_quiet hmild c w), hsent.trans h.sent,
    (mails_snoc hmail tr c w).trans h.mails, ?_⟩
  intro s hs
  rw [exec_now]
  rcases List.mem_append.mp hs with hs | hs
  · exact (h.timed s hs).trans (le_max_left _ _)
  · rw [List.mem_singleton] at hs
    rw [hs]
    exact le_rfl

/-- A tame store call that got through. -/
theorem calm_stored (ho : tame (.store o) = true) (hf : c.fails = false) (h : Calm w₀ w tr) :
    Calm w₀ (stored env o c w) (tr ++ [⟨.store o, c, w⟩]) := by
  have hcalm := calm_step env (.store o) ho c h
  rw [exec_store_runs env o hf] at hcalm
  exact hcalm

/-- A store call that did not get through. -/
theorem calm_failed (o : Store.Op) (c : Choice) (h : Calm w₀ w tr) :
    Calm w₀ (w.advance c.now) (tr ++ [⟨.store o, c, w⟩]) := by
  refine ⟨quiet_trans h.quiet (quiet_advance w c.now), h.sent,
    (mails_snoc rfl tr c w).trans h.mails, ?_⟩
  intro s hs
  rcases List.mem_append.mp hs with hs | hs
  · exact (h.timed s hs).trans (le_max_left _ _)
  · rw [List.mem_singleton.mp hs]
    exact le_rfl

/-- A store call that wrote nothing. -/
theorem calm_unchanged (hsame : (stored env o c w).db = w.db) (h : Calm w₀ w tr) :
    Calm w₀ (stored env o c w) (tr ++ [⟨.store o, c, w⟩]) := by
  have hfailed := calm_failed o c h
  refine ⟨quiet_trans h.quiet ⟨le_max_left _ _, ?_, ?_⟩, h.sent, hfailed.mails, hfailed.timed⟩
  · exact accountsKeep_of_same (congrArg DB.users hsame)
  · exact codesKeep_of_same (congrArg DB.challenges hsame) _

end Calm

/-! ## A new code -/

/-- What `buildOTPChallenge` hands out: its challenge is dated by the last reading of the clock. -/
structure Built (env : Env) (identifier channel : String) (w₀ w : World) (ch : OTPChallenge)
    (code : String) (tr : List Done) : Prop where
  identifier : ch.identifier = identifier
  channel : ch.channel = channel
  codeHash : ∃ salt, ch.codeHash = env.hash salt code
  expiresAt : ch.expiresAt = ch.createdAt + otpTTL
  after : w₀.now ≤ ch.createdAt
  before : ch.createdAt ≤ w.now
  reading : LastReading tr ch.createdAt

section Codes

variable {env : Env} {w₀ w : World} {tr : List Done}

/-- What is done next is not a reading of the clock. -/
theorem lastReading_snoc {o : Port} (ho : readsClock o = false) (h : LastReading tr t) :
    LastReading (tr ++ [⟨o, c, w⟩]) t := by
  obtain ⟨⟨r, hr, hreads⟩, hlast⟩ := h
  refine ⟨⟨r, List.mem_append_left _ hr, hreads⟩, fun s hs hclock => ?_⟩
  rcases List.mem_append.mp hs with hs | hs
  · exact hlast s hs hclock
  · rw [List.mem_singleton.mp hs, ho] at hclock
    cases hclock

theorem not_fails {o : Port} (h : OnlySendsFail o c w) (ho : ∀ n, o ≠ .send n) : c.fails ≠ true :=
  fun hf => (h hf).elim fun n hn => ho n hn

theorem buildOTPChallenge_ends (identifier channel : String) (h : Calm w₀ w tr) :
    (buildOTPChallenge identifier channel).Ends (exec env) OnlySendsFail (fun res w' tr' =>
      Calm w₀ w' tr' ∧ w'.db = w.db ∧ ∃ ch code, res = .ok (ch, code) ∧
        Built env identifier channel w w' ch code tr') w tr := by
  refine ends_bind (M := fun res w₁ tr₁ => Calm w₀ w₁ tr₁ ∧ w₁.db = w.db ∧ w.now ≤ w₁.now ∧
      ∃ code, res = .ok code) ?_ ?_ ?_
  · refine ends_newCode (fun c _ _ => ?_) fun c e hc hf => absurd hf (not_fails hc nofun)
    exact ⟨calm_step env .newCode rfl c h, rfl, le_max_left _ _, c.code, rfl⟩
  · rintro code w₁ tr₁ ⟨h₁, hdb₁, hle₁, _⟩
    refine ends_bind (M := fun res w₂ tr₂ => Calm w₀ w₂ tr₂ ∧ w₂.db = w.db ∧ w.now ≤ w₂.now ∧
        ∃ salt, res = .ok (env.hash salt code)) ?_ ?_ ?_
    · refine ends_hash (fun c _ _ => ?_) fun c e hc hf => absurd hf (not_fails hc nofun)
      exact ⟨calm_step env (.hash code) rfl c h₁, hdb₁, hle₁.trans (le_max_left _ _),
        c.salt, rfl⟩
    · rintro codeHash w₂ tr₂ ⟨h₂, hdb₂, hle₂, salt, hsalt⟩
      cases hsalt
      refine ends_bind (M := fun res w₃ tr₃ => Calm w₀ w₃ tr₃ ∧ w₃.db = w.db ∧
          w.now ≤ w₃.now ∧ res = .ok w₃.now ∧ LastReading tr₃ w₃.now) ?_ ?_ ?_
      · refine ends_now fun c _ => ?_
        have hcalm := calm_step env .now rfl c h₂
        exact ⟨hcalm, hdb₂, hle₂.trans (le_max_left _ _), rfl, ⟨_, last_mem _, rfl, rfl⟩,
          fun s hs _ => hcalm.timed s hs⟩
      · rintro t w₃ tr₃ ⟨h₃, hdb₃, hle₃, ht, hreading⟩
        cases ht
        refine ends_bind (M := fun res w₄ tr₄ => Calm w₀ w₄ tr₄ ∧ w₄.db = w.db ∧
            w₃.now ≤ w₄.now ∧ (∃ id, res = .ok id) ∧ LastReading tr₄ w₃.now) ?_ ?_ ?_
        · refine ends_newID fun c _ => ?_
          exact ⟨calm_step env .newID rfl c h₃, hdb₃, le_max_left _ _, ⟨_, rfl⟩,
            lastReading_snoc rfl hreading⟩
        · rintro id w₄ tr₄ ⟨h₄, hdb₄, hle₄, _, hreading₄⟩
          exact .done ⟨h₄, hdb₄, _, code, rfl, rfl, rfl, ⟨salt, rfl⟩, rfl, hle₃, hle₄, hreading₄⟩
        · rintro e w₄ tr₄ ⟨_, _, _, ⟨_, hid⟩, _⟩
          cases hid
      · rintro e w₃ tr₃ ⟨_, _, _, ht, _⟩
        cases ht
    · rintro e w₂ tr₂ ⟨_, _, _, _, hhash⟩
      cases hhash
  · rintro e w₁ tr₁ ⟨_, _, _, _, hcode⟩
    cases hcode

/-! ## The cooldown -/

/-- The codes an address would be asked for. -/
def newestCodes (db : DB) (email : String) : List ChallengeRow :=
  newest ChallengeRow.createdAt (db.challenges.select (ChallengeRow.addressedTo email channelEmail))

/-- At `t` the address has had no code for the length of the cooldown. -/
def Cooled (db : DB) (email : String) (t : Time) : Prop :=
  ∀ ch ∈ db.challenges, ch.addressedTo email channelEmail = true → ch.createdAt ≠ 0 →
    ch.createdAt + signupVerificationCooldown ≤ t

theorem mem_newestCodes {db : DB} {email : String} {ch : ChallengeRow} :
    ch ∈ newestCodes db email ↔ (ch ∈ db.challenges ∧ ch.addressedTo email channelEmail = true) ∧
      ∀ s ∈ db.challenges, s.addressedTo email channelEmail = true → s.createdAt ≤ ch.createdAt :=
  mem_newest_select

/-- What the lookup of the newest challenge finds. -/
theorem getLatestChallenge_cases (email : String) (now : Time) (id : Uuid) (pick : Nat) (db : DB) :
    (∃ ch ∈ newestCodes db email, ((Store.Op.getLatestChallenge email channelEmail).exec env now id
        pick db).1 = .ok ch.challenge) ∨
      (∀ ch ∈ db.challenges, ch.addressedTo email channelEmail = false) ∧
        ∃ e, ((Store.Op.getLatestChallenge email channelEmail).exec env now id pick db).1 =
          .error e := by
  rw [Store.exec_getLatestChallenge]
  by_cases hnone : db.challenges.select (ChallengeRow.addressedTo email channelEmail) = []
  · refine .inr ⟨fun ch hch => ?_, ?_⟩
    · cases haddress : ch.addressedTo email channelEmail with
      | false => rfl
      | true =>
          have hmem := mem_select.mpr ⟨hch, haddress⟩
          rw [hnone] at hmem
          cases hmem
    · rw [hnone]
      exact ⟨_, rfl⟩
  · obtain ⟨r, hr⟩ := exists_newest ChallengeRow.createdAt hnone
    obtain ⟨ch, hch⟩ := limitOne_of_ne_nil pick (List.ne_nil_of_mem hr)
    refine .inl ⟨ch, mem_of_limitOne hch, ?_⟩
    rw [hch]
    rfl

theorem signupCooldownActive_ends (email : String) (t : Time) (h : Calm w₀ w tr) :
    (signupCooldownActive email t).Ends (exec env) OnlySendsFail (fun res w' tr' =>
      Calm w₀ w' tr' ∧ w'.db = w.db ∧ w.now ≤ w'.now ∧ ∃ active, res = .ok active ∧
        (active = true → ∃ ch ∈ newestCodes w.db email, t < ch.createdAt +
          signupVerificationCooldown) ∧
        (active = false → Cooled w.db email t)) w tr := by
  have hreads : ∀ c : Choice, (stored env (.getLatestChallenge email channelEmail) c w).db = w.db :=
    fun c => Store.exec_reads rfl _ _ _ _
  -- no challenge and a failed lookup are the same to the caller
  refine ends_bind (M := fun res w' tr' => Calm w₀ w' tr' ∧ w'.db = w.db ∧ w.now ≤ w'.now ∧
      ∃ r, res = .ok r ∧ ((∃ ch ∈ newestCodes w.db email, r = .ok ch.challenge) ∨
        (∀ ch ∈ w.db.challenges, ch.addressedTo email channelEmail = false) ∧ ∃ e, r = .error e)) ?_
          ?_ ?_
  · refine .call fun c hc => .done ?_
    have hf : c.fails = false := Bool.eq_false_iff.mpr (not_fails hc nofun)
    have hcalm := calm_step env (.store (.getLatestChallenge email channelEmail)) rfl c h
    rw [exec_store_runs env _ hf] at hcalm ⊢
    refine ⟨hcalm, hreads c, le_max_left _ _, _, rfl, ?_⟩
    exact getLatestChallenge_cases email _ _ _ _
  · rintro r w' tr' ⟨hcalm, hdb, hle, r', hr', hfound⟩
    cases hr'
    rcases hfound with ⟨ch, hch, rfl⟩ | ⟨hnone, e, rfl⟩
    · refine .done ⟨hcalm, hdb, hle, _, rfl, ?_, ?_⟩
      · intro hactive
        simp only [Bool.and_eq_true, decide_eq_true_eq] at hactive
        exact ⟨ch, hch, hactive.2⟩
      -- the newest challenge decides for all of them
      · intro hidle s hs haddress hcreated
        have hnewer : s.createdAt ≤ ch.createdAt := (mem_newestCodes.mp hch).2 s hs haddress
        have hch₀ : ch.createdAt ≠ 0 := fun h₀ => hcreated (Nat.le_zero.mp (h₀ ▸ hnewer))
        have hlate : ¬ t < ch.createdAt + signupVerificationCooldown := by
          intro hlt
          simp only [ChallengeRow.challenge, ne_eq, hch₀, not_false_eq_true, decide_true, hlt,
            Bool.and_self] at hidle
          cases hidle
        exact (Nat.add_le_add_right hnewer _).trans (not_lt.mp hlate)
    · refine .done ⟨hcalm, hdb, hle, _, rfl, fun hactive => (nomatch hactive), ?_⟩
      intro _ s hs haddress
      rw [hnone s hs] at haddress
      cases haddress
  · rintro e w' tr' ⟨_, _, _, _, hr, _⟩
    cases hr

/-! ## Issued codes -/

/-- A code may go out: the address had no account, or one that is pending and past its cooldown. -/
def Due (w₀ : World) (email : String) (t : Time) : Prop :=
  (∀ r ∈ w₀.db.users, r.email ≠ some email) ∨
    (∃ r ∈ w₀.db.users, r.email = some email ∧ r.unverified = true) ∧ Cooled w₀.db email t

/-- A code for `email` is stored and its mail is about to go out.  `t` is the last reading of the
clock. -/
structure Issued (env : Env) (email code : String) (w₀ w : World) (row : ChallengeRow) (t : Time)
    (tr : List Done) : Prop where
  sent : w.sent = w₀.sent
  mails : mails tr = []
  stored : row ∈ w.db.challenges
  address : row.addressedTo email channelEmail = true
  codeHash : ∃ salt, row.codeHash = env.hash salt code
  expiresAt : row.expiresAt = t + otpTTL
  fresh : row.attempts = 0
  created : row.createdAt ≠ 0
  after : w₀.now ≤ t
  dated : t ≤ row.createdAt
  before : row.createdAt ≤ w.now
  reading : LastReading tr t
  due : Due w₀ email t
  accounts : AccountsKeep w₀.db w.db
  account : ∃ r ∈ w.db.users, r.email = some email
  others : ∀ ch ∈ w₀.db.challenges, ch.addressedTo email channelEmail = false →
    w.now ≤ ch.expiresAt → ∃ ch' ∈ w.db.challenges, sameChallenge ch ch' = true
  origin : ∀ ch ∈ w.db.challenges, ch.addressedTo email channelEmail = true →
    ch = row ∨ ch ∈ w₀.db.challenges

theorem le_orNow {now t : Time} (h : t ≤ now) : t ≤ Store.orNow now t ∧
    Store.orNow now t ≤ now := by
  unfold Store.orNow
  split
  · exact ⟨h, le_rfl⟩
  · exact ⟨le_rfl, h⟩

/-- The challenge of a new account is stored beside those the address already has. -/
theorem issued_of_upsert {email code : String} {w₁ : World} {ch : OTPChallenge} (h : Calm w₀ w tr)
    (hbuilt : Built env email channelEmail w₁ w ch code tr) (hle : w₀.now ≤ w₁.now)
    (hold : ∀ s ∈ w.db.challenges, s ∈ w₀.db.challenges)
    (hnone : ∀ r ∈ w₀.db.users, r.email ≠ some email)
    (haccount : ∃ r ∈ w.db.users, r.email = some email) (hf : c.fails = false)
    (hok : ((Store.Op.upsertChallenge ch).exec env (max w.now c.now) c.id c.pick w.db).1 = .ok ()) :
    ∃ row t, Issued env email code w₀ (stored env (.upsertChallenge ch) c w) row t
      (tr ++ [⟨.store (.upsertChallenge ch), c, w⟩]) := by
  have hcalm : Calm w₀ (stored env (.upsertChallenge ch) c w) _ := calm_stored rfl hf h
  obtain ⟨cid, _, _, hcreated, hfree, hdb⟩ := Store.exec_upsertChallenge_inv hok
  obtain ⟨hdated, hbefore⟩ := le_orNow (hbuilt.before.trans (le_max_left w.now c.now))
  generalize hrow :
    Store.challengeRow cid ch (Store.orNow (max w.now c.now) ch.createdAt) = row at hdb
  have hstored : (stored env (.upsertChallenge ch) c w).db =
      { w.db with challenges := w.db.challenges.put row } := hdb
  refine ⟨row, ch.createdAt, ?_⟩
  subst hrow
  -- only the new row is not read off what came before
  refine ⟨hcalm.sent, hcalm.mails, ?_, ?_, hbuilt.codeHash, hbuilt.expiresAt, rfl, hcreated,
    hle.trans hbuilt.after, hdated, hbefore, lastReading_snoc rfl hbuilt.reading, .inl hnone,
    hcalm.quiet.accounts, ?_, fun s hs _ hexpires => hcalm.quiet.codes s hs hexpires, ?_⟩
  · rw [hstored]
    exact mem_put.mpr (.inl rfl)
  · simp [ChallengeRow.addressedTo, Store.challengeRow, hbuilt.identifier, hbuilt.channel]
  · rw [hstored]
    exact haccount
  · intro s hs _
    rw [hstored] at hs
    rcases mem_put.mp hs with rfl | ⟨hs, _⟩
    · exact .inl rfl
    · exact .inr (hold s hs)

/-- A call that issues a code, up to the mail. -/
def Issues (env : Env) (email : String) (w₀ : World) {α : Type} (codeOf : α → String)
    (res : Except Err α) (w : World) (tr : List Done) : Prop :=
  match res with
  | .ok a => ∃ row t, Issued env email (codeOf a) w₀ w row t tr
  | .error _ => Calm w₀ w tr

/-- Expired challenges are deleted first. -/
theorem deleteExpired_ends (h : Calm w₀ w tr) :
    (ignore .deleteExpiredChallenges).Ends (exec env) OnlySendsFail (fun res w' tr' =>
      res = .ok () ∧ Calm w₀ w' tr' ∧ w'.db.users = w.db.users ∧
        ∀ ch ∈ w'.db.challenges, ch ∈ w.db.challenges) w tr := by
  refine .call fun c _ => .done ⟨rfl, calm_step env _ rfl c h, ?_, ?_⟩
  · refine exec_db_rel (R := fun db db' => db'.users = db.users) (fun _ => rfl) ?_ c
    rintro _ ⟨⟩ now id pick
    rw [Store.exec_deleteExpiredChallenges]
  · refine exec_db_rel (R := fun db db' => ∀ ch ∈ db'.challenges, ch ∈ db.challenges)
      (fun _ _ h => h) ?_ c
    rintro _ ⟨⟩ now id pick ch hch
    rw [Store.exec_deleteExpiredChallenges] at hch
    exact (mem_delete.mp hch).1

/-- The code of a new account. -/
theorem newOTPChallenge_ends (email : String) (h : Calm w₀ w tr)
    (hchallenges : w.db.challenges = w₀.db.challenges)
    (hnone : ∀ r ∈ w₀.db.users, r.email ≠ some email)
    (haccount : ∃ r ∈ w.db.users, r.email = some email) :
    (newOTPChallenge email channelEmail).Ends (exec env) OnlySendsFail
      (Issues env email w₀ Prod.snd) w tr := by
  refine ends_bind (deleteExpired_ends h) ?_ ?_
  · rintro _ w₁ tr₁ ⟨_, h₁, husers₁, hold₁⟩
    refine ends_bind (buildOTPChallenge_ends email channelEmail h₁) ?_ ?_
    · rintro ⟨ch, code⟩ w₂ tr₂ ⟨h₂, hdb₂, ch', code', hres, hbuilt⟩
      cases hres
      -- expired challenges are gone, and no others have come
      have hold₂ : ∀ s ∈ w₂.db.challenges, s ∈ w₀.db.challenges := by
        rw [hdb₂, ← hchallenges]
        exact hold₁
      have haccount₂ : ∃ r ∈ w₂.db.users, r.email = some email := by
        rw [hdb₂, husers₁]
        exact haccount
      refine ends_bind (M := Issues env email w₀ fun _ => code) ?_ ?_ ?_
      · refine ends_passes (passes_store (.upsertChallenge ch)) ?_ ?_
        · intro c v _ hf hok
          exact issued_of_upsert h₂ hbuilt h₁.quiet.now_le hold₂ hnone haccount₂ hf hok
        · exact fun c _ _ _ _ => calm_failed _ c h₂
      · exact fun _ _ _ hissued => .done hissued
      · exact fun _ _ _ hcalm => hcalm
    · exact fun _ _ _ h₂ => h₂.1
  · exact fun _ _ _ h₁ => h₁.2.1

/-! ## The retry -/

/-- A retry replaces the challenges of the address by the new one. -/
theorem issued_of_reissue {code : String} {w₁ : World} {ch : OTPChallenge} {userID : String}
    (h : Calm w₀ w tr) (hdb : w.db = w₀.db)
    (hbuilt : Built env user.email channelEmail w₁ w ch code tr) (hle : w₀.now ≤ w₁.now)
    (ht : t ≤ ch.createdAt) (hcooled : Cooled w₀.db user.email t)
    (hok : ((Store.Op.reissuePendingSignup user (some ch) none t).exec env
      (max w.now c.now) c.id c.pick w.db).1 = .ok (userID, true)) :
    ∃ row, Issued env user.email code w₀
      (stored env (.reissuePendingSignup user (some ch) none t) c w) row ch.createdAt
        (tr ++ [⟨.store (.reissuePendingSignup user (some ch) none t), c, w⟩]) := by
  have haccounts : AccountsKeep w.db
      (stored env (.reissuePendingSignup user (some ch) none t) c w).db := exec_accounts rfl
  rcases Store.exec_reissue_inv hok with ⟨_, hv, _⟩ | ⟨r, hhead, _, hrotate⟩
  · cases hv
  obtain ⟨hr, hpending⟩ := mem_select.mp (List.mem_of_mem_head? hhead)
  obtain ⟨hemail, hunverified⟩ := Bool.and_eq_true_iff.mp hpending
  have hemail : r.email = some user.email := of_decide_eq_true hemail
  obtain ⟨cid, _, _, hcreated, hfree, hstored⟩ := Store.commits_rotateChallenge.mp hrotate
  -- the time the retry began only counts when the challenge has none
  have hdate : Store.orNow t ch.createdAt = ch.createdAt := by
    unfold Store.orNow at hcreated ⊢
    split
    · rename_i hzero
      rw [if_pos hzero] at hcreated
      exact absurd (Nat.le_zero.mp (hzero ▸ ht)) hcreated
    · rfl
  rw [hdate] at hcreated hstored
  have hchallenges : (stored env (.reissuePendingSignup user (some ch) none t) c w).db.challenges =
      Store.rotated w.db.challenges cid ch ch.createdAt := congrArg DB.challenges hstored
  have haddress : ∀ s : ChallengeRow, s.addressedTo ch.identifier ch.channel =
      s.addressedTo user.email channelEmail := by
    intro s
    rw [hbuilt.identifier, hbuilt.channel]
  refine ⟨Store.challengeRow cid ch ch.createdAt, h.sent, (mails_snoc rfl tr c w).trans
    h.mails, ?_, ?_, hbuilt.codeHash, hbuilt.expiresAt, rfl, hcreated,
    hle.trans hbuilt.after, le_rfl, hbuilt.before.trans (le_max_left _ _),
    lastReading_snoc rfl hbuilt.reading, .inr ⟨⟨r, hdb ▸ hr, hemail, hunverified⟩, ?_⟩,
    hdb ▸ haccounts, (haccounts user.email ⟨r, hr, hemail⟩).1, ?_, ?_⟩
  · rw [hchallenges]
    exact mem_put.mpr (.inl rfl)
  · simp [ChallengeRow.addressedTo, Store.challengeRow, hbuilt.identifier, hbuilt.channel]
  · exact fun s hs hto hdated => (hcooled s hs hto hdated).trans ht
  · intro s hs hother _
    rw [← hdb] at hs
    rw [← haddress] at hother
    refine ⟨s, ?_, sameChallenge_self s⟩
    rw [hchallenges]
    exact mem_put.mpr (.inr ⟨mem_delete.mpr ⟨hs, hother⟩, hfree s hs hother⟩)
  · intro s hs hto
    rw [hchallenges] at hs
    rcases mem_put.mp hs with rfl | ⟨hs, _⟩
    · exact .inl rfl
    · rw [← haddress, (mem_delete.mp hs).2] at hto
      cases hto

/-- A registration that sent nothing has a reason to succeed. -/
def Answered (email : String) (invited : Bool) (w₀ w : World) : Prop :=
  invited = true ∨ (∀ r ∈ w.db.users, r.email = some email → r.unverified = false) ∨
    (∃ r ∈ w₀.db.users, r.email = some email) ∧ w.db.challenges = w₀.db.challenges ∧
      ∃ ch ∈ newestCodes w₀.db email, w₀.now < ch.createdAt + signupVerificationCooldown

/-- How a registration of `email` ends. -/
inductive Registered (env : Env) (email : String) (invited : Bool) (w₀ : World) :
    Except Err Unit → World → List Done → Prop
  | calm {res : Except Err Unit} {w : World} {tr : List Done} (h : Calm w₀ w tr)
      (hok : res = .ok () → Answered email invited w₀ w) : Registered env email invited w₀ res w tr
  | mailed {code locale userID : String} {w : World} {row : ChallengeRow} {t : Time}
      {tr : List Done} {c : Choice} (h : Issued env email code w₀ w row t tr)
      (hf : c.fails = false) :
      Registered env email invited w₀ (.ok ())
        { w.advance c.now with
          sent := w.sent ++ [.signupVerification email code otpTTLMinutes locale userID] }
        (tr ++ [⟨.send (.signupVerification email code otpTTLMinutes locale userID), c, w⟩])
  | unsent {code locale userID : String} {w : World} {row : ChallengeRow} {t : Time}
      {tr : List Done} {c : Choice} {e : Err} (h : Issued env email code w₀ w row t tr)
      (hf : c.fails = true) :
      Registered env email invited w₀ (.error e) (w.advance c.now)
        (tr ++ [⟨.send (.signupVerification email code otpTTLMinutes locale userID), c, w⟩])

theorem sendCode_ends {email code locale userID : String} {invited : Bool} {row : ChallengeRow}
    (h : Issued env email code w₀ w row t tr) :
    (send (.signupVerification email code otpTTLMinutes locale userID)).Ends
      (exec env) OnlySendsFail (Registered env email invited w₀) w tr :=
  ends_send (fun _ _ hf => .mailed h hf) fun _ _ _ hf => .unsent h hf

/-- Nobody at the address is pending, as the retry's update found. -/
theorem settled_of_none {db : DB} {email : String}
    (h : (db.users.select (UserRow.unverifiedAt email)).head? = none) :
    ∀ r ∈ db.users, r.email = some email → r.unverified = false := by
  intro r hr hemail
  cases hunverified : r.unverified with
  | false => rfl
  | true =>
      have hmem : r ∈ db.users.select (UserRow.unverifiedAt email) :=
        mem_select.mpr ⟨hr, Bool.and_eq_true_iff.mpr ⟨decide_eq_true hemail, hunverified⟩⟩
      rw [List.head?_eq_none_iff.mp h] at hmem
      cases hmem

/-- Within the cooldown only the credentials change. -/
theorem reissue_within (user : User) (t : Time) (h : Calm w₀ w tr) (hdb : w.db = w₀.db) :
    (store (.reissuePendingSignup user none none t)).Ends (exec env) OnlySendsFail (fun _ w' tr' =>
      Calm w₀ w' tr' ∧ w'.db.challenges = w₀.db.challenges) w tr := by
  have hkept := congrArg DB.challenges hdb
  refine ends_passes (passes_store (.reissuePendingSignup user none none t)) ?_ ?_
  · exact fun c v _ hf _ => ⟨calm_stored rfl hf h, (exec_codes_reissue user none t).trans hkept⟩
  · exact fun c _ _ _ _ => ⟨calm_failed _ c h, hkept⟩

/-- The update of a retry outside the cooldown. -/
inductive Rotated (env : Env) (email code : String) (invited : Bool) (w₀ : World) :
    Except Err (String × Bool) → World → List Done → Prop
  | issued {userID : String} {w : World} {row : ChallengeRow} {t : Time} {tr : List Done}
      (h : Issued env email code w₀ w row t tr) :
      Rotated env email code invited w₀ (.ok (userID, true)) w tr
  | settled {userID : String} {w : World} {tr : List Done} (h : Calm w₀ w tr)
      (hanswered : Answered email invited w₀ w) :
      Rotated env email code invited w₀ (.ok (userID, false)) w tr
  | failed {e : Err} {w : World} {tr : List Done} (h : Calm w₀ w tr) :
      Rotated env email code invited w₀ (.error e) w tr

theorem reissue_outside {code : String} {w₁ : World} {ch : OTPChallenge} (invited : Bool)
    (h : Calm w₀ w tr) (hdb : w.db = w₀.db)
    (hbuilt : Built env user.email channelEmail w₁ w ch code tr) (hle : w₀.now ≤ w₁.now)
    (ht : t ≤ ch.createdAt) (hcooled : Cooled w₀.db user.email t) :
    (store (.reissuePendingSignup user (some ch) none t)).Ends (exec env) OnlySendsFail
      (Rotated env user.email code invited w₀) w tr := by
  refine ends_passes (passes_store (.reissuePendingSignup user (some ch) none t)) ?_ ?_
  · rintro c ⟨userID, reissued⟩ _ _ hok
    cases reissued with
    | true =>
        obtain ⟨row, hissued⟩ := issued_of_reissue h hdb hbuilt hle ht hcooled hok
        exact .issued hissued
    | false =>
        rcases Store.exec_reissue_inv hok with ⟨hhead, _, hsame⟩ | ⟨_, _, hv, _⟩
        · -- nobody is pending, so nothing was written
          have hsame' : (stored env (.reissuePendingSignup user (some ch) none t) c w).db = w.db :=
            hsame
          refine .settled (calm_unchanged hsame' h) (.inr (.inl ?_))
          rw [hsame']
          exact settled_of_none hhead
        · exact absurd (congrArg Prod.snd hv) Bool.false_ne_true
  · exact fun c _ _ _ _ => .failed (calm_failed _ c h)

theorem reissueSignup_ends {locale : String} (invited : Bool)
    (haccount : ∃ r ∈ w₀.db.users, r.email = some user.email) (h : Calm w₀ w tr)
    (hdb : w.db = w₀.db) (hafter : w₀.now ≤ t) (hbefore : t ≤ w.now) :
    (reissueSignup user locale t).Ends (exec env) OnlySendsFail
      (Registered env user.email invited w₀) w tr := by
  refine ends_bind (signupCooldownActive_ends user.email t h) ?_ ?_
  · rintro active w₁ tr₁ ⟨h₁, hdb₁, hle₁, active', hres, hactive, hidle⟩
    cases hres
    have hdb₁' : w₁.db = w₀.db := hdb₁.trans hdb
    cases active with
    -- within the cooldown the account is rewritten and no code is sent
    | true =>
        obtain ⟨ch, hch, hlt⟩ := hactive rfl
        refine ends_bind (reissue_within user t h₁ hdb₁') ?_ ?_
        · rintro _ w₂ tr₂ ⟨h₂, hsame⟩
          refine .done (.calm h₂ fun _ => .inr (.inr ⟨haccount, hsame, ch, hdb ▸ hch, ?_⟩))
          exact lt_of_le_of_lt hafter hlt
        · exact fun _ _ _ h₂ => .calm h₂.1 fun h => (nomatch h)
    -- outside of it the challenge is rotated in the same transaction
    | false =>
        have hcooled : Cooled w₀.db user.email t := hdb ▸ hidle rfl
        refine ends_bind (buildOTPChallenge_ends user.email channelEmail h₁) ?_ ?_
        · rintro ⟨ch, code⟩ w₂ tr₂ ⟨h₂, hdb₂, ch', code', hres, hbuilt⟩
          cases hres
          have ht : t ≤ ch.createdAt := (hbefore.trans hle₁).trans hbuilt.after
          refine ends_bind
            (reissue_outside invited h₂ (hdb₂.trans hdb₁') hbuilt h₁.quiet.now_le ht hcooled) ?_ ?_
          · intro v w₃ tr₃ hrotated
            cases hrotated with
            | issued hissued => exact sendCode_ends hissued
            | settled h₃ hanswered => exact .done (.calm h₃ fun _ => hanswered)
          · intro e w₃ tr₃ hrotated
            cases hrotated with
            | failed h₃ => exact .calm h₃ fun h => (nomatch h)
        · exact fun _ _ _ h₂ => .calm h₂.1 fun h => (nomatch h)
  · exact fun _ _ _ h₁ => .calm h₁.1 fun h => (nomatch h)

/-! ## The registration -/

theorem tame_of_idle {o : Port} (ho : idle o = true) : tame o = true := by
  cases o with
  | store o =>
      have hreads : o.writes = [] := of_decide_eq_true ho
      cases o <;> first | rfl | exact absurd hreads (List.cons_ne_nil _ _)
  | sign => cases ho
  | send => cases ho
  | _ => rfl

/-- A part of a call that only reads. -/
theorem ends_reads {α : Type} {p : Action α} (hp : p.Uses fun o => idle o = true)
    (h : Calm w₀ w tr) :
    p.Ends (exec env) OnlySendsFail (fun _ w' tr' => Calm w₀ w' tr' ∧ w'.db = w.db ∧ w.now ≤ w'.now)
      w tr := by
  refine ends_of_uses (I := fun w' tr' => Calm w₀ w' tr' ∧ w'.db = w.db ∧ w.now ≤ w'.now) ?_ hp
    w tr ⟨h, rfl, le_rfl⟩
  rintro o c w' tr' ho _ ⟨h', hdb', hle'⟩
  have hstill : Still w' tr' (exec env o c w').2 (tr' ++ [⟨o, c, w'⟩]) := still_step ho c w' tr'
  exact ⟨calm_step env o (tame_of_idle ho) c h', hstill.db.trans hdb', hle'.trans hstill.now_le⟩

/-- An account the retry passes over is not pending. -/
theorem unverified_of_passed {r : UserRow}
    (h : (r.user.status ≠ .signupPending || r.user.emailVerified) = true) :
    r.unverified = false := by
  unfold UserRow.unverified
  rcases Bool.or_eq_true_iff.mp h with hstatus | hverified
  · have hstatus' : r.status ≠ .signupPending := of_decide_eq_true hstatus
    simp [hstatus']
  · have hverified' : r.emailVerifiedAt.isSome = true := hverified
    simp [Option.isNone_eq_false_iff.mpr hverified']

theorem retryPendingSignup_ends (invite : Option Invite) {locale : String}
    (hint : w₀.db.Integrity) (haccount : ∃ r ∈ w₀.db.users, r.email = some user.email)
    (h : Calm w₀ w tr) (hdb : w.db = w₀.db) (hafter : w₀.now ≤ t) (hbefore : t ≤ w.now) :
    (retryPendingSignup user invite locale t).Ends (exec env) OnlySendsFail
      (Registered env user.email invite.isSome w₀) w tr := by
  cases invite with
  | some invite =>
      refine ends_bind (M := fun _ w₁ tr₁ => Calm w₀ w₁ tr₁) ?_ ?_ ?_
      · refine ends_passes
          (passes_storeMapping _ _ (.reissuePendingSignup user none (some invite) t)) ?_ ?_
        · exact fun c v _ hf _ => calm_stored rfl hf h
        · exact fun c _ _ _ _ => calm_failed _ c h
      · exact fun _ _ _ h₁ => .done (.calm h₁ fun _ => .inl rfl)
      · exact fun _ _ _ h₁ => .calm h₁ fun h => (nomatch h)
  | none =>
      refine ends_bind (M := fun res w₁ tr₁ => Calm w₀ w₁ tr₁ ∧ w₁.db = w₀.db ∧
          w.now ≤ w₁.now ∧ ∀ existing, res = .ok (.ok existing) →
            ∃ r ∈ w₀.db.users, r.email = some user.email ∧ existing = r.user) ?_ ?_ ?_
      · refine ends_tryStore ?_ ?_
        · intro c v _ hf hok
          have hreads : (stored env (.findByEmail user.email) c w).db = w.db :=
            Store.exec_reads rfl _ _ _ _
          refine ⟨calm_stored rfl hf h, hreads.trans hdb, le_max_left _ _, fun existing hres => ?_⟩
          cases hres
          rw [hdb] at hok
          exact Store.exec_findByEmail_ok hok
        · intro c e _ _
          exact ⟨calm_failed _ c h, hdb, le_max_left _ _, fun existing hres => (nomatch hres)⟩
      · rintro res w₁ tr₁ ⟨h₁, hdb₁, hle₁, hfound⟩
        have hretry : (reissueSignup user locale t).Ends (exec env) OnlySendsFail
            (Registered env user.email false w₀) w₁ tr₁ :=
          reissueSignup_ends false haccount h₁ hdb₁ hafter (hbefore.trans hle₁)
        cases res with
        | error e => exact hretry
        | ok existing =>
            obtain ⟨r, hr, hemail, rfl⟩ := hfound existing rfl
            dsimp only
            split
            · rename_i hpassed
              refine .done (.calm h₁ fun _ => .inr (.inl fun s hs hsemail => ?_))
              -- an address has one account
              rw [hdb₁] at hs
              rw [hint.email s hs r hr user.email hsemail hemail]
              exact unverified_of_passed hpassed
            · exact hretry
      · exact fun _ _ _ h₁ => .calm h₁.1 fun h => (nomatch h)

theorem idle_signupOrg (invite : Option Invite) (orgName : String) (t : Time) :
    (signupOrg invite orgName t).Uses fun o => idle o = true := by
  unfold signupOrg
  split
  · exact .done _
  · exact uses_bind (uses_newID rfl) fun _ => .done _

/-- What the creating call of a registration leaves. -/
inductive Creates (email : String) (w₀ : World) : Except Err Bool → World → List Done → Prop
  | taken {w : World} {tr : List Done} (haccount : ∃ r ∈ w₀.db.users, r.email = some email)
      (h : Calm w₀ w tr) (hdb : w.db = w₀.db) :
      Creates email w₀ (.ok false) w tr
  | created {w : World} {tr : List Done} (h : Calm w₀ w tr)
      (hchallenges : w.db.challenges = w₀.db.challenges)
      (hnone : ∀ r ∈ w₀.db.users, r.email ≠ some email)
      (haccount : ∃ r ∈ w.db.users, r.email = some email) : Creates email w₀ (.ok true) w tr
  | failed {e : Err} {w : World} {tr : List Done} (h : Calm w₀ w tr) :
      Creates email w₀ (.error e) w tr

theorem createSignupUser_ends (user : User) (org : Option Organization)
    (invite : Option Invite) (t : Time) (h : Calm w₀ w tr) (hdb : w.db = w₀.db) :
    (storeMapping .inviteNotFound .invalidInvite (.createSignupUser user org invite t)).Ends
      (exec env) OnlySendsFail (fun res w' tr' => Creates user.email w₀ res w' tr' ∧
      w.now ≤ w'.now) w tr := by
  refine ends_passes (passes_storeMapping _ _ (.createSignupUser user org invite t)) ?_ ?_
  · intro c created _ hf hok
    have hcalm : Calm w₀ (stored env (.createSignupUser user org invite t) c w) _ :=
      calm_stored rfl hf h
    have hwrites : TableName.challenges ∉ (Store.Op.createSignupUser user org invite t).writes := by
      simp [Store.Op.writes]
    have hkept : (stored env (.createSignupUser user org invite t) c w).db.challenges =
        w.db.challenges := Store.exec_same hwrites _ _ _ _
    refine ⟨?_, le_max_left _ _⟩
    rcases Store.exec_createSignupUser_inv hok with ⟨htaken, rfl, hsame⟩ | ⟨hnone, rfl, haccount⟩
    · exact .taken (hdb ▸ htaken) hcalm ((show (stored env _ c w).db = w.db from hsame).trans hdb)
    · exact .created hcalm (hkept.trans (congrArg DB.challenges hdb)) (hdb ▸ hnone) haccount
  · exact fun c _ _ _ _ => ⟨.failed (calm_failed _ c h), le_max_left _ _⟩

theorem sendSignupCode_ends {locale : String} (invited : Bool) (h : Calm w₀ w tr)
    (hchallenges : w.db.challenges = w₀.db.challenges)
    (hnone : ∀ r ∈ w₀.db.users, r.email ≠ some user.email)
    (haccount : ∃ r ∈ w.db.users, r.email = some user.email) :
    (sendSignupCode user locale).Ends (exec env) OnlySendsFail
      (Registered env user.email invited w₀) w tr := by
  refine ends_bind (newOTPChallenge_ends user.email h hchallenges hnone haccount) ?_ ?_
  · rintro ⟨ch, code⟩ w₁ tr₁ ⟨row, t, hissued⟩
    exact sendCode_ends hissued
  · exact fun _ _ _ h₁ => .calm h₁ fun h => (nomatch h)

/-- The account is created, or its sign-up is retried. -/
theorem createOrRetry_ends {email locale : String} (hemail : user.email = email)
    (org : Option Organization) (invite : Option Invite) (hint : w₀.db.Integrity)
    (h : Calm w₀ w tr) (hdb : w.db = w₀.db) (hafter : w₀.now ≤ t) (hbefore : t ≤ w.now) :
    (storeMapping .inviteNotFound .invalidInvite (.createSignupUser user org invite t) >>=
      fun created =>
      if !created then retryPendingSignup user invite locale t
      else if invite.isSome then pure ()
      else sendSignupCode user locale).Ends (exec env) OnlySendsFail
        (Registered env email invite.isSome w₀) w tr := by
  subst hemail
  refine ends_bind (createSignupUser_ends user org invite t h hdb) ?_ ?_
  · rintro created w₁ tr₁ ⟨hcreates, hle⟩
    cases hcreates with
    | taken htaken h₁ hdb₁ =>
        exact retryPendingSignup_ends invite hint htaken h₁ hdb₁ hafter (hbefore.trans hle)
    | created h₁ hchallenges hnone haccount =>
        cases invite with
        | some invite => exact .done (.calm h₁ fun _ => .inl rfl)
        | none => exact sendSignupCode_ends false h₁ hchallenges hnone haccount
  · rintro e w₁ tr₁ ⟨hcreates, _⟩
    cases hcreates with
    | failed h₁ => exact .calm h₁ fun h => (nomatch h)

theorem submitSignup_ends {email passwordHash displayName locale orgName : String}
    (invite : Option Invite) (hint : w₀.db.Integrity) (h : Calm w₀ w tr) (hdb : w.db = w₀.db) :
    (submitSignup email passwordHash displayName locale orgName invite).Ends
      (exec env) OnlySendsFail (Registered env email invite.isSome w₀) w tr := by
  have hfails : ∀ {e : Err} {w' : World} {tr' : List Done}, Calm w₀ w' tr' →
      Registered env email invite.isSome w₀ (.error e) w' tr' :=
        fun h => .calm h fun h => (nomatch h)
  refine ends_bind (M := fun res w₁ tr₁ => Calm w₀ w₁ tr₁ ∧ w₁.db = w₀.db ∧
      res = .ok w₁.now) ?_ ?_ fun _ _ _ h₁ => hfails h₁.1
  · exact ends_now fun c _ => ⟨calm_step env .now rfl c h, hdb, rfl⟩
  rintro t w₁ tr₁ ⟨h₁, hdb₁, ht⟩
  cases ht
  refine ends_bind (ends_reads (uses_newID rfl) h₁) ?_ fun _ _ _ h₂ => hfails h₂.1
  rintro id w₂ tr₂ ⟨h₂, hdb₂, hle₂⟩
  refine ends_bind (ends_reads (idle_signupOrg invite orgName w₁.now) h₂) ?_
    fun _ _ _ h₃ => hfails h₃.1
  rintro org w₃ tr₃ ⟨h₃, hdb₃, hle₃⟩
  refine createOrRetry_ends ?_ org invite hint h₃ (hdb₃.trans (hdb₂.trans hdb₁)) h₁.quiet.now_le
    (hle₂.trans hle₃)
  rfl

/-- A registration is invited exactly when it carries a token. -/
theorem signupInvite_ends (cfg : Config) (token email : String) (h : Calm w₀ w tr) :
    (signupInvite cfg token email).Ends (exec env) OnlySendsFail (fun res w' tr' =>
      (Calm w₀ w' tr' ∧ w'.db = w.db) ∧
        ∀ invite, res = .ok invite → invite.isSome = decide (trimSpace token ≠ "")) w tr := by
  unfold signupInvite
  by_cases htoken : trimSpace token = ""
  · rw [if_pos htoken]
    refine .done ⟨⟨h, rfl⟩, fun invite hres => ?_⟩
    cases hres
    simp [htoken]
  · rw [if_neg htoken]
    have hlookup : (storeMapping .inviteNotFound .invalidInvite (.findInviteByTokenHash
        (cfg.env.hashInviteToken (trimSpace token)))).Uses fun o => idle o =
          true := uses_storeMapping rfl
    refine ends_bind (ends_reads hlookup h) ?_ fun _ _ _ h₁ =>
      ⟨⟨h₁.1, h₁.2.1⟩, fun _ hres => (nomatch hres)⟩
    -- the three checks of the invitation only read
    rintro invite w₁ tr₁ ⟨h₁, hdb₁, _⟩
    refine ends_bind (ends_reads (uses_now rfl) h₁) ?_ fun _ _ _ h₂ =>
      ⟨⟨h₂.1, h₂.2.1.trans hdb₁⟩, fun _ hres => (nomatch hres)⟩
    rintro t w₂ tr₂ ⟨h₂, hdb₂, _⟩
    refine ends_bind (ends_reads (uses_failIf _ _) h₂) ?_ fun _ _ _ h₃ =>
      ⟨⟨h₃.1, h₃.2.1.trans (hdb₂.trans hdb₁)⟩, fun _ hres => (nomatch hres)⟩
    rintro _ w₃ tr₃ ⟨h₃, hdb₃, _⟩
    refine .done ⟨⟨h₃, hdb₃.trans (hdb₂.trans hdb₁)⟩, fun invite' hres => ?_⟩
    cases hres
    simp [htoken]

/-- How a registration ends when nothing but notifications can fail. -/
theorem registerWithEmail_ends (cfg : Config)
    (email password displayName locale orgName inviteToken : String) (hint : w₀.db.Integrity) :
    (registerWithEmail cfg email password displayName locale orgName inviteToken).Ends
      (exec cfg.env) OnlySendsFail
      (Registered cfg.env (cfg.env.normalizeEmail email) (decide (trimSpace inviteToken ≠ ""))
        w₀) w₀ [] := by
  have hfails : ∀ {e : Err} {w' : World} {tr' : List Done}, Calm w₀ w' tr' →
      Registered cfg.env (cfg.env.normalizeEmail email) (decide (trimSpace inviteToken ≠ "")) w₀
        (.error e) w' tr' := fun h => .calm h fun h => (nomatch h)
  refine ends_bind (ends_reads (uses_failIf _ _) (calm_start w₀)) ?_ fun _ _ _ h₁ => hfails h₁.1
  rintro _ w₁ tr₁ ⟨h₁, hdb₁, _⟩
  refine ends_bind (ends_reads (uses_failIf _ _) h₁) ?_ fun _ _ _ h₂ => hfails h₂.1
  rintro _ w₂ tr₂ ⟨h₂, hdb₂, _⟩
  refine ends_bind (ends_reads (uses_failIf _ _) h₂) ?_ fun _ _ _ h₃ => hfails h₃.1
  rintro _ w₃ tr₃ ⟨h₃, hdb₃, _⟩
  refine ends_bind (signupInvite_ends cfg inviteToken (cfg.env.normalizeEmail email) h₃) ?_
    fun _ _ _ h₄ => hfails h₄.1.1
  rintro invite w₄ tr₄ ⟨⟨h₄, hdb₄⟩, hinvited⟩
  refine ends_bind (ends_reads (uses_hash rfl) h₄) ?_ fun _ _ _ h₅ => hfails h₅.1
  rintro passwordHash w₅ tr₅ ⟨h₅, hdb₅, _⟩
  rw [← hinvited invite rfl]
  exact submitSignup_ends invite hint h₅
    (hdb₅.trans (hdb₄.trans (hdb₃.trans (hdb₂.trans hdb₁))))

end Codes

end SignupCodes
end Service
end OrbitAuth
