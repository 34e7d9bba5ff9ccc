import OrbitAuth.Postgres.Accounts
import OrbitAuth.Safety.Issuing

/-!
# Redemption — how a verification with the right code goes

`VerifyOTP` and `VerifySignup` look a challenge up, check it, consume it and only then make the
writes the caller came for, each in a statement of its own.  This module follows such a call
operation by operation and records which dependency did not get through.

* `Correct`, `Acceptable` — the code is the right one; the service will not refuse the call for
  another reason;
* `Course` — the four ways the call can end;
* `perform_ended` — there is no fifth.
-/

namespace OrbitAuth
namespace Service
namespace Redemption

open Domain Foundations Postgres Issuing

variable {goal : DB → Prop} {acceptable : Prop} {r : UserRow} {a : Address} {c : Choice}
  {o : Store.Op}

/-! ## Right codes -/

/-- The address, the channel and the code that a verification presents. -/
structure Presented where
  identifier : String
  channel : String
  code : String
  deriving DecidableEq

def presented (cfg : Config) : Call → Option Presented
  | .verifySignup email code _ => some ⟨cfg.env.normalizeEmail email, channelEmail, trimSpace code⟩
  | .verifyOTP identifier channel code => some ⟨trimSpace identifier, trimSpace channel, code⟩
  | _ => none

/-- The challenge that `GetLatestChallenge` answers with. -/
def latest (db : DB) (p : Presented) (pick : Nat) : Option ChallengeRow :=
  limitOne pick (newest ChallengeRow.createdAt
    (db.challenges.select (ChallengeRow.addressedTo p.identifier p.channel)))

/-- `VerifySignup` is called with the password of the account. -/
def RightPassword (cfg : Config) (db : DB) : Call → Prop
  | .verifySignup email _ password =>
      ∃ r ∈ db.users, r.email = some (cfg.env.normalizeEmail email) ∧
      cfg.env.compare r.user.passwordHash password = true
  | _ => True

/-- The call presents the code of the challenge `ch`, which is the one it will be compared with. -/
structure Correct (cfg : Config) (call : Call) (p : Presented) (ch : ChallengeRow) (pick : Nat)
    (db : DB) : Prop where
  presents : presented cfg call = some p
  latest : latest db p pick = some ch
  code : cfg.env.compare ch.codeHash p.code = true
  password : RightPassword cfg db call

/-- After `VerifySignup` the account is active and verified. -/
def Activated (cfg : Config) (db : DB) : Call → Prop
  | .verifySignup email _ _ => ∃ r ∈ db.users, r.email = some (cfg.env.normalizeEmail email) ∧
      r.status = .active ∧ r.emailVerifiedAt.isSome = true
  | _ => True

/-- The call passes the checks of the service: the challenge has attempts left, and the account is
pending for `VerifySignup` and is not for `VerifyOTP`. -/
def Acceptable (cfg : Config) (db : DB) (ch : ChallengeRow) : Call → Prop
  | .verifySignup email code _ => cfg.signupOpen = true ∧ cfg.env.normalizeEmail email ≠ "" ∧
      trimSpace code ≠ "" ∧ ch.attempts < maxOTPAttempts ∧
      ∀ r ∈ db.users, r.email = some (cfg.env.normalizeEmail email) →
        r.unverified = true ∧ r.user.passwordHash ≠ ""
  | .verifyOTP identifier channel code => trimSpace identifier ≠ "" ∧ code ≠ "" ∧
      ch.attempts < maxOTPAttempts ∧
      ((trimSpace channel = channelEmail ∧
          ∀ r ∈ db.users, r.email = some (trimSpace identifier) → r.status ≠ .signupPending) ∨
        (trimSpace channel = channelSMS ∧
          ∀ r ∈ db.users, r.mobile = some (trimSpace identifier) → r.status ≠ .signupPending))
  | _ => False

/-- The challenge was consumed. -/
def consumes (d : Done) : Bool :=
  match d.op with
  | .store (.consumeChallenge _) => !d.choice.fails
  | _ => false

/-- An attempt was counted. -/
def costs (d : Done) : Bool :=
  match d.op with
  | .store (.incrementAttempts _) => !d.choice.fails
  | _ => false

/-- The operations without which a spent code gives no session. -/
def decisive : Port → Bool
  | .store (.findByEmail _) | .store (.findByMobile _) => true
  | .store (.createByEmail _) | .store (.createByMobile _) | .store (.verifySignup _ _) => true
  | o => essential o

/-! ## The course of a verification -/

/-- Operations that insert a row under a drawn identifier. -/
def draws : Port → Bool
  | .store (.createByEmail _) | .store (.createByMobile _) | .store (.storeRefresh _ _ _ _) => true
  | _ => false

/-- The challenge is there, with an attempt counted or not, and no account was touched. -/
structure Kept (w : World) (ch : ChallengeRow) (w' : World) (tr : List Done) : Prop where
  users : w'.db.users = w.db.users
  challenges : w'.db.challenges = if tr.any costs then
    w.db.challenges.update (fun r => r.id = ch.id) ChallengeRow.attempted else w.db.challenges

def Gone (ch : ChallengeRow) (db : DB) : Prop :=
  ∀ ch' ∈ db.challenges, ch'.id ≠ ch.id

/-- How a verification that presents the right code ends. -/
inductive Course {α : Type} (acceptable : Prop) (w : World) (ch : ChallengeRow) (goal : DB → Prop) :
    Except Err α → World → List Done → Prop
  | refused {e : Err} {w' : World} {tr : List Done} (hnot : ¬ acceptable)
      (hdraws : ∀ d ∈ tr, draws d.op = false) (hkept : tr.any consumes = false → Kept w ch w' tr)
      (hgone : tr.any consumes = true → Gone ch w'.db) :
      Course acceptable w ch goal (.error e) w' tr
  | kept {e : Err} {w' : World} {tr : List Done} (haccept : acceptable)
      (hspends : tr.any consumes = false) (hkept : Kept w ch w' tr)
      (hcause : ∃ d ∈ tr, through w.db d = false ∨ ch.expiresAt < instant d) :
      Course acceptable w ch goal (.error e) w' tr
  | lost {e : Err} {w' : World} {tr : List Done} (haccept : acceptable)
      (hspends : tr.any consumes = true) (hgone : Gone ch w'.db)
      (hcause : ∃ d ∈ tr, decisive d.op = true ∧ through w.db d = false) :
      Course acceptable w ch goal (.error e) w' tr
  | done {a : α} {w' : World} {tr : List Done} (haccept : acceptable)
      (hspends : tr.any consumes = true) (hgone : Gone ch w'.db)
      (hthrough : ∀ d ∈ tr, decisive d.op = true → through w.db d = true) (hgoal : goal w'.db) :
      Course acceptable w ch goal (.ok a) w' tr

/-! ## Stages -/

/-- Operations that only look at the store. -/
def looks : Port → Bool
  | .now | .store (.getLatestChallenge _ _) | .store (.findByEmail _) | .store (.findByMobile _) =>
      true
  | _ => false

/-- Nothing has been written so far. -/
structure Intact (w : World) (w' : World) (tr : List Done) : Prop where
  now_le : w.now ≤ w'.now
  db : w'.db = w.db
  looks : ∀ d ∈ tr, looks d.op = true

def Calm (w : World) (tr : List Done) : Prop :=
  ∀ d ∈ tr, decisive d.op = true → through w.db d = true

def Drawless (tr : List Done) : Prop :=
  ∀ d ∈ tr, draws d.op = false

/-- The challenge was consumed, and no session has been stored. -/
structure Midway (w : World) (ch : ChallengeRow) (w' : World) (tr : List Done) : Prop where
  gone : Gone ch w'.db
  refreshTokens : w'.db.refreshTokens = w.db.refreshTokens
  spends : tr.any consumes = true

section Stages

variable {cfg : Config} {env : Env} {ok : Port → Choice → World → Prop} {w w' w'' : World}
  {tr : List Done} {ch : ChallengeRow} {o : Port} {c : Choice}

theorem looks_quiet {d : Done} (h : looks d.op = true) :
    consumes d = false ∧ costs d = false ∧ draws d.op = false := by
  rcases d with ⟨o, c, w⟩
  cases o with
  | store o => cases o <;> first | exact ⟨rfl, rfl, rfl⟩ | cases h
  | _ => exact ⟨rfl, rfl, rfl⟩

theorem intact_any (h : Intact w w' tr) : tr.any consumes = false ∧ tr.any costs = false := by
  refine ⟨List.any_eq_false.mpr fun d hd => ?_, List.any_eq_false.mpr fun d hd => ?_⟩
  · rw [(looks_quiet (h.looks d hd)).1]
    exact Bool.false_ne_true
  · rw [(looks_quiet (h.looks d hd)).2.1]
    exact Bool.false_ne_true

theorem intact_drawless (h : Intact w w' tr) : Drawless tr :=
  fun d hd => (looks_quiet (h.looks d hd)).2.2

theorem intact_kept (ch : ChallengeRow) (h : Intact w w' tr) : Kept w ch w' tr := by
  refine ⟨congrArg DB.users h.db, ?_⟩
  rw [(intact_any h).2, h.db]
  rfl

theorem intact_step (h : Intact w w' tr) (hnow : w'.now ≤ w''.now) (hdb : w''.db = w'.db)
    (ho : looks o = true) : Intact w w'' (tr ++ [⟨o, c, w'⟩]) :=
  ⟨h.now_le.trans hnow, hdb.trans h.db, forall_snoc h.looks ho⟩

theorem through_of_draws {db : DB} {d : Done} (hd : draws d.op = false) :
    through db d = !d.choice.fails := by
  have hfree : freeFor db d.choice.id d.op = true := by
    rcases d with ⟨o, c, w⟩
    cases o with
    | store o => cases o <;> first | rfl | cases hd
    | _ => rfl
  rw [through, hfree, Bool.and_true]

/-- What `matchChallenge` does with the challenge it has found. -/
def checkChallenge (cfg : Config) (code : String) (ch : OTPChallenge) :
    Action (OTPChallenge × Time) := do
  let t ← now
  failIf (ch.expiresAt < t) .invalidOTPCode
  failIf (maxOTPAttempts ≤ ch.attempts) .tooManyOTPAttempts
  if cfg.env.compare ch.codeHash code then pure (ch, t)
  else do
    ignore (.incrementAttempts ch.id)
    .fail .invalidOTPCode

/-- The right code passes unless the challenge is expired or has no attempts left. -/
theorem checkChallenge_ends {code : String} (hcode : cfg.env.compare ch.codeHash code = true)
    (h : Intact w w' tr) (hcalm : Calm w tr) :
    (checkChallenge cfg code ch.challenge).Ends (exec cfg.env) ok (fun res w'' tr'' =>
      Intact w w'' tr'' ∧ Calm w tr'' ∧
        ((∃ t, res = .ok (ch.challenge, t) ∧ w.now ≤ t ∧ ch.attempts < maxOTPAttempts) ∨
          ∃ e, res = .error e ∧
          ((∃ d ∈ tr'', ch.expiresAt < instant d) ∨ maxOTPAttempts ≤ ch.attempts)))
      w' tr := by
  refine ends_bind (M := fun res w₁ tr₁ => Intact w w₁ tr₁ ∧ Calm w tr₁ ∧ ∃ t, res = .ok t ∧
      w.now ≤ t ∧ ∃ d ∈ tr₁, instant d = t) ?_ ?_ fun _ _ _ h₁ =>
        h₁.2.2.elim fun _ ht => nomatch ht.1
  · refine ends_now fun c _ => ⟨intact_step h (le_max_left _ _) rfl rfl, ?_, _, rfl, ?_, _,
      last_mem _, rfl⟩
    · exact forall_snoc hcalm fun hdecisive => nomatch hdecisive
    · exact h.now_le.trans (le_max_left _ _)
  rintro t w₁ tr₁ ⟨h₁, hcalm₁, _, hres, hle, d, hd, hinstant⟩
  cases hres
  refine ends_check (fun _ => ?_) fun hexpired => ?_
  · refine ends_check (fun hleft => ?_) fun hused => ?_
    · have hmatch : cfg.env.compare ch.challenge.codeHash code = true := hcode
      rw [if_pos hmatch]
      exact .done ⟨h₁, hcalm₁, .inl ⟨t, rfl, hle, not_le.mp (of_decide_eq_false hleft)⟩⟩
    · exact ⟨h₁, hcalm₁, .inr ⟨_, rfl, .inr (of_decide_eq_true hused)⟩⟩
  · exact ⟨h₁, hcalm₁, .inr ⟨_, rfl, .inl ⟨d, hd, hinstant ▸ of_decide_eq_true hexpired⟩⟩⟩

theorem checked_challenge {found : OTPChallenge} {t : Time} {P : Time → Prop} {Q : Err → Prop}
    (h : (∃ t', (Except.ok (found, t) : Except Err (OTPChallenge × Time)) =
      .ok (ch.challenge, t') ∧ P t') ∨
      ∃ e, (Except.ok (found, t) : Except Err (OTPChallenge × Time)) = .error e ∧ Q e) :
    found = ch.challenge := by
  rcases h with ⟨_, hres, _⟩ | ⟨_, hres, _⟩
  · exact congrArg Prod.fst (Except.ok.inj hres)
  · cases hres

/-- The challenge is consumed unless the call fails as a dependency. -/
theorem consumeChallenge_ends (h : Intact w w' tr) :
    (store (.consumeChallenge ch.challenge.id)).Ends (exec env) ok (fun res w'' tr'' =>
      Drawless tr'' ∧ (Calm w tr → Calm w tr'') ∧
        ((res = .ok () ∧ Midway w ch w'' tr'' ∧ w''.db.users = w.db.users ∧ w.now ≤ w''.now) ∨
          ∃ e, res = .error e ∧ tr''.any consumes = false ∧ Kept w ch w'' tr'' ∧
            ∃ d ∈ tr'', through w.db d = false)) w' tr := by
  have hparse : Uuid.parse ch.challenge.id = some ch.id := Uuid.parse_string ch.id
  have hcalm : ∀ (c : Choice), Calm w tr →
      Calm w (tr ++ [⟨.store (.consumeChallenge ch.challenge.id), c, w'⟩]) :=
    fun c hcalm => forall_snoc hcalm fun hdecisive => nomatch hdecisive
  have hdraws :
      ∀ (c : Choice), Drawless (tr ++ [⟨.store (.consumeChallenge ch.challenge.id), c, w'⟩]) :=
    fun c => forall_snoc (intact_drawless h) rfl
  refine ends_passes (passes_store (.consumeChallenge ch.challenge.id)) ?_ ?_
  · intro c v _ hf _
    have hstored : (stored env (.consumeChallenge ch.challenge.id) c w').db =
        w.db.apply (.delChallenge ch.id) := by
      rw [← h.db]
      exact congrArg Prod.snd (Store.exec_consumeChallenge hparse)
    refine ⟨hdraws c, hcalm c, .inl ⟨rfl, ⟨?_, ?_, ?_⟩, ?_, ?_⟩⟩
    · rw [Gone, hstored]
      exact fun ch' hch' => (mem_erase.mp hch').2
    · rw [hstored]
      rfl
    · rw [any_snoc]
      simp [consumes, hf]
    · rw [hstored]
      rfl
    · exact h.now_le.trans (le_max_left _ _)
  · intro c e e' _ herr
    -- consuming never fails in the store itself
    have hf : c.fails = true := by
      refine Bool.eq_true_of_not_eq_false fun hf => ?_
      have hanswer := herr hf
      rw [Store.exec_consumeChallenge hparse] at hanswer
      cases hanswer
    refine ⟨hdraws c, hcalm c, .inr ⟨e', rfl, ?_, ⟨?_, ?_⟩, _, last_mem _, ?_⟩⟩
    · rw [any_snoc, (intact_any h).1]
      simp [consumes, hf]
    · exact congrArg DB.users h.db
    · rw [any_snoc, (intact_any h).2]
      exact congrArg DB.challenges h.db
    · simp [through, hf]

theorem decisive_of_essential {o : Port} (h : essential o = true) : decisive o = true := by
  cases o with
  | store o => cases o <;> first | rfl | cases h
  | sign => rfl
  | _ => cases h

theorem essential_of_issuing {o : Port} (h : issuing o = true) (hdecisive : decisive o = true) :
    essential o = true := by
  cases o with
  | store o => cases o <;> first | rfl | (cases hdecisive; done) | cases h
  | sign => rfl
  | _ => cases hdecisive

theorem refused_intact {α : Type} {e : Err} (hnot : ¬ acceptable) (h : Intact w w' tr) :
    Course acceptable w ch goal (.error e : Except Err α) w' tr := by
  refine .refused hnot (intact_drawless h) (fun _ => intact_kept ch h) fun hspent => ?_
  rw [(intact_any h).1] at hspent
  cases hspent

theorem midway_step {o : Store.Op} {c : Choice} (h : Midway w ch w' tr)
    (hchallenges : w''.db.challenges = w'.db.challenges)
    (hsessions : w''.db.refreshTokens = w'.db.refreshTokens) :
    Midway w ch w'' (tr ++ [⟨.store o, c, w'⟩]) := by
  refine ⟨?_, hsessions.trans h.refreshTokens, ?_⟩
  · rw [Gone, hchallenges]
    exact h.gone
  · rw [any_snoc, h.spends]
    rfl

/-- A store call that writes neither challenges nor sessions. -/
theorem midway_stored {o : Store.Op} {c : Choice} (h : Midway w ch w' tr)
    (hchallenges : .challenges ∉ o.writes) (hsessions : .refreshTokens ∉ o.writes) :
    Midway w ch (stored env o c w') (tr ++ [⟨.store o, c, w'⟩]) :=
  midway_step h (Store.exec_same (n := .challenges) hchallenges _ _ _ _)
    (Store.exec_same (n := .refreshTokens) hsessions _ _ _ _)

theorem through_essential {db db' : DB} (h : db'.refreshTokens = db.refreshTokens) {d : Done}
    (hd : essential d.op = true) : through db' d = through db d := by
  rcases d with ⟨o, c, w⟩
  cases o with
  | store o =>
      cases o with
      | storeRefresh => simp only [through, freeFor, h]
      | _ => cases hd
  | sign => rfl
  | _ => cases hd

/-- The last stage: the pair, once the account is settled. -/
theorem issue_ends (u : Uuid) (haccept : acceptable) (h : Midway w ch w' tr) (hcalm : Calm w tr)
    (hgoal : ∀ db, db.users = w'.db.users → goal db) :
    (issueTokens cfg u.string).Ends (exec cfg.env) ok (Course acceptable w ch goal) w' tr := by
  -- the code was consumed before this stage
  have hspends : ∀ more : List Done, (tr ++ more).any consumes = true := fun more => by
    rw [List.any_append, h.spends]
    rfl
  refine ends_mono ?_ (issueTokens_ends u w' tr)
  rintro res w'' tr'' ⟨more, hissues⟩
  cases hissues with
  | failed hdb htrail hissuing hcause =>
      subst htrail
      obtain ⟨d, hd, hessential, hfailed⟩ := hcause
      rw [through_essential h.refreshTokens hessential] at hfailed
      refine .lost haccept (hspends more) ?_ ⟨d, List.mem_append_right _ hd, ?_, hfailed⟩
      · rw [Gone, hdb]
        exact h.gone
      · exact decisive_of_essential hessential
  | issued hdb htrail hissuing hthrough =>
      subst htrail
      refine .done haccept (hspends more) ?_ ?_ ?_
      · rw [Gone, hdb]
        exact h.gone
      -- what came before went through, and so did every step of issuing that matters
      · intro d hd hdecisive
        rcases List.mem_append.mp hd with hd | hd
        · exact hcalm d hd hdecisive
        · have hessential := essential_of_issuing (hissuing d hd) hdecisive
          rw [← through_essential h.refreshTokens hessential]
          exact hthrough d hd hessential
      · refine hgoal _ ?_
        rw [hdb]

end Stages

/-! ## One-time codes -/

section Codes

variable {cfg : Config} {env : Env} {ok : Port → Choice → World → Prop} {w w' w'' : World}
  {tr : List Done} {ch : ChallengeRow}

/-- `FindOrCreate…`, whichever the address is. -/
def lookupOr (lookup : Action (Except Err User)) (create : Action User) : Action User := do
  match ← lookup with
  | .ok user => pure user
  | .error e => if e = .sql "" .noRows then create else .fail e

/-- Its lookup. -/
def findOp : Address → Store.Op
  | .email text => .findByEmail text
  | .mobile text => .findByMobile text

def tryFind : Address → Action (Except Err User)
  | .email text => tryStore (.findByEmail text)
  | .mobile text => tryStore (.findByMobile text)

/-- The creating transaction. -/
def createOp : Address → Store.Op
  | .email text => .createByEmail text
  | .mobile text => .createByMobile text

def create : Address → Action User
  | .email text => store (.createByEmail text)
  | .mobile text => store (.createByMobile text)

theorem findOrCreateByEmail_eq (email : String) : findOrCreateByEmail email =
    lookupOr (tryFind (.email email)) (create (.email email)) := by
  unfold findOrCreateByEmail lookupOr
  refine congrArg (tryStore (.findByEmail email) >>= ·) (funext fun res => ?_)
  cases res <;> rfl

theorem findOrCreateByMobile_eq (mobile : String) : findOrCreateByMobile mobile =
    lookupOr (tryFind (.mobile mobile)) (create (.mobile mobile)) := by
  unfold findOrCreateByMobile lookupOr
  refine congrArg (tryStore (.findByMobile mobile) >>= ·) (funext fun res => ?_)
  cases res <;> rfl

/-- How the account of a consumed code is found or created. -/
def Admitted (w : World) (ch : ChallengeRow) (res : Except Err User) (w' : World)
    (tr : List Done) : Prop :=
  Midway w ch w' tr ∧
    ((∃ (u : Uuid) (user : User), res = .ok user ∧ user.id = u.string ∧ user.status ≠
      .signupPending ∧
        Calm w tr) ∨
      ∃ e, res = .error e ∧ ∃ d ∈ tr, decisive d.op = true ∧ through w.db d = false)

/-- How its lookup ends; `absent` says that no row has the address. -/
inductive LookedUp (w : World) (ch : ChallengeRow) (absent : Prop) :
    Except Err (Except Err User) → World → List Done → Prop
  | found {w' : World} {tr : List Done} (r : UserRow) (hr : r.status ≠ .signupPending)
      (h : Midway w ch w' tr) (hcalm : Calm w tr) : LookedUp w ch absent (.ok (.ok r.user)) w' tr
  | missing {w' : World} {tr : List Done} (habsent : absent) (h : Midway w ch w' tr)
      (hcalm : Calm w tr) (husers : w'.db.users = w.db.users) :
      LookedUp w ch absent (.ok (.error (.sql "" .noRows))) w' tr
  | failed {w' : World} {tr : List Done} (h : Midway w ch w' tr)
      (hcause : ∃ d ∈ tr, decisive d.op = true ∧ through w.db d = false) :
      LookedUp w ch absent (.ok (.error .dependency)) w' tr

theorem lookupOr_ends {absent : Prop} {lookup : Action (Except Err User)} {create : Action User}
    (hlookup : lookup.Ends (exec env) ok (LookedUp w ch absent) w' tr)
    (hcreate : ∀ w₁ tr₁, absent → Midway w ch w₁ tr₁ → Calm w tr₁ → w₁.db.users = w.db.users →
      create.Ends (exec env) ok (Admitted w ch) w₁ tr₁) :
    (lookupOr lookup create).Ends (exec env) ok (Admitted w ch) w' tr := by
  refine ends_bind hlookup ?_ fun _ _ _ h₁ => nomatch h₁
  intro res w₁ tr₁ h₁
  cases h₁ with
  | found r hr h hcalm => exact .done ⟨h, .inl ⟨r.id, r.user, rfl, rfl, hr, hcalm⟩⟩
  | missing habsent h hcalm husers =>
      dsimp only
      rw [if_pos rfl]
      exact hcreate w₁ tr₁ habsent h hcalm husers
  | failed h hcause => exact .fail ⟨h, .inr ⟨_, rfl, hcause⟩⟩

theorem lookupOr_refused {lookup : Action (Except Err User)} {create : Action User}
    (hlookup : lookup.Ends (exec env) ok (fun res w₁ tr₁ => Midway w ch w₁ tr₁ ∧ Drawless tr₁ ∧
      (res = .ok (.error .dependency) ∨ ∃ user, res = .ok (.ok user) ∧ user.status =
        .signupPending)) w' tr) :
    (lookupOr lookup create).Ends (exec env) ok (fun res w₁ tr₁ => Midway w ch w₁ tr₁ ∧
    Drawless tr₁ ∧
      ∀ user, res = .ok user → user.status = .signupPending) w' tr := by
  refine ends_bind hlookup ?_ fun _ _ _ h₁ => ⟨h₁.1, h₁.2.1, fun _ hres => nomatch hres⟩
  rintro _ w₁ tr₁ ⟨h₁, hdraws, hres | ⟨user, hres, hpending⟩⟩
  · cases hres
    exact .fail ⟨h₁, hdraws, fun _ hres => nomatch hres⟩
  · cases hres
    refine .done ⟨h₁, hdraws, fun user' hres => ?_⟩
    cases hres
    exact hpending

/-- A `:one` query over the accounts. -/
theorem found_user (db : DB) (p : UserRow → Bool) :
    (∃ r ∈ db.users, p r = true ∧
    Store.found ((db.users.rows.find? p).map UserRow.user) = .ok r.user) ∨
      (∀ r ∈ db.users, p r = false) ∧
        Store.found ((db.users.rows.find? p).map UserRow.user) = .error (.sql "" .noRows) := by
  cases hfind : db.users.rows.find? p with
  | none => exact .inr ⟨fun r hr => Bool.eq_false_iff.mpr (List.find?_eq_none.mp hfind r hr), rfl⟩
  | some r => exact .inl ⟨r, List.mem_of_find?_eq_some hfind, List.find?_some hfind, rfl⟩

theorem lookedUp_found {p : UserRow → Bool} (h : Midway w ch w'' tr) (hcalm : Calm w tr)
    (husers : w'.db.users = w.db.users) (husers' : w''.db.users = w.db.users)
    (hstatus : ∀ r ∈ w.db.users, p r = true → r.status ≠ .signupPending) :
    LookedUp w ch (∀ r ∈ w.db.users, p r = false)
      (.ok (Store.found ((w'.db.users.rows.find? p).map UserRow.user))) w'' tr := by
  rcases found_user w'.db p with ⟨r, hr, hp, hres⟩ | ⟨hnone, hres⟩
  · rw [hres]
    exact .found r (hstatus r (husers ▸ hr) hp) h hcalm
  · rw [hres]
    exact .missing (husers ▸ hnone) h hcalm husers'

/-- The lookup answers from the rows, or fails as a dependency. -/
theorem ends_tryFind {post : Except Err (Except Err User) → World → List Done → Prop}
    (hruns : ∀ c, c.fails = false →
      post (.ok (Store.found ((w'.db.users.rows.find? a.names).map UserRow.user)))
        (stored env (findOp a) c w') (tr ++ [⟨.store (findOp a), c, w'⟩]))
    (hfails : ∀ c, c.fails = true → post (.ok (.error .dependency)) (w'.advance c.now)
      (tr ++ [⟨.store (findOp a), c, w'⟩])) : (tryFind a).Ends (exec env) ok post w' tr := by
  cases a with
  | email text =>
      refine ends_lookup (o := .findByEmail text) (fun c hf => ?_) hfails
      rw [Store.exec_findByEmail]
      exact hruns c hf
  | mobile text =>
      refine ends_lookup (o := .findByMobile text) (fun c hf => ?_) hfails
      rw [Store.exec_findByMobile]
      exact hruns c hf

theorem midway_find {a : Address} {c : Choice} (h : Midway w ch w' tr) :
    Midway w ch (stored env (findOp a) c w') (tr ++ [⟨.store (findOp a), c, w'⟩]) := by
  cases a <;> exact midway_stored h (by simp [findOp, Store.Op.writes])
    (by simp [findOp, Store.Op.writes])

/-- The account is looked up by its address. -/
theorem tryFind_ends (h : Midway w ch w' tr) (hcalm : Calm w tr)
    (husers : w'.db.users = w.db.users)
    (hstatus : ∀ r ∈ w.db.users, a.names r = true → r.status ≠ .signupPending) :
    (tryFind a).Ends (exec env) ok (LookedUp w ch (∀ r ∈ w.db.users, a.names r = false)) w' tr := by
  refine ends_tryFind (fun c hf => ?_) fun c hf => ?_
  · refine lookedUp_found (midway_find h) (forall_snoc hcalm fun _ => ?_) husers ?_ hstatus
    · cases a <;> simp [through, freeFor, findOp, hf]
    · refine Eq.trans (congrArg DB.users (Store.exec_reads ?_ _ _ _ _)) husers
      cases a <;> rfl
  · refine .failed (midway_step h rfl rfl) ⟨_, last_mem _, ?_, by simp [through, hf]⟩
    cases a <;> rfl

/-- An account that is created has the drawn identifier, which was free. -/
theorem admitted_created {user : User} (h : Midway w ch w'' (tr ++ [⟨.store o, c, w'⟩]))
    (hcalm : Calm w tr) (hf : c.fails = false) (hfree : freeFor w.db c.id (.store o) = true)
    (hid : user.id = c.id.string) (hstatus : user.status ≠ .signupPending) :
    Admitted w ch (.ok user) w'' (tr ++ [⟨.store o, c, w'⟩]) := by
  refine ⟨h, .inl ⟨c.id, user, rfl, hid, hstatus, forall_snoc hcalm fun _ => ?_⟩⟩
  simp [through, hf, hfree]

/-- With a free identifier only the call itself can fail. -/
theorem admitted_failed {e : Err} (h : Midway w ch w' tr) (ho : decisive (.store o) = true)
    (hanswers : c.fails = false → freeFor w.db c.id (.store o) = true → False) :
    Admitted w ch (.error e) (w'.advance c.now) (tr ++ [⟨.store o, c, w'⟩]) := by
  refine ⟨midway_step h rfl rfl, .inr ⟨e, rfl, _, last_mem _, ho, ?_⟩⟩
  refine Bool.eq_false_iff.mpr fun hthrough => ?_
  simp only [through, Bool.and_eq_true, Bool.not_eq_true'] at hthrough
  exact hanswers hthrough.1 hthrough.2

/-- The transaction returns the new account, unless it fails or something it inserts is taken. -/
theorem ends_create {post : Except Err User → World → List Done → Prop}
    (hok : ∀ c, c.fails = false → (∀ r ∈ w'.db.users, r.id ≠ c.id) →
      post (.ok (a.built c.id)) (stored env (createOp a) c w')
        (tr ++ [⟨.store (createOp a), c, w'⟩]))
    (herr : ∀ c e, (c.fails = false → ¬ ∀ r ∈ w'.db.users, r.id ≠ c.id ∧ a.names r = false) →
      post (.error e) (w'.advance c.now) (tr ++ [⟨.store (createOp a), c, w'⟩])) :
    (create a).Ends (exec env) ok post w' tr := by
  have hcreated : ∀ (c : Choice) (user : User), c.fails = false →
      (Store.execCreate env (max w'.now c.now) c.id c.pick w'.db a).1 = .ok user →
      post (.ok user) (stored env (createOp a) c w') (tr ++ [⟨.store (createOp a), c, w'⟩]) := by
    intro c user hf hres
    obtain ⟨rfl, hfree, _⟩ := Store.execCreate_ok hres
    exact hok c hf hfree
  have hfailed : ∀ (c : Choice) (e e' : Err), (c.fails = false →
      (Store.execCreate env (max w'.now c.now) c.id c.pick w'.db a).1 = .error e) →
      post (.error e') (w'.advance c.now) (tr ++ [⟨.store (createOp a), c, w'⟩]) := by
    refine fun c e e' hres => herr c e' fun hf hfree => ?_
    exact nomatch (Store.execCreate_of_free hfree).symm.trans (hres hf)
  cases a with
  | email text =>
      exact ends_passes (passes_store (.createByEmail text)) (fun c v _ => hcreated c v)
        fun c e e' _ => hfailed c e e'
  | mobile text =>
      exact ends_passes (passes_store (.createByMobile text)) (fun c v _ => hcreated c v)
        fun c e e' _ => hfailed c e e'

theorem create_ends {a : Address} (habsent : ∀ r ∈ w.db.users, a.names r = false)
    (h : Midway w ch w' tr) (hcalm : Calm w tr) (husers : w'.db.users = w.db.users) :
    (create a).Ends (exec env) ok (Admitted w ch) w' tr := by
  have hfree : ∀ id : Uuid, freeFor w.db id (.store (createOp a)) = true ↔
      ∀ r ∈ w.db.users, r.id ≠ id := by
    intro id
    cases a <;> simp [freeFor, createOp]
  refine ends_create (fun c hf hid => ?_) fun c e hres => ?_
  · refine admitted_created ?_ hcalm hf ((hfree c.id).mpr (husers ▸ hid)) ?_ ?_
    · cases a <;> exact midway_stored h (by simp [createOp, Store.Op.writes])
        (by simp [createOp, Store.Op.writes])
    · cases a <;> rfl
    -- the user that is returned for a mobile number has no status at all
    · cases a <;> simp [Address.built]
  · refine admitted_failed h (by cases a <;> rfl) fun hf hid => hres hf fun r hr => ?_
    rw [husers] at hr
    exact ⟨(hfree c.id).mp hid r hr, habsent r hr⟩

/-- The account behind an acceptable code is found or created, or a decisive call did not get
through. -/
theorem findOrCreate_ends {identifier channel : String} (h : Midway w ch w' tr) (hcalm : Calm w tr)
    (husers : w'.db.users = w.db.users)
    (hstatus : (channel = channelEmail ∧
        ∀ r ∈ w.db.users, r.email = some identifier → r.status ≠ .signupPending) ∨
      (channel = channelSMS ∧
        ∀ r ∈ w.db.users, r.mobile = some identifier → r.status ≠ .signupPending)) :
    (findOrCreate identifier channel).Ends (exec env) ok (Admitted w ch) w' tr := by
  unfold findOrCreate
  rcases hstatus with ⟨rfl, hstatus⟩ | ⟨rfl, hstatus⟩
  · rw [if_pos rfl, findOrCreateByEmail_eq]
    refine lookupOr_ends (tryFind_ends h hcalm husers ?_) fun w₁ tr₁ => create_ends
    exact fun r hr hemail => hstatus r hr (of_decide_eq_true hemail)
  · rw [if_neg (by decide), if_pos rfl, findOrCreateByMobile_eq]
    refine lookupOr_ends (tryFind_ends h hcalm husers ?_) fun w₁ tr₁ => create_ends
    exact fun r hr hmobile => hstatus r hr (of_decide_eq_true hmobile)

/-- What `VerifyOTP` does with the challenge it has found. -/
def redeemOTP (cfg : Config) (identifier channel code : String) (found : OTPChallenge) :
    Action TokenPair := do
  let (ch, _) ← checkChallenge cfg code found
  store (.consumeChallenge ch.id)
  let user ← findOrCreate identifier channel
  failIf (user.status = .signupPending) .invalidOTPCode
  issueTokens cfg user.id

theorem redeemOTP_accepted {p : Presented} (haccept : acceptable)
    (hcode : cfg.env.compare ch.codeHash p.code = true) (hattempts : ch.attempts < maxOTPAttempts)
    (hstatus : (p.channel = channelEmail ∧
        ∀ r ∈ w.db.users, r.email = some p.identifier → r.status ≠ .signupPending) ∨
      (p.channel = channelSMS ∧
        ∀ r ∈ w.db.users, r.mobile = some p.identifier → r.status ≠ .signupPending))
    (hgoal : ∀ db, goal db) (h : Intact w w' tr) (hcalm : Calm w tr) :
    (redeemOTP cfg p.identifier p.channel p.code ch.challenge).Ends (exec cfg.env) ok
      (Course acceptable w ch goal) w' tr := by
  refine ends_bind (checkChallenge_ends hcode h hcalm) ?_ ?_
  · rintro ⟨found, t⟩ w₁ tr₁ ⟨h₁, hcalm₁, hchecked⟩
    obtain rfl : found = ch.challenge := checked_challenge hchecked
    refine ends_bind (consumeChallenge_ends h₁) ?_ ?_
    · rintro _ w₂ tr₂ ⟨_, hcalm₂, hconsumed⟩
      obtain ⟨_, hmid, husers, _⟩ | ⟨_, hres, _⟩ := hconsumed
      -- from here on the code is spent, whatever happens
      · refine ends_bind (findOrCreate_ends hmid (hcalm₂ hcalm₁) husers hstatus) ?_ ?_
        · rintro user w₃ tr₃ ⟨hmid₃, hfound⟩
          obtain ⟨u, _, hres, hid, hpending, hcalm₃⟩ | ⟨_, hres, _⟩ := hfound <;> cases hres
          refine ends_check (fun _ => ?_) fun hrefused => absurd
            (of_decide_eq_true hrefused) hpending
          rw [hid]
          exact issue_ends u haccept hmid₃ hcalm₃ fun db _ => hgoal db
        · rintro e w₃ tr₃ ⟨hmid₃, hfound⟩
          obtain ⟨_, _, hres, _⟩ | ⟨_, _, hcause⟩ := hfound
          · cases hres
          · exact .lost haccept hmid₃.spends hmid₃.gone hcause
      · cases hres
    -- the code could not be consumed and is kept
    · rintro e w₂ tr₂ ⟨_, _, hconsumed⟩
      obtain ⟨hres, _⟩ | ⟨_, _, hspends, hkept, d, hd, hfailed⟩ := hconsumed
      · cases hres
      · exact .kept haccept hspends hkept ⟨d, hd, .inl hfailed⟩
  · rintro e w₁ tr₁ ⟨h₁, _, hchecked⟩
    -- an acceptable code fails the checks only when the clock has run past its expiry
    obtain ⟨_, hres, _⟩ | ⟨_, _, ⟨d, hd, hlate⟩ | hused⟩ := hchecked
    · cases hres
    · exact .kept haccept (intact_any h₁).1 (intact_kept ch h₁) ⟨d, hd, .inr hlate⟩
    · exact absurd hattempts (not_lt.mpr hused)

/-- A lookup that can only find one account. -/
theorem found_only {db : DB} {p : UserRow → Bool} (hr : r ∈ db.users) (hp : p r = true)
    (hunique : ∀ s ∈ db.users, p s = true → s = r) :
    Store.found ((db.users.rows.find? p).map UserRow.user) = .ok r.user := by
  rcases found_user db p with ⟨s, hs, hps, hres⟩ | ⟨hnone, _⟩
  · rw [hres, hunique s hs hps]
  · rw [hnone r hr] at hp
    cases hp

/-- A lookup that can only find a pending account. -/
theorem tryFind_refused (h : Midway w ch w' tr) (hdraws : Drawless tr) (hr : r ∈ w'.db.users)
    (ha : a.names r = true) (hpending : r.status = .signupPending)
    (hunique : ∀ s ∈ w'.db.users, a.names s = true → s = r) :
    (tryFind a).Ends (exec env) ok (fun res w₁ tr₁ => Midway w ch w₁ tr₁ ∧ Drawless tr₁ ∧
      (res = .ok (.error .dependency) ∨
        ∃ user, res = .ok (.ok user) ∧ user.status = .signupPending)) w' tr := by
  refine ends_tryFind (fun c hf => ?_) fun c hf => ?_
  · refine ⟨midway_find h, forall_snoc hdraws (by cases a <;> rfl), .inr ⟨r.user, ?_, hpending⟩⟩
    exact congrArg Except.ok (found_only hr ha hunique)
  · exact ⟨midway_step h rfl rfl, forall_snoc hdraws (by cases a <;> rfl), .inl rfl⟩

/-- The account behind an unacceptable code is not let in. -/
theorem findOrCreate_refused {identifier channel : String} (h : Midway w ch w' tr)
    (hdraws : Drawless tr) (husers : w'.db.users = w.db.users) (hint : w.db.Integrity)
    (hstatus : ¬ ((channel = channelEmail ∧
        ∀ r ∈ w.db.users, r.email = some identifier → r.status ≠ .signupPending) ∨
      (channel = channelSMS ∧
        ∀ r ∈ w.db.users, r.mobile = some identifier → r.status ≠ .signupPending))) :
    (findOrCreate identifier channel).Ends (exec env) ok (fun res w'' tr'' => Midway w ch w'' tr'' ∧
      Drawless tr'' ∧ ∀ user, res = .ok user → user.status = .signupPending) w' tr := by
  obtain ⟨hemail, hmobile⟩ := not_or.mp hstatus
  rw [← husers] at hemail hmobile
  unfold findOrCreate
  split
  -- that no account of the address is pending was the only thing missing
  · rename_i hchannel
    obtain ⟨r, hr, haddress, hpending⟩ : ∃ r ∈ w'.db.users, r.email = some identifier ∧
        r.status = .signupPending := by
      by_contra hnone
      exact hemail ⟨hchannel, fun r hr haddress hpending => hnone ⟨r, hr, haddress, hpending⟩⟩
    rw [findOrCreateByEmail_eq]
    refine lookupOr_refused (tryFind_refused h hdraws hr (decide_eq_true haddress) hpending ?_)
    intro s hs hnames
    exact hint.email s (husers ▸ hs) r (husers ▸ hr) identifier (of_decide_eq_true hnames) haddress
  · split
    · rename_i hchannel
      obtain ⟨r, hr, haddress, hpending⟩ : ∃ r ∈ w'.db.users, r.mobile = some identifier ∧
          r.status = .signupPending := by
        by_contra hnone
        exact hmobile ⟨hchannel, fun r hr haddress hpending => hnone ⟨r, hr, haddress, hpending⟩⟩
      rw [findOrCreateByMobile_eq]
      refine lookupOr_refused (tryFind_refused h hdraws hr (decide_eq_true haddress) hpending ?_)
      intro s hs hnames
      exact hint.mobile s (husers ▸ hs) r (husers ▸ hr) identifier (of_decide_eq_true hnames)
        haddress
    · refine .fail ⟨h, hdraws, ?_⟩
      intro user hres
      cases hres

theorem redeemOTP_refused {p : Presented} (hnot : ¬ acceptable) (hint : w.db.Integrity)
    (hcode : cfg.env.compare ch.codeHash p.code = true)
    (hstatus : ch.attempts < maxOTPAttempts → ¬ ((p.channel = channelEmail ∧
        ∀ r ∈ w.db.users, r.email = some p.identifier → r.status ≠ .signupPending) ∨
      (p.channel = channelSMS ∧
        ∀ r ∈ w.db.users, r.mobile = some p.identifier → r.status ≠ .signupPending)))
    (h : Intact w w' tr) (hcalm : Calm w tr) :
    (redeemOTP cfg p.identifier p.channel p.code ch.challenge).Ends (exec cfg.env) ok
      (Course acceptable w ch goal) w' tr := by
  refine ends_bind (checkChallenge_ends hcode h hcalm) ?_ ?_
  · rintro ⟨found, t⟩ w₁ tr₁ ⟨h₁, _, hchecked⟩
    obtain rfl : found = ch.challenge := checked_challenge hchecked
    -- the checks passed, so it must be the account that is refused
    have hleft : ch.attempts < maxOTPAttempts := by
      obtain ⟨_, _, _, hleft⟩ | ⟨_, hres, _⟩ := hchecked
      · exact hleft
      · cases hres
    refine ends_bind (consumeChallenge_ends h₁) ?_ ?_
    · rintro _ w₂ tr₂ ⟨hdraws, _, hconsumed⟩
      obtain ⟨_, hmid, husers, _⟩ | ⟨_, hres, _⟩ := hconsumed
      · have hrefused : ∀ {e w₃ tr₃}, Midway w ch w₃ tr₃ → Drawless tr₃ →
            Course acceptable w ch goal (.error e : Except Err TokenPair) w₃ tr₃ := by
          intro e w₃ tr₃ hmid₃ hdraws₃
          refine .refused hnot hdraws₃ (fun hspends => ?_) fun _ => hmid₃.gone
          rw [hmid₃.spends] at hspends
          cases hspends
        refine ends_bind (findOrCreate_refused hmid hdraws husers hint (hstatus hleft)) ?_
          fun _ _ _ h₃ => hrefused h₃.1 h₃.2.1
        rintro user w₃ tr₃ ⟨hmid₃, hdraws₃, hpending⟩
        refine ends_check (fun hadmitted => ?_) fun _ => hrefused hmid₃ hdraws₃
        exact absurd (hpending user rfl) (of_decide_eq_false hadmitted)
      · cases hres
    · rintro e w₂ tr₂ ⟨hdraws, _, hconsumed⟩
      obtain ⟨hres, _⟩ | ⟨_, _, hspends, hkept, _⟩ := hconsumed
      · cases hres
      · refine .refused hnot hdraws (fun _ => hkept) fun hspent => ?_
        rw [hspends] at hspent
        cases hspent
  · rintro e w₁ tr₁ ⟨h₁, _⟩
    exact refused_intact hnot h₁

end Codes

/-! ## Sign-ups -/

section Signups

variable {cfg : Config} {env : Env} {ok : Port → Choice → World → Prop} {w w' w'' : World}
  {tr : List Done} {ch : ChallengeRow}

/-- A rejected sign-up keeps its challenge and counts an attempt, if that does not fail. -/
theorem rejectSignup_ends (h : Intact w w' tr) :
    (rejectSignup ch.challenge).Ends (exec env) ok (fun res w'' tr'' => (∃ e, res = .error e) ∧
      tr''.any consumes = false ∧ Kept w ch w'' tr'' ∧ Drawless tr'' ∧
      ∀ d ∈ tr, d ∈ tr'') w' tr := by
  have hparse : Uuid.parse ch.challenge.id = some ch.id := Uuid.parse_string ch.id
  refine .call fun c _ => .fail ⟨⟨_, rfl⟩, ?_, ?_, forall_snoc (intact_drawless h) rfl,
    fun d hd => List.mem_append_left _ hd⟩
  · rw [any_snoc, (intact_any h).1]
    rfl
  · cases hf : c.fails with
    | true =>
        rw [exec_store_fails env _ hf]
        refine ⟨congrArg DB.users h.db, ?_⟩
        rw [any_snoc, (intact_any h).2]
        simp [costs, hf, h.db]
    | false =>
        rw [exec_store_runs env _ hf]
        have hsame :
            ((Store.Op.incrementAttempts ch.challenge.id).exec env (max w'.now c.now) c.id c.pick
              w'.db).2.users = w'.db.users :=
          Store.exec_same (n := .users) (by simp [Store.Op.writes]) _ _ _ _
        refine ⟨hsame.trans (congrArg DB.users h.db), ?_⟩
        -- the attempt is counted in the challenge and in the trail
        have hcounted :
          (tr ++ [(⟨.store (.incrementAttempts ch.challenge.id), c, w'⟩ : Done)]).any costs =
            true := by
          rw [any_snoc]
          simp [costs, hf]
        rw [hcounted, if_pos rfl, ← h.db]
        exact (Store.exec_incrementAttempts hparse).2

/-- The account of the address is found, or the lookup fails. -/
theorem findAccount_ends {email : String} (hint : w.db.Integrity) (hr : r ∈ w.db.users)
    (hemail : r.email = some email) (h : Intact w w' tr) (hcalm : Calm w tr) :
    (tryStore (.findByEmail email)).Ends (exec env) ok (fun res w'' tr'' => Intact w w'' tr'' ∧
      ((res = .ok (.ok r.user) ∧ Calm w tr'') ∨
        (∃ e, res = .ok (.error e)) ∧ ∃ d ∈ tr'', through w.db d = false)) w' tr := by
  refine ends_lookup (o := .findByEmail email) (fun c hf => ?_) fun c hf => ?_
  · have hdb : (stored env (.findByEmail email) c w').db = w'.db := Store.exec_reads rfl _ _ _ _
    refine ⟨intact_step h (le_max_left _ _) hdb rfl, .inl ⟨?_, ?_⟩⟩
    · rw [h.db]
      exact congrArg Except.ok (Store.exec_findByEmail_of_mem hint hr hemail)
    · exact forall_snoc hcalm fun _ => by simp [through, freeFor, hf]
  · exact ⟨intact_step h (le_max_left _ _) rfl rfl,
      .inr ⟨⟨_, rfl⟩, _, last_mem _, by simp [through, hf]⟩⟩

/-- The account passes the checks of `VerifySignup`. -/
def Awaits (r : UserRow) : Prop :=
  r.unverified = true ∧ r.user.passwordHash ≠ ""

theorem awaits_iff {password : String}
    (hpassword : cfg.env.compare r.user.passwordHash password = true) :
    (r.user.status ≠ .signupPending || r.user.emailVerified || r.user.passwordHash = "" ||
      !cfg.env.compare r.user.passwordHash password) = false ↔ Awaits r := by
  rw [hpassword]
  simp only [Bool.or_eq_false_iff, decide_eq_false_iff_not, not_not, Bool.not_true, and_true]
  simp [Awaits, UserRow.unverified, UserRow.user]

theorem matchSignup_ends {email password : String} (hint : w.db.Integrity) (hr : r ∈ w.db.users)
    (hemail : r.email = some email)
    (hpassword : cfg.env.compare r.user.passwordHash password = true) (h : Intact w w' tr)
    (hcalm : Calm w tr) :
    (matchSignup cfg ch.challenge email password).Ends (exec cfg.env) ok (fun res w'' tr'' =>
      (res = .ok r.user ∧ Awaits r ∧ Intact w w'' tr'' ∧ Calm w tr'') ∨
        ((∃ e, res = .error e) ∧ tr''.any consumes = false ∧ Kept w ch w'' tr'' ∧ Drawless tr'' ∧
          (Awaits r → ∃ d ∈ tr'', through w.db d = false))) w' tr := by
  -- a rejection keeps what led to it in the trail
  have hreject : ∀ {w₁ : World} {tr₁ : List Done}, Intact w w₁ tr₁ →
      (Awaits r → ∃ d ∈ tr₁, through w.db d = false) →
      (rejectSignup ch.challenge).Ends (exec cfg.env) ok (fun res w'' tr'' =>
        (res = .ok r.user ∧ Awaits r ∧ Intact w w'' tr'' ∧ Calm w tr'') ∨
          ((∃ e, res = .error e) ∧ tr''.any consumes = false ∧ Kept w ch w'' tr'' ∧ Drawless tr'' ∧
            (Awaits r → ∃ d ∈ tr'', through w.db d = false))) w₁ tr₁ := by
    intro w₁ tr₁ h₁ hcause
    refine ends_mono ?_ (rejectSignup_ends h₁)
    rintro res w₂ tr₂ ⟨hres, hspends, hkept, hdraws, hmem⟩
    refine .inr ⟨hres, hspends, hkept, hdraws, fun hawaits => ?_⟩
    obtain ⟨d, hd, hfailed⟩ := hcause hawaits
    exact ⟨d, hmem d hd, hfailed⟩
  refine ends_bind (findAccount_ends hint hr hemail h hcalm) ?_ ?_
  · rintro _ w₁ tr₁ ⟨h₁, ⟨hres, hcalm₁⟩ | ⟨⟨e, hres⟩, hcause⟩⟩
    · obtain rfl := Except.ok.inj hres
      dsimp only
      split
      · rename_i hrefused
        refine hreject h₁ fun hawaits => ?_
        rw [(awaits_iff hpassword).mpr hawaits] at hrefused
        cases hrefused
      · rename_i haccepted
        exact .done
          (.inl ⟨rfl, (awaits_iff hpassword).mp (Bool.eq_false_iff.mpr haccepted), h₁, hcalm₁⟩)
    · cases hres
      exact hreject h₁ fun _ => hcause
  · rintro e w₁ tr₁ ⟨_, ⟨hres, _⟩ | ⟨⟨_, hres⟩, _⟩⟩ <;> cases hres

/-- The account that awaits its verification is activated unless the call fails as a dependency. -/
theorem activate_ends {r : UserRow} {t : Time} (hr : r ∈ w.db.users)
    (hunverified : r.unverified = true) (ht : t ≠ 0) (h : Midway w ch w' tr) (hcalm : Calm w tr)
    (husers : w'.db.users = w.db.users) :
    (storeMapping .userNotFound .invalidOTPCode (.verifySignup r.id.string t)).Ends (exec env) ok
      (fun res w'' tr'' => Midway w ch w'' tr'' ∧
        ((res = .ok () ∧ Calm w tr'' ∧ ∃ r' ∈ w''.db.users, r'.email = r.email ∧
        r'.status = .active ∧
            r'.emailVerifiedAt.isSome = true) ∨
          (∃ e, res = .error e) ∧ ∃ d ∈ tr'', decisive d.op = true ∧ through w.db d = false)) w'
            tr := by
  have hexec : ∀ now id pick, (Store.Op.verifySignup r.id.string t).exec env now id pick w'.db =
      (.ok (), Store.verified now w'.db r.id (Store.timestamptz t)) := fun now id pick =>
    Store.exec_verifySignup_of_pending (husers ▸ hr) hunverified t
  refine ends_passes (passes_storeMapping _ _ (.verifySignup r.id.string t)) ?_ ?_
  · intro c _ _ hf _
    refine ⟨midway_stored h (by simp [Store.Op.writes]) (by simp [Store.Op.writes]),
      .inl ⟨rfl, ?_, ?_⟩⟩
    · exact forall_snoc hcalm fun _ => by simp [through, freeFor, hf]
    · refine ⟨r.activated (max w'.now c.now) (Store.timestamptz t), ?_, rfl, rfl, ?_⟩
      · unfold stored
        rw [hexec]
        refine (mem_update (key_activated _ _)).mpr (.inl ⟨r, husers ▸ hr, ?_, rfl⟩)
        exact Bool.and_eq_true_iff.mpr ⟨decide_eq_true rfl, hunverified⟩
      · simp [UserRow.activated, Store.timestamptz, ht]
  -- the row is pending, so only the dependency can have failed
  · intro c e _ _ hres
    have hf : c.fails = true := by
      refine Bool.eq_true_of_not_eq_false fun hf => ?_
      have hanswer := hres hf
      rw [hexec] at hanswer
      cases hanswer
    exact ⟨midway_step h rfl rfl, .inr ⟨⟨_, rfl⟩, _, last_mem _, rfl, by simp [through, hf]⟩⟩

/-- What `VerifySignup` does with the challenge it has found. -/
def redeemSignup (cfg : Config) (email code password : String) (found : OTPChallenge) :
    Action TokenPair := do
  let (ch, t) ← checkChallenge cfg code found
  let user ← matchSignup cfg ch email password
  store (.consumeChallenge ch.id)
  storeMapping .userNotFound .invalidOTPCode (.verifySignup user.id t)
  issueTokens cfg user.id

/-- `VerifySignup` once its challenge and its account have been found to be right. -/
theorem activation_ends {t : Time} (haccept : acceptable) (hr : r ∈ w.db.users)
    (hunverified : r.unverified = true) (ht : t ≠ 0)
    (hgoal : ∀ db, (∃ r' ∈ db.users, r'.email = r.email ∧ r'.status = .active ∧
      r'.emailVerifiedAt.isSome = true) → goal db) (h : Intact w w' tr) (hcalm : Calm w tr) :
    (do store (.consumeChallenge ch.challenge.id)
        storeMapping .userNotFound .invalidOTPCode (.verifySignup r.id.string t)
        issueTokens cfg r.id.string : Action TokenPair).Ends (exec cfg.env) ok
      (Course acceptable w ch goal) w' tr := by
  refine ends_bind (consumeChallenge_ends h) ?_ ?_
  · rintro _ w₁ tr₁ ⟨_, hcalm₁, ⟨_, hmid, husers, _⟩ | ⟨_, hres, _⟩⟩
    · refine ends_bind (activate_ends hr hunverified ht hmid (hcalm₁ hcalm) husers) ?_ ?_
      · rintro _ w₂ tr₂ ⟨hmid₂, ⟨_, hcalm₂, hactive⟩ | ⟨⟨_, hres⟩, _⟩⟩
        · refine issue_ends r.id haccept hmid₂ hcalm₂ fun db husers₂ => hgoal db ?_
          rw [husers₂]
          exact hactive
        · cases hres
      · rintro e w₂ tr₂ ⟨hmid₂, ⟨hres, _⟩ | ⟨_, hcause⟩⟩
        · cases hres
        · exact .lost haccept hmid₂.spends hmid₂.gone hcause
    · cases hres
  · rintro e w₁ tr₁ ⟨_, _, ⟨hres, _⟩ | ⟨_, _, hspends, hkept, d, hd, hfailed⟩⟩
    · cases hres
    · exact .kept haccept hspends hkept ⟨d, hd, .inl hfailed⟩

theorem redeemSignup_ends {email code password : String}
    (haccept : acceptable ↔ ch.attempts < maxOTPAttempts ∧ Awaits r) (hint : w.db.Integrity)
    (hcode : cfg.env.compare ch.codeHash code = true) (hr : r ∈ w.db.users)
    (hemail : r.email = some email)
    (hpassword : cfg.env.compare r.user.passwordHash password = true) (hnow : w.now ≠ 0)
    (hgoal : ∀ db, (∃ r' ∈ db.users, r'.email = r.email ∧ r'.status = .active ∧
      r'.emailVerifiedAt.isSome = true) → goal db) (h : Intact w w' tr) (hcalm : Calm w tr) :
    (redeemSignup cfg email code password ch.challenge).Ends (exec cfg.env) ok
      (Course acceptable w ch goal) w' tr := by
  refine ends_bind (checkChallenge_ends hcode h hcalm) ?_ ?_
  · rintro ⟨found, t⟩ w₁ tr₁ ⟨h₁, hcalm₁, hchecked⟩
    obtain rfl : found = ch.challenge := checked_challenge hchecked
    -- the clock never shows the zero time, which would be stored as NULL
    obtain ⟨ht, hleft⟩ : t ≠ 0 ∧ ch.attempts < maxOTPAttempts := by
      obtain ⟨t', hres, hle, hleft⟩ | ⟨_, hres, _⟩ := hchecked
      · have htime : t = t' := congrArg Prod.snd (Except.ok.inj hres)
        refine ⟨fun hzero => hnow ?_, hleft⟩
        rw [← htime, hzero] at hle
        exact Nat.le_zero.mp hle
      · cases hres
    refine ends_bind (matchSignup_ends hint hr hemail hpassword h₁ hcalm₁) ?_ ?_
    · rintro user w₂ tr₂ (⟨hres, hawaits, h₂, hcalm₂⟩ | ⟨⟨_, hres⟩, _⟩)
      · obtain rfl := Except.ok.inj hres
        exact activation_ends (haccept.mpr ⟨hleft, hawaits⟩) hr hawaits.1 ht hgoal h₂ hcalm₂
      · cases hres
    · rintro e w₂ tr₂ (⟨hres, _⟩ | ⟨_, hspends, hkept, hdraws, hcause⟩)
      · cases hres
      -- rejected: the account does not await its verification, or its lookup failed
      · by_cases hawaits : acceptable
        · obtain ⟨d, hd, hfailed⟩ := hcause (haccept.mp hawaits).2
          exact .kept hawaits hspends hkept ⟨d, hd, .inl hfailed⟩
        · refine .refused hawaits hdraws (fun _ => hkept) fun hspent => ?_
          rw [hspends] at hspent
          cases hspent
  · rintro e w₁ tr₁ ⟨h₁, _, hchecked⟩
    by_cases hacceptable : acceptable
    · obtain ⟨_, hres, _⟩ | ⟨_, _, ⟨d, hd, hlate⟩ | hused⟩ := hchecked
      · cases hres
      · exact .kept hacceptable (intact_any h₁).1 (intact_kept ch h₁) ⟨d, hd, .inr hlate⟩
      · exact absurd (haccept.mp hacceptable).1 (not_lt.mpr hused)
    · exact refused_intact hacceptable h₁

end Signups

/-! ## Whole calls -/

section Calls

variable {cfg : Config} {call : Call} {p : Presented} {ch : ChallengeRow}
  {choices : Nat → Choice} {w : World}

/-- A program that begins with the lookup of the newest challenge, from what it does with it. -/
theorem fetched_run {α : Type} {after : OTPChallenge → Action α}
    (post : Except Err α → World → List Done → Prop)
    (hlatest : latest w.db p (choices 0).pick = some ch)
      (hfails : (choices 0).fails = true → ∀ e, post (.error e) (w.advance (choices 0).now)
      [⟨.store (.getLatestChallenge p.identifier p.channel), choices 0, w⟩])
    (hafter : (choices 0).fails = false →
      (after ch.challenge).Ends (exec cfg.env) (fun _ _ _ => True) post (w.advance (choices 0).now)
      [⟨.store (.getLatestChallenge p.identifier p.channel), choices 0, w⟩]) :
    let prog := storeOr .invalidOTPCode (.getLatestChallenge p.identifier p.channel) >>= after
    post (prog.run (exec cfg.env) choices w).1 (prog.run (exec cfg.env) choices w).2
      (prog.trail (exec cfg.env) choices w) := by
  intro prog
  -- the program as one call and what it does with the answer
  obtain ⟨k, hprog, hok, herr⟩ :
      ∃ k, prog = .call (.store (.getLatestChallenge p.identifier p.channel)) k ∧
      (∀ v, k (.ok v) = after v) ∧ ∀ e, k (.error e) = .fail .invalidOTPCode :=
    ⟨_, rfl, fun _ => rfl, fun _ => rfl⟩
  rw [hprog, Program.run_call, Program.trail]
  cases hf : (choices 0).fails with
  | true =>
      rw [exec_store_fails cfg.env _ hf]
      dsimp only
      rw [herr]
      exact hfails hf _
  | false =>
      have hx : exec cfg.env (.store (.getLatestChallenge p.identifier p.channel)) (choices 0) w =
          (.ok ch.challenge, w.advance (choices 0).now) := by
        rw [exec_store_runs cfg.env _ hf, Store.exec_getLatestChallenge]
        unfold latest at hlatest
        rw [hlatest]
        rfl
      rw [hx]
      dsimp only
      rw [hok]
      exact ends_run (hafter hf) _ fun _ _ => trivial

theorem verifyOTP_program {identifier channel code : String}
    (hblank : (trimSpace identifier = "" || trimSpace channel = "" || code = "") = false) :
    (Call.verifyOTP identifier channel code).program cfg =
      storeOr .invalidOTPCode (.getLatestChallenge (trimSpace identifier) (trimSpace channel)) >>=
        fun v =>
        .tokens <$> redeemOTP cfg (trimSpace identifier) (trimSpace channel) code v := by
  unfold Call.program verifyOTP
  dsimp only
  rw [hblank]
  exact congrArg (Program.call _) (funext fun res => by cases res <;> rfl)

theorem verifySignup_program {email code password : String} (hopen : cfg.signupOpen = true)
    (hblank : (cfg.env.normalizeEmail email = "" || trimSpace code = "") = false) :
    (Call.verifySignup email code password).program cfg =
      storeOr .invalidOTPCode (.getLatestChallenge (cfg.env.normalizeEmail email) channelEmail) >>=
        fun v =>
        .tokens <$> redeemSignup cfg (cfg.env.normalizeEmail email)
          (trimSpace code) password v := by
  unfold Call.program verifySignup
  dsimp only
  rw [hopen, hblank]
  exact congrArg (Program.call _) (funext fun res => by cases res <;> rfl)

/-- How the call ended, with its reply. -/
def Ended (acceptable : Prop) (w : World) (ch : ChallengeRow) (goal : DB → Prop)
    (res : Except Err Reply) (w' : World) (tr : List Done) : Prop :=
  ∃ res' : Except Err TokenPair, res = res'.map .tokens ∧ Course acceptable w ch goal res' w' tr

/-- A call that begins with the lookup of `ch`, from what it does with it. -/
theorem ended_of_redeems {redeem : OTPChallenge → Action TokenPair}
    (hlatest : latest w.db p (choices 0).pick = some ch)
    (hprogram : call.program cfg =
      storeOr .invalidOTPCode (.getLatestChallenge p.identifier p.channel) >>=
      fun v => .tokens <$> redeem v)
    (hredeem : ∀ w' tr, Intact w w' tr → Calm w tr → (redeem ch.challenge).Ends (exec cfg.env)
      (fun _ _ _ => True) (Course acceptable w ch goal) w' tr) :
    Ended acceptable w ch goal (call.perform cfg choices w).1 (call.perform cfg choices w).2
      ((call.program cfg).trail (exec cfg.env) choices w) := by
  have hintact : Intact w (w.advance (choices 0).now)
      [⟨.store (.getLatestChallenge p.identifier p.channel), choices 0, w⟩] :=
    ⟨le_max_left _ _, rfl, fun d hd => by rw [List.mem_singleton.mp hd]; rfl⟩
  rw [Call.perform, hprogram]
  refine fetched_run (Ended acceptable w ch goal) hlatest
    (fun hf e => ⟨.error e, rfl, ?_⟩) fun _ => ?_
  · by_cases haccept : acceptable
    · refine .kept haccept (intact_any hintact).1 (intact_kept ch hintact) ?_
      exact ⟨_, List.mem_singleton_self _, .inl (by simp [through, hf])⟩
    · exact refused_intact haccept hintact
  · refine ends_map (ends_mono ?_ (hredeem _ _ hintact ?_))
    · exact fun res w' tr' h => ⟨res, rfl, h⟩
    · intro d hd hdecisive
      rw [List.mem_singleton.mp hd] at hdecisive
      cases hdecisive

/-- A call that is refused before it has looked at anything. -/
theorem ended_of_fails {e : Err} (hnot : ¬ acceptable) (hprogram : call.program cfg = .fail e) :
    Ended acceptable w ch goal (call.perform cfg choices w).1 (call.perform cfg choices w).2
      ((call.program cfg).trail (exec cfg.env) choices w) := by
  rw [Call.perform, hprogram]
  exact ⟨.error e, rfl, refused_intact hnot ⟨le_rfl, rfl, fun _ hd => nomatch hd⟩⟩

/-- How a verification with the right code ends. -/
theorem perform_ended (choices : Nat → Choice) (hint : w.db.Integrity) (hnow : w.now ≠ 0)
    (hcorrect : Correct cfg call p ch (choices 0).pick w.db) :
    Ended (Acceptable cfg w.db ch call) w ch (fun db => Activated cfg db call)
      (call.perform cfg choices w).1 (call.perform cfg choices w).2
        ((call.program cfg).trail (exec cfg.env) choices w) := by
  obtain ⟨hpresents, hlatest, hcode, hpassword⟩ := hcorrect
  cases call with
  | verifyOTP identifier channel code =>
      obtain rfl := Option.some.inj hpresents
      cases hblank : (trimSpace identifier = "" || trimSpace channel = "" || code = "") with
      | true =>
          refine ended_of_fails (e := .invalidOTPCode) ?_ ?_
          · rintro ⟨hidentifier, hcode', _, hchannel⟩
            have hne : trimSpace channel ≠ "" := by
              rcases hchannel with ⟨h, _⟩ | ⟨h, _⟩ <;> rw [h] <;> decide
            simp [hidentifier, hcode', hne] at hblank
          · unfold Call.program verifyOTP
            dsimp only
            rw [hblank]
            rfl
      | false =>
          refine ended_of_redeems hlatest (verifyOTP_program hblank) fun w' tr h hcalm => ?_
          -- the fields are there, so it depends on the attempts left and on the account's status
          by_cases haccept : Acceptable cfg w.db ch (.verifyOTP identifier channel code)
          · exact redeemOTP_accepted haccept hcode haccept.2.2.1 haccept.2.2.2
              (fun _ => trivial) h hcalm
          · refine redeemOTP_refused haccept hint hcode (fun hleft hstatus => haccept ?_) h hcalm
            simp only [Bool.or_eq_false_iff, decide_eq_false_iff_not] at hblank
            exact ⟨hblank.1.1, hblank.2, hleft, hstatus⟩
  | verifySignup email code password =>
      obtain rfl := Option.some.inj hpresents
      obtain ⟨r, hr, hemail, hcompare⟩ := hpassword
      cases hopen : cfg.signupOpen with
      | false =>
          refine ended_of_fails (e := .signupDisabled) (fun haccept => ?_) ?_
          · cases haccept.1.symm.trans hopen
          · unfold Call.program verifySignup
            rw [hopen]
            rfl
      | true =>
          cases hblank : (cfg.env.normalizeEmail email = "" || trimSpace code = "") with
          | true =>
              refine ended_of_fails (e := .invalidOTPCode) ?_ ?_
              · rintro ⟨_, hne, hcode', _⟩
                simp [hne, hcode'] at hblank
              · unfold Call.program verifySignup
                dsimp only
                rw [hopen, hblank]
                rfl
          | false =>
              refine ended_of_redeems hlatest (verifySignup_program hopen hblank)
                fun w' tr h hcalm => ?_
              refine redeemSignup_ends ?_ hint hcode hr hemail hcompare hnow ?_ h hcalm
              · simp only [Bool.or_eq_false_iff, decide_eq_false_iff_not] at hblank
                refine ⟨fun haccept => ⟨haccept.2.2.2.1, haccept.2.2.2.2 r hr hemail⟩, ?_⟩
                rintro ⟨hleft, hawaits⟩
                -- the address belongs to one account
                refine ⟨hopen, hblank.1, hblank.2, hleft, fun s hs hsemail => ?_⟩
                rw [hint.email s hs r hr _ hsemail hemail]
                exact hawaits
              · rintro db ⟨r', hr', hemail', hactive⟩
                exact ⟨r', hr', hemail'.trans hemail, hactive⟩
  | _ => cases hpresents

end Calls

end Redemption
end Service
end OrbitAuth
