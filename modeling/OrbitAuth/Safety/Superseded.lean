import OrbitAuth.Safety.Disabled
import OrbitAuth.Safety.SingleUse

/-!
# Superseded — what a newer code does to an older one

A request stores its challenge beside the earlier ones of the address, and a verification looks at
the newest that is left.  Consuming a challenge removes that one row.  So an older code is dead as
long as a newer challenge is stored, and comes back to life once the newer one is spent:

* `superseded_code_dead`: over every sequence of calls, the code of an older challenge is worth
  nothing while a newer challenge of the address is stored;
* `superseded_code_revived`: request, request, redeem the second code, redeem the first.
-/

namespace OrbitAuth
namespace Service
namespace Superseded

open Domain Foundations Postgres SingleUse Disabled

variable {env : Env}

/-! ## Histories -/

/-- Calls one after the other, each with what the environment decides in it. -/
abbrev History := List (Call × (Nat → Choice))

/-- The world after the calls. -/
def play (cfg : Config) : History → World → World
  | [], w => w
  | (call, choices) :: rest, w => play cfg rest (call.perform cfg choices w).2

/-- The two rows are one challenge, whatever attempts were counted. -/
def sameChallenge (r s : ChallengeRow) : Bool :=
  s = { r with attempts := s.attempts }

/-- The challenges of `w'` that `w` does not have. -/
def created (w w' : World) : List ChallengeRow :=
  w'.db.challenges.select fun r => !w.db.challenges.any fun s => sameChallenge s r

/-- The challenges the calls have created, in this order. -/
def made (cfg : Config) : History → World → List ChallengeRow
  | [], _ => []
  | (call, choices) :: rest, w =>
      created w (call.perform cfg choices w).2 ++ made cfg rest (call.perform cfg choices w).2

theorem sameChallenge_iff {r s : ChallengeRow} :
    sameChallenge r s = true ↔ s = { r with attempts := s.attempts } := by
  simp [sameChallenge]

theorem sameChallenge_self (r : ChallengeRow) : sameChallenge r r = true :=
  sameChallenge_iff.mpr rfl

theorem sameChallenge_trans {r s t : ChallengeRow} (h₁ : sameChallenge r s = true)
    (h₂ : sameChallenge s t = true) : sameChallenge r t = true := by
  rw [sameChallenge_iff] at *
  rw [h₁] at h₂
  exact h₂

/-- Every stored challenge was there at the start or has been created since. -/
theorem origin (cfg : Config) (history : History) (w : World) :
    ∀ r ∈ (play cfg history w).db.challenges,
      ∃ s, sameChallenge s r = true ∧ (s ∈ w.db.challenges ∨ s ∈ made cfg history w) := by
  induction history generalizing w with
  | nil => exact fun r hr => ⟨r, sameChallenge_self r, .inl hr⟩
  | cons step rest ih =>
      intro r hr
      obtain ⟨s, hsame, hs | hs⟩ := ih _ r hr
      · -- a challenge the first call left: an old one, or its own
        by_cases hold : ∃ s₀ ∈ w.db.challenges, sameChallenge s₀ s = true
        · obtain ⟨s₀, hs₀, hsame₀⟩ := hold
          exact ⟨s₀, sameChallenge_trans hsame₀ hsame, .inl hs₀⟩
        · refine ⟨s, hsame, .inr (List.mem_append_left _ ?_)⟩
          refine mem_select.mpr ⟨hs, ?_⟩
          rw [Bool.not_eq_true', any_eq_false]
          intro s₀ hs₀
          exact Bool.eq_false_iff.mpr fun h => hold ⟨s₀, hs₀, h⟩
      · exact ⟨s, hsame, .inr (List.mem_append_right _ hs)⟩

/-! ## The code of a challenge -/

/-- The challenge was made for `code`. -/
def HasCode (env : Env) (r : ChallengeRow) (code : String) : Prop :=
  ∃ salt, r.codeHash = env.hash salt code

/-- Every challenge was made for some code. -/
def Coded (env : Env) (t : Table ChallengeRow) : Prop :=
  ∀ r ∈ t, ∃ code, HasCode env r code

theorem coded_ages {t t' : Table ChallengeRow} (h : Ages t t') (ht : Coded env t) :
    Coded env t' := by
  intro r hr
  obtain ⟨r₀, hr₀, _, heq⟩ := h r hr
  rw [heq]
  exact ht r₀ hr₀

/-- The hash is that of some code. -/
def HashesCode (env : Env) (codeHash : String) : Prop :=
  ∃ code salt, codeHash = env.hash salt code

/-- A challenge the statement inserts has a code. -/
def InsertsCoded (env : Env) (s : Sql) : Prop :=
  ∀ id identifier channel codeHash expires created,
    s = .upsertChallenge id identifier channel codeHash expires created → HashesCode env codeHash

theorem eval_coded {now : Time} {pick : Nat} {db : DB} {s : Sql} {v : s.Val} {ws : List Write}
    (hs : InsertsCoded env s) (h : s.eval env now pick db = .ok (v, ws))
    (hdb : Coded env db.challenges) : Coded env (db.applyAll ws).challenges := by
  by_cases hnone : InsertsNone s
  · exact coded_ages (challenges_age (eval_challenges h) hnone) hdb
  · simp only [InsertsNone, not_forall, not_not] at hnone
    obtain ⟨id, identifier, channel, codeHash, expires, created, rfl⟩ := hnone
    simp only [Sql.eval, upsertChallenge] at h
    split at h
    · split at h
      · cases h
      · rw [ok_writes h]
        intro r hr
        rcases mem_put.mp hr with rfl | ⟨hr, _⟩
        · exact hs _ _ _ _ _ _ rfl
        · exact hdb r hr
    · cases h

/-- The challenge an operation stores. -/
def challengeOf : Port → Option OTPChallenge
  | .store (.upsertChallenge ch) => some ch
  | .store (.reissuePendingSignup _ challenge _ _) => challenge
  | _ => none

/-- A challenge the operation stores has a code. -/
def StoresCoded (env : Env) (o : Port) : Prop :=
  ∀ ch, challengeOf o = some ch → HashesCode env ch.codeHash

/-- Hashes come from the hasher. -/
def Hashed (env : Env) : (o : Port) → o.Ans → Prop
  | .hash secret, ans => ∀ h, ans = .ok h → ∃ salt, h = env.hash salt secret
  | _, _ => True

theorem exec_hashed (env : Env) (o : Port) (c : Choice) (w : World) :
    Hashed env o (exec env o c w).1 := by
  cases o with
  | hash secret =>
      intro h hans
      have hattempt : attempt c (.ok (env.hash c.salt secret)) = .ok h := hans
      unfold attempt at hattempt
      split at hattempt
      · cases hattempt
      · exact ⟨c.salt, (Except.ok.inj hattempt).symm⟩
  | _ => trivial

theorem exec_coded {o : Port} (ho : StoresCoded env o) (c : Choice) (w : World)
    (hw : Coded env w.db.challenges) : Coded env (exec env o c w).2.db.challenges := by
  cases hstores : storesChallenge o with
  | false => exact coded_ages (exec_ages hstores c w) hw
  | true =>
      refine exec_db_rel (R := fun db db' => Coded env db.challenges → Coded env db'.challenges)
        (fun _ h => h) ?_ c hw
      rintro o' rfl now id pick
      have huses : (o'.body now id).Uses (InsertsCoded env) := by
        cases o' with
        | upsertChallenge ch =>
            refine uses_bind (Store.uses_parseID _ _) fun _ => Store.uses_stmt ?_
            rintro _ _ _ _ _ _ ⟨⟩
            exact ho ch rfl
        | reissuePendingSignup user challenge invite t =>
            -- of its statements only the one that stores the challenge inserts a code
            refine Store.uses_reissuePendingSignup ?_ ?_ ?_ ?_ ?_ ?_ ?_ ?_
            case refine_3 =>
              rintro ch rfl _ _ _ _ _ _ _ _ _ ⟨⟩
              exact ho ch rfl
            all_goals
              intros
              intro _ _ _ _ _ _ h
              cases h
        | _ => cases hstores
      exact Store.exec_rel (R := fun db db' => Coded env db.challenges → Coded env db'.challenges)
        (fun _ h => h) (fun _ _ _ h₁ h₂ h => h₂ (h₁ h))
        (fun _ _ _ _ _ => eval_coded) huses pick w.db

/-! ## The calls of the histories -/

/-- `RequestOTP`, `RegisterWithEmail`, `VerifyOTP` and `VerifySignup`. -/
inductive IsCodeCall : Call → Prop
  | request (identifier channel correlationID : String) :
      IsCodeCall (.requestOTP identifier channel correlationID)
  | register (email password displayName locale orgName inviteToken : String) :
      IsCodeCall (.registerWithEmail email password displayName locale orgName inviteToken)
  | verification {call : Call} (h : IsVerification call) : IsCodeCall call

section Makes

variable {cfg : Config} {α : Type}

/-- `p` stores only challenges with a code. -/
abbrev Encodes (cfg : Config) (p : Action α) (post : α → Prop) : Prop :=
  p.Makes (Hashed cfg.env) (StoresCoded cfg.env) post

theorem storesCoded_of_none {o : Port} (h : challengeOf o = none) : StoresCoded env o := by
  intro ch hch
  rw [h] at hch
  cases hch

theorem storesCoded_plain (o : Port) (h : o.plain = true) : StoresCoded env o := by
  refine storesCoded_of_none ?_
  cases o with
  | store o => cases o <;> first | rfl | simp [Port.plain, plainStore] at h
  | _ => rfl

theorem encodes_uses {p : Action α} (h : p.Uses (StoresCoded cfg.env)) :
    Encodes cfg p fun _ => True :=
  makes_of_uses h

theorem encodes_buildOTPChallenge (identifier channel : String) :
    Encodes cfg (buildOTPChallenge identifier channel) fun res =>
      HashesCode cfg.env res.1.codeHash := by
  refine makes_bind (encodes_uses (uses_newCode (storesCoded_plain .newCode rfl)))
    fun code _ => ?_
  have hhash : Encodes cfg (hash code) fun codeHash => ∃ salt, codeHash =
      cfg.env.hash salt code := by
    refine .call (storesCoded_plain (.hash code) rfl) fun ans hans => ?_
    cases ans with
    | error e => exact .fail e
    | ok h => exact .done (hans h rfl)
  refine makes_bind hhash fun codeHash hcode => ?_
  refine makes_bind (encodes_uses (uses_now (storesCoded_plain .now rfl))) fun t _ => ?_
  exact makes_bind (encodes_uses (uses_newID (storesCoded_plain .newID rfl)))
    fun id _ => .done ⟨code, hcode⟩

/-- A store call that passes its result on. -/
theorem encodes_passes {o : Store.Op} {p : Action o.Val} (hp : Passes o p)
    (ho : StoresCoded cfg.env (.store o)) : Encodes cfg p fun _ => True :=
  makes_passes hp ho fun _ _ => trivial

theorem encodes_newOTPChallenge (identifier channel : String) :
    Encodes cfg (newOTPChallenge identifier channel) fun _ => True := by
  refine makes_bind (encodes_uses (uses_ignore (storesCoded_of_none rfl))) fun _ _ => ?_
  refine makes_bind (encodes_buildOTPChallenge identifier channel) fun res hres => ?_
  rcases res with ⟨ch, code⟩
  refine makes_bind (encodes_passes (passes_store (.upsertChallenge ch)) ?_)
    fun _ _ => .done trivial
  rintro _ ⟨⟩
  exact hres

theorem encodes_reissueSignup (user : User) (locale : String) (t : Time) :
    Encodes cfg (reissueSignup user locale t) fun _ => True := by
  refine makes_bind (encodes_uses (uses_signupCooldownActive (storesCoded_of_none rfl) _))
    fun cooldown _ => ?_
  split
  · exact makes_bind (encodes_uses (uses_store (storesCoded_of_none rfl)))
      fun _ _ => .done trivial
  · refine makes_bind (encodes_buildOTPChallenge _ _) fun res hres => ?_
    rcases res with ⟨challenge, code⟩
    refine makes_bind
      (encodes_passes (passes_store (.reissuePendingSignup user (some challenge) none t)) ?_)
      fun res _ => ?_
    · rintro _ ⟨⟩
      exact hres
    · rcases res with ⟨userID, reissued⟩
      cases reissued with
      | false => exact .done trivial
      | true => exact encodes_uses (uses_send (storesCoded_of_none rfl))

theorem encodes_retryPendingSignup (user : User) (invite : Option Invite)
    (locale : String) (t : Time) :
    Encodes cfg (retryPendingSignup user invite locale t) fun _ => True := by
  cases invite with
  | some invite =>
      exact makes_bind (encodes_uses (uses_storeMapping (storesCoded_of_none rfl)))
        fun _ _ => .done trivial
  | none =>
      refine makes_bind (encodes_uses (uses_tryStore (storesCoded_of_none rfl))) fun r _ => ?_
      cases r with
      | error e => exact encodes_reissueSignup user locale t
      | ok existing =>
          dsimp only
          split
          · exact .done trivial
          · exact encodes_reissueSignup user locale t

theorem encodes_submitSignup (email passwordHash displayName locale orgName : String)
    (invite : Option Invite) :
    Encodes cfg (submitSignup email passwordHash displayName locale orgName invite)
      fun _ => True := by
  refine makes_bind (encodes_uses (uses_now (storesCoded_plain .now rfl))) fun t _ => ?_
  refine makes_bind (encodes_uses (uses_newID (storesCoded_plain .newID rfl))) fun id _ => ?_
  refine makes_bind (encodes_uses (uses_signupOrg storesCoded_plain _ _ _)) fun org _ => ?_
  refine makes_bind (encodes_uses (uses_storeMapping (storesCoded_of_none rfl)))
    fun isNew _ => ?_
  split
  · exact encodes_retryPendingSignup _ invite locale t
  · split
    · exact .done trivial
    · exact makes_bind (encodes_newOTPChallenge _ _) fun _ _ =>
        encodes_uses (uses_send (storesCoded_of_none rfl))

theorem encodes_call {call : Call} (hcall : IsCodeCall call) :
    Encodes cfg (call.program cfg) fun _ => True := by
  cases hcall with
  | request identifier channel correlationID =>
      refine makes_map ?_
      refine makes_bind (encodes_uses (uses_failIf _ _)) fun _ _ => ?_
      refine makes_bind (encodes_uses (uses_requireChannel (silent_of_plain storesCoded_plain) _ _))
        fun _ _ => ?_
      refine makes_bind (encodes_newOTPChallenge _ _) fun _ _ => ?_
      exact makes_bind (encodes_uses (uses_send (storesCoded_of_none rfl)))
        fun _ _ => .done trivial
  | register =>
      refine makes_map ?_
      refine makes_bind (encodes_uses (uses_failIf _ _)) fun _ _ => ?_
      refine makes_bind (encodes_uses (uses_failIf _ _)) fun _ _ => ?_
      refine makes_bind (encodes_uses (uses_failIf _ _)) fun _ _ => ?_
      refine makes_bind (encodes_uses (uses_signupInvite storesCoded_plain _ _))
        fun invite _ => ?_
      refine makes_bind (encodes_uses (uses_hash (storesCoded_plain (.hash _) rfl)))
        fun passwordHash _ => ?_
      exact encodes_submitSignup _ _ _ _ _ _
  | verification h =>
      refine encodes_uses (uses_mono ?_ (verification_uses h))
      intro o ho
      refine storesCoded_of_none ?_
      cases o with
      | store o => cases o <;> first | rfl | cases ho
      | _ => rfl

end Makes

/-- One call keeps the challenges coded. -/
theorem perform_coded {cfg : Config} {call : Call} (hcall : IsCodeCall call)
    (choices : Nat → Choice) {w : World} (hw : Coded cfg.env w.db.challenges) :
    Coded cfg.env (call.perform cfg choices w).2.db.challenges := by
  refine Program.run_makes (I := fun w : World => Coded cfg.env w.db.challenges) ?_
    (encodes_call hcall) choices w hw
  intro o c w ho hw
  exact ⟨exec_hashed cfg.env o c w, exec_coded ho c w hw⟩

/-- Every challenge a history creates has a code. -/
theorem made_coded {cfg : Config} {history : History}
    (hcalls : ∀ step ∈ history, IsCodeCall step.1) :
    ∀ {w : World}, Coded cfg.env w.db.challenges →
      ∀ r ∈ made cfg history w, ∃ code, HasCode cfg.env r code := by
  induction history with
  | nil =>
      intro w _ r hr
      cases hr
  | cons step rest ih =>
      intro w hw r hr
      have hnext := perform_coded (hcalls step (by simp)) step.2 hw
      rcases List.mem_append.mp hr with hr | hr
      · exact hnext r (mem_select.mp hr).1
      · exact ih (fun s hs => hcalls s (by simp [hs])) hnext r hr

/-! ## Old codes -/

/-- The verification presents `code` for an address. -/
inductive Presents (cfg : Config) : Call → String → String → String → Prop
  | otp (identifier channel code : String) :
      Presents cfg (.verifyOTP identifier channel code) (trimSpace identifier)
        (trimSpace channel) code
  | signup (email code password : String) :
      Presents cfg (.verifySignup email code password) (cfg.env.normalizeEmail email) channelEmail
        (trimSpace code)

/-- Of the challenges created, `code` belongs to `older`; `later` came after it, among them one for
its address and none for its address with its code. -/
structure Supersedes (env : Env) (identifier channel code : String) (older : ChallengeRow)
    (later : List ChallengeRow) : Prop where
  address : older.addressedTo identifier channel = true
  coded : HasCode env older code
  newer : ∃ r ∈ later, r.addressedTo identifier channel = true
  distinct : ∀ r ∈ later, r.addressedTo identifier channel = true → ¬ HasCode env r code

/-- As long as the address has a challenge, it has one that is newer than `older`. -/
def Outlived (w : World) (identifier channel : String) (older : ChallengeRow) : Prop :=
  (∃ r ∈ w.db.challenges, r.addressedTo identifier channel = true) →
    ∃ r ∈ w.db.challenges, r.addressedTo identifier channel = true ∧ older.createdAt < r.createdAt

/-- A verification that succeeds carries the code of a newest challenge. -/
theorem presents_must {cfg : Config} {call : Call} {identifier channel code : String}
    (hcall : Presents cfg call identifier channel code) (w : World) :
    (call.program cfg).Must (exec cfg.env) (fun _ _ =>
      ∃ r ∈ newest ChallengeRow.createdAt
        (w.db.challenges.select (ChallengeRow.addressedTo identifier channel)),
        cfg.env.compare r.codeHash code = true) w := by
  cases hcall with
  | otp identifier channel code =>
      refine safe_map (safe_mono ?_ (verifyOTP_must identifier channel code))
      rintro _ _ ⟨_, _, _, r, hr, _, _, hcode⟩
      exact ⟨r, hr, hcode⟩
  | signup email code password =>
      refine safe_map ?_
      refine safe_bind (safe_failIf (Q := fun _ w' => w' = w) fun _ => rfl) fun _ w₁ hw => ?_
      subst hw
      refine safe_bind (safe_failIf (Q := fun _ w' => w' = w₁) fun _ => rfl) fun _ w₂ hw => ?_
      subst hw
      refine safe_bind (matchChallenge_must _ _ _) fun res w₃ hmatch => ?_
      obtain ⟨_, r, hr, _, _, hcode⟩ := hmatch
      -- nothing after the comparison matters here
      refine safe_mono ?_ (must_true _ w₃)
      intro _ _ _
      exact ⟨r, hr, hcode⟩

/-- A later challenge is one created after `older`. -/
theorem mem_later {earlier later : List ChallengeRow} {older r : ChallengeRow}
    (hordered : (earlier ++ older :: later).Pairwise fun r s => r.createdAt < s.createdAt)
    (hr : r ∈ earlier ++ older :: later) (hnewer : older.createdAt < r.createdAt) : r ∈ later := by
  rcases List.mem_append.mp hr with hr | hr
  · have hbefore : r.createdAt < older.createdAt :=
      (List.pairwise_append.mp hordered).2.2 r hr older (by simp)
    exact absurd hnewer (Nat.lt_asymm hbefore)
  · rcases List.mem_cons.mp hr with rfl | hr
    · exact absurd hnewer (Nat.lt_irrefl _)
    · exact hr

/-- While a newer challenge is stored, an older code is worth nothing. -/
theorem superseded_code_dead {cfg : Config} (hideal : cfg.env.IdealHasher) {history : History}
    (hcalls : ∀ step ∈ history, IsCodeCall step.1) {w₀ : World} (hw₀ : w₀.db.challenges.rows = [])
    {earlier later : List ChallengeRow} {older : ChallengeRow}
    (hmade : made cfg history w₀ = earlier ++ older :: later)
    (hordered : (made cfg history w₀).Pairwise fun r s => r.createdAt < s.createdAt)
    {identifier channel code : String}
    (hsuperseded : Supersedes cfg.env identifier channel code older later)
    (houtlived : Outlived (play cfg history w₀) identifier channel older)
    {call : Call} (hcall : Presents cfg call identifier channel code) (choices : Nat → Choice)
    (pair : TokenPair) :
    (call.perform cfg choices (play cfg history w₀)).1 ≠ .ok (.tokens pair) := by
  intro hok
  obtain ⟨r, hr, hcompare⟩ := must_run (presents_must hcall _) choices _ hok
  obtain ⟨hstored, hnewest⟩ := List.mem_filter.mp hr
  obtain ⟨hstored, haddress⟩ := mem_select.mp hstored
  -- the compared challenge is at least as new as one that is newer than `older`
  obtain ⟨s, hs, hsaddress, hnewer⟩ := houtlived ⟨r, hstored, haddress⟩
  have hle : s.createdAt ≤ r.createdAt := by
    have := List.all_eq_true.mp hnewest s (mem_select.mpr ⟨hs, hsaddress⟩)
    exact of_decide_eq_true this
  -- so it comes from a later request, whose code is another one
  obtain ⟨r₀, hsame, hr₀ | hr₀⟩ := origin cfg history w₀ r hstored
  · rw [Table.mem_def, hw₀] at hr₀
    cases hr₀
  rw [sameChallenge_iff] at hsame
  have hcoded : Coded cfg.env w₀.db.challenges := by
    intro r hr
    rw [Table.mem_def, hw₀] at hr
    cases hr
  obtain ⟨code₀, salt, hhash⟩ := made_coded hcalls hcoded r₀ hr₀
  rw [hmade] at hr₀ hordered
  rw [hsame] at haddress hcompare hle
  have hlater : r₀ ∈ later := mem_later hordered hr₀ (Nat.lt_of_lt_of_le hnewer hle)
  refine hsuperseded.distinct r₀ hlater haddress ⟨salt, ?_⟩
  have hmatch : cfg.env.compare (cfg.env.hash salt code₀) code = true := by
    rw [← hhash]
    exact hcompare
  rw [hhash, (hideal salt code₀ code).mp hmatch]

/-! ## Two requests -/

/-- A request for a code at the instant `t`. -/
def request (t : Time) (first : Nat) (code : String) : Call × (Nat → Choice) :=
  (.requestOTP "ann@example.com" "email" "",
    fun n => { now := t, id := Uuid.ofNat (first + n), code := code, flag := true })

/-- A verification at the instant `t`. -/
def redeem (t : Time) (first : Nat) (code : String) : Call × (Nat → Choice) :=
  (.verifyOTP "ann@example.com" "email" code,
    fun n => { now := t, id := Uuid.ofNat (first + n) })

/-- The challenge of such a request. -/
def challengeFor (id : Nat) (t : Time) (code : String) : ChallengeRow where
  id := Uuid.ofNat id
  identifier := "ann@example.com"
  channel := "email"
  codeHash := toyEnv.hash 0 code
  expiresAt := t + otpTTL
  attempts := 0
  createdAt := t

def twoRequests : History :=
  [request 1000 0 "111111", request 2000 100 "222222"]

theorem twoRequests_calls : ∀ step ∈ twoRequests, IsCodeCall step.1 := by
  intro step hstep
  rcases List.mem_cons.mp hstep with rfl | hstep
  · exact .request _ _ _
  · rw [List.mem_singleton.mp hstep]
    exact .request _ _ _

/-- The second request supersedes the first. -/
theorem twoRequests_supersede :
    Supersedes toyEnv "ann@example.com" "email" "111111" (challengeFor 5 1000 "111111")
      [challengeFor 105 2000 "222222"] where
  address := by decide
  coded := ⟨0, rfl⟩
  newer := ⟨_, List.mem_singleton_self _, by decide⟩
  distinct := by
    rintro r hr _ ⟨salt, hhash⟩
    rw [List.mem_singleton.mp hr] at hhash
    -- the small hasher ignores its salt
    have hhash' : toyEnv.hash 0 "222222" = toyEnv.hash 0 "111111" := hhash
    exact absurd hhash' (by decide)

set_option maxRecDepth 10000 in
/-- While the second code waits, the first one is refused. -/
theorem superseded_code_dead_waiting :
    made toyConfig twoRequests World.empty =
        [challengeFor 5 1000 "111111", challengeFor 105 2000 "222222"] ∧
      ∀ pair, ((redeem 3000 200 "111111").1.perform toyConfig (redeem 3000 200 "111111").2
        (play toyConfig twoRequests World.empty)).1 ≠ .ok (.tokens pair) := by
  have hmade : made toyConfig twoRequests World.empty =
      [] ++ challengeFor 5 1000 "111111" :: [challengeFor 105 2000 "222222"] := by
    decide +kernel
  refine ⟨hmade, ?_⟩
  refine superseded_code_dead toyEnv_ideal twoRequests_calls rfl hmade ?_ twoRequests_supersede ?_
    (.otp "ann@example.com" "email" "111111") _
  · rw [hmade]
    decide
  · intro _
    decide +kernel

/-- The token pair of a reply. -/
def tokensOf : Except Err Reply → Option TokenPair
  | .ok (.tokens pair) => some pair
  | _ => none

theorem ok_of_tokensOf {res : Except Err Reply} (h : (tokensOf res).isSome = true) :
    ∃ pair, res = .ok (.tokens pair) := by
  unfold tokensOf at h
  split at h
  · exact ⟨_, rfl⟩
  · cases h

/-- Two requests, and the second code redeemed. -/
def secondSpent : History :=
  twoRequests ++ [redeem 3000 200 "222222"]

set_option maxRecDepth 10000 in
/-- Once the second code is spent, the first one is accepted. -/
theorem superseded_code_revived :
    toyConfig.env.IdealHasher ∧ (∀ step ∈ secondSpent, IsCodeCall step.1) ∧
      made toyConfig secondSpent World.empty =
        [] ++ challengeFor 5 1000 "111111" :: [challengeFor 105 2000 "222222"] ∧
      (made toyConfig secondSpent World.empty).Pairwise (fun r s => r.createdAt < s.createdAt) ∧
      Supersedes toyConfig.env "ann@example.com" "email" "111111" (challengeFor 5 1000 "111111")
        [challengeFor 105 2000 "222222"] ∧
      Presents toyConfig (redeem 4000 300 "111111").1 "ann@example.com" "email" "111111" ∧
      ∃ pair, ((redeem 4000 300 "111111").1.perform toyConfig (redeem 4000 300 "111111").2
        (play toyConfig secondSpent World.empty)).1 = .ok (.tokens pair) := by
  have hmade : made toyConfig secondSpent World.empty =
      [] ++ challengeFor 5 1000 "111111" :: [challengeFor 105 2000 "222222"] := by
    decide +kernel
  refine ⟨toyEnv_ideal, ?_, hmade, ?_, twoRequests_supersede, .otp _ _ _, ok_of_tokensOf ?_⟩
  · intro step hstep
    rcases List.mem_append.mp hstep with hstep | hstep
    · exact twoRequests_calls step hstep
    · rw [List.mem_singleton.mp hstep]
      exact .verification (.otp _ _ _)
  · rw [hmade]
    decide
  · decide +kernel

end Superseded
end Service
end OrbitAuth
