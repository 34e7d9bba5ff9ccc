import OrbitAuth.Safety.Cooldown
import OrbitAuth.Safety.Redemption

/-!
# Verification — a code is spent and the caller gets nothing

A dependency that fails after `ConsumeChallenge` leaves the caller without the code and without a
session. `VerifyOTP` moreover looks at the account only after the code is gone.

* `AllOrNothing` — a verification that fails can be repeated, one that succeeds has spent its code;
* `Contained` — the failures that a verification survives;
* `allOrNothing_iff` — they are the only ones.
-/

namespace OrbitAuth
namespace Service
namespace Verification

open Domain Foundations Postgres Superseded Issuing Redemption

/-! ## The property -/

/-- The status of the account that has the address. -/
def accountStatus (db : DB) (p : Presented) : Option UserStatus :=
  (db.users.rows.find? fun r =>
    if p.channel = channelEmail then r.email = some p.identifier
    else p.channel = channelSMS && r.mobile = some p.identifier).map UserRow.status

/-- Every operation of the call gets through, not later than `deadline`. -/
def Unfailing (cfg : Config) (call : Call) (choices : Nat → Choice) (w : World)
    (deadline : Time) : Prop :=
  ∀ d ∈ (call.program cfg).trail (exec cfg.env) choices w, through w.db d = true ∧
  instant d ≤ deadline

/-- A verification that fails leaves the challenge and the account for a repetition, and one that
succeeds has spent the challenge. -/
def AllOrNothing (cfg : Config) (call : Call) (p : Presented) (ch : ChallengeRow)
    (choices : Nat → Choice) (w : World) : Prop :=
  let out := call.perform cfg choices w
  (∀ e, out.1 = .error e → ∃ ch' ∈ out.2.db.challenges, sameChallenge ch ch' = true ∧
    out.2.now ≤ ch'.expiresAt ∧ accountStatus out.2.db p = accountStatus w.db p ∧
    ∀ choices', Unfailing cfg call choices' out.2 ch'.expiresAt →
      latest out.2.db p (choices' 0).pick = some ch' →
        ∃ pair, (call.perform cfg choices' out.2).1 = .ok (.tokens pair)) ∧
  ∀ pair, out.1 = .ok (.tokens pair) →
    (∀ ch' ∈ out.2.db.challenges, ch'.id ≠ ch.id) ∧ Activated cfg out.2.db call

/-! ## The condition -/

/-- Once the challenge is consumed, every operation the session depends on gets through.  If it is
not consumed, it does not expire meanwhile, and a counted attempt is not the last one. -/
def Contained (cfg : Config) (call : Call) (ch : ChallengeRow) (choices : Nat → Choice)
    (w : World) : Prop :=
  let tr := (call.program cfg).trail (exec cfg.env) choices w
  if tr.any consumes then ∀ d ∈ tr, decisive d.op = true → through w.db d = true
  else (∀ d ∈ tr, instant d ≤ ch.expiresAt) ∧
    (tr.any costs = true → ch.attempts + 1 < maxOTPAttempts)

instance (cfg : Config) (call : Call) (ch : ChallengeRow) (choices : Nat → Choice) (w : World) :
    Decidable (Contained cfg call ch choices w) :=
  inferInstanceAs (Decidable (ite _ _ _))

/-! ## Repetitions -/

section Repetitions

variable {cfg : Config} {call : Call} {p : Presented} {ch ch' : ChallengeRow}
  {choices : Nat → Choice} {w w' : World} {tr : List Done} {pick : Nat}

/-- The challenge that was kept is still the newest of its address. -/
theorem kept_latest (h : Kept w ch w' tr) (hlatest : latest w.db p pick = some ch) :
    ∃ ch' ∈ w'.db.challenges, sameChallenge ch ch' = true ∧
      ch'.attempts = ch.attempts + (if tr.any costs then 1 else 0) ∧
        ∃ pick', latest w'.db p pick' = some ch' := by
  have hnewest := mem_of_limitOne hlatest
  rw [mem_newest_select] at hnewest
  obtain ⟨⟨hstored, haddress⟩, hnewest⟩ := hnewest
  cases hcosts : tr.any costs with
  | false =>
      have hsame : w'.db.challenges = w.db.challenges := by rw [h.challenges, hcosts]; rfl
      refine ⟨ch, hsame ▸ hstored, sameChallenge_self ch, rfl, pick, ?_⟩
      unfold latest
      rw [hsame]
      exact hlatest
  | true =>
      have hcounted : w'.db.challenges =
          w.db.challenges.update (fun r => r.id = ch.id) ChallengeRow.attempted := by
        rw [h.challenges, hcosts, if_pos rfl]
      have hmem : ch.attempted ∈ w'.db.challenges := by
        rw [hcounted]
        exact (mem_update key_attempted).mpr (.inl ⟨ch, hstored, decide_eq_true rfl, rfl⟩)
      have hlast : ch.attempted ∈ newest ChallengeRow.createdAt
          (w'.db.challenges.select (ChallengeRow.addressedTo p.identifier p.channel)) := by
        refine mem_newest_select.mpr ⟨⟨hmem, haddress⟩, fun s hs hsaddress => ?_⟩
        -- counting an attempt changes neither the address nor the date
        rw [hcounted] at hs
        rcases (mem_update key_attempted).mp hs with ⟨s', hs', _, rfl⟩ | ⟨hs', _⟩
        · exact hnewest s' hs' hsaddress
        · exact hnewest s hs' hsaddress
      obtain ⟨pick', hpick'⟩ := limitOne_of_mem hlast
      exact ⟨ch.attempted, hmem, sameChallenge_iff.mpr rfl, rfl, pick', hpick'⟩

theorem acceptable_mono (husers : w'.db.users = w.db.users)
    (hleft : ch.attempts < maxOTPAttempts → ch'.attempts < maxOTPAttempts)
    (h : Acceptable cfg w.db ch call) : Acceptable cfg w'.db ch' call := by
  cases call with
  | verifySignup email code password =>
      obtain ⟨hopen, hemail, hcode, hattempts, haccount⟩ := h
      exact ⟨hopen, hemail, hcode, hleft hattempts, husers ▸ haccount⟩
  | verifyOTP identifier channel code =>
      obtain ⟨hidentifier, hcode, hattempts, haccount⟩ := h
      exact ⟨hidentifier, hcode, hleft hattempts, husers ▸ haccount⟩
  | _ => cases h

theorem correct_again (hcorrect : Correct cfg call p ch pick w.db)
    (hsame : sameChallenge ch ch' = true) (husers : w'.db.users = w.db.users) {pick' : Nat}
    (hlatest : latest w'.db p pick' = some ch') :
    Correct cfg call p ch' pick' w'.db := by
  refine ⟨hcorrect.presents, hlatest, ?_, ?_⟩
  · rw [sameChallenge_iff.mp hsame]
    exact hcorrect.code
  · have hpassword := hcorrect.password
    cases call with
    | verifySignup email code password =>
        unfold RightPassword at hpassword ⊢
        rw [husers]
        exact hpassword
    | _ => trivial

/-- A call that is not acceptable is refused without any failure. -/
theorem refused_again (hint : w.db.Integrity) (hnow : w.now ≠ 0)
    (hcorrect : Correct cfg call p ch pick w.db) (hnot : ¬ Acceptable cfg w.db ch call)
    (hunexpired : w.now ≤ ch.expiresAt) :
    ∃ choices : Nat → Choice, (choices 0).pick = pick ∧ Unfailing cfg call choices w ch.expiresAt ∧
      ∀ pair, (call.perform cfg choices w).1 ≠ .ok (.tokens pair) := by
  -- an environment in which nothing fails and the clock stands still
  refine ⟨fun _ => { pick := pick }, rfl, ?_, ?_⟩
  all_goals
    obtain ⟨res, hres, hcourse⟩ := perform_ended (fun _ => { pick := pick }) hint hnow hcorrect
  · have hdraws :
        Drawless ((call.program cfg).trail (exec cfg.env) (fun _ => { pick := pick }) w) := by
      cases hcourse with
      | refused _ hdraws => exact hdraws
      | kept haccept | lost haccept | done haccept => exact absurd haccept hnot
    have hchoices : ∀ d ∈ (call.program cfg).trail (exec cfg.env) (fun _ => { pick := pick }) w,
        d.choice = { pick := pick } := fun d hd => (trail_choices _ _ _ d hd).elim fun _ h => h
    intro d hd
    refine ⟨?_, ?_⟩
    · rw [through_of_draws (hdraws d hd), hchoices d hd]
      rfl
    · refine ((instant_le_run _ _ _).2 d hd).trans (run_now_le _ _ hunexpired fun d hd => ?_)
      rw [hchoices d hd]
      exact Nat.zero_le _
  · intro pair hpair
    cases hcourse with
    | refused => rw [hres] at hpair; cases hpair
    | kept haccept | lost haccept | done haccept => exact hnot haccept

/-- An acceptable call succeeds when everything gets through in time. -/
theorem succeeds_unfailing (hint : w.db.Integrity) (hnow : w.now ≠ 0)
    (hcorrect : Correct cfg call p ch (choices 0).pick w.db) (haccept : Acceptable cfg w.db ch call)
    (hunfailing : Unfailing cfg call choices w ch.expiresAt) :
    ∃ pair, (call.perform cfg choices w).1 = .ok (.tokens pair) := by
  obtain ⟨res, hres, hcourse⟩ := perform_ended choices hint hnow hcorrect
  cases hcourse with
  | refused hnot => exact absurd haccept hnot
  | kept _ _ _ hcause =>
      obtain ⟨d, hd, hfailed | hlate⟩ := hcause
      · rw [(hunfailing d hd).1] at hfailed
        cases hfailed
      · exact absurd (hunfailing d hd).2 (not_le.mpr hlate)
  | lost _ _ _ hcause =>
      obtain ⟨d, hd, _, hfailed⟩ := hcause
      rw [(hunfailing d hd).1] at hfailed
      cases hfailed
  | done => exact ⟨_, hres⟩

theorem attempts_of_acceptable (h : Acceptable cfg w.db ch call) :
    ch.attempts < maxOTPAttempts := by
  cases call with
  | verifySignup email code password => exact h.2.2.2.1
  | verifyOTP identifier channel code => exact h.2.2.1
  | _ => cases h

/-- A verification whose failures are contained. -/
theorem allOrNothing_of_contained (hint : w.db.Integrity) (hnow : w.now ≠ 0)
    (hcorrect : Correct cfg call p ch (choices 0).pick w.db) (hunexpired : w.now ≤ ch.expiresAt)
    (haccept : Acceptable cfg w.db ch call) (hcontained : Contained cfg call ch choices w) :
    AllOrNothing cfg call p ch choices w := by
  obtain ⟨res, hres, hcourse⟩ := perform_ended choices hint hnow hcorrect
  unfold Contained at hcontained
  dsimp only at hcontained
  refine ⟨fun e he => ?_, fun pair hpair => ?_⟩
  · cases hcourse with
    | refused hnot => exact absurd haccept hnot
    | lost _ hspends _ hcause =>
        rw [if_pos hspends] at hcontained
        obtain ⟨d, hd, hdecisive, hfailed⟩ := hcause
        rw [hcontained d hd hdecisive] at hfailed
        cases hfailed
    | done =>
        rw [hres] at he
        cases he
    | kept _ hspends hkept _ =>
        rw [if_neg (Bool.eq_false_iff.mp hspends)] at hcontained
        obtain ⟨ch', hch', hsame, hattempts, _⟩ := kept_latest hkept hcorrect.latest
        have hexpires : ch'.expiresAt = ch.expiresAt := by rw [sameChallenge_iff.mp hsame]
        have hend : (call.perform cfg choices w).2.now ≤ ch.expiresAt :=
          run_now_le _ _ hunexpired fun d hd => (le_max_right _ _).trans (hcontained.1 d hd)
        refine ⟨ch', hch', hsame, hexpires ▸ hend, ?_, fun choices' hunfailing hlatest => ?_⟩
        · unfold accountStatus
          rw [hkept.users]
        · -- the repetition finds the same account and an attempt left
          have hagain := correct_again hcorrect hsame hkept.users hlatest
          have haccept' : Acceptable cfg (call.perform cfg choices w).2.db ch' call := by
            refine acceptable_mono hkept.users (fun hleft => ?_) haccept
            rw [hattempts]
            split
            · rename_i hcosts
              exact hcontained.2 hcosts
            · exact hleft
          have hnow' : (call.perform cfg choices w).2.now ≠ 0 :=
            Nat.ne_of_gt (lt_of_lt_of_le (Nat.pos_of_ne_zero hnow) (instant_le_run _ _ _).1)
          exact succeeds_unfailing (perform_integrity cfg call choices hint) hnow' hagain
            haccept' hunfailing
  · cases hcourse with
    | done _ _ hgone _ hgoal => exact ⟨hgone, hgoal⟩
    | refused | kept | lost =>
        rw [hres] at hpair
        cases hpair

/-- What a verification leaves in the challenges when it is not the caller's last word. -/
theorem kept_of_stored
      (hcourse : Ended (Acceptable cfg w.db ch call) w ch (fun db => Activated cfg db call)
      (call.perform cfg choices w).1 (call.perform cfg choices w).2
        ((call.program cfg).trail (exec cfg.env) choices w))
    (hch' : ch' ∈ (call.perform cfg choices w).2.db.challenges) (hid : ch'.id = ch.id) :
    ((call.program cfg).trail (exec cfg.env) choices w).any consumes = false ∧
      Kept w ch (call.perform cfg choices w).2
        ((call.program cfg).trail (exec cfg.env) choices w) := by
  obtain ⟨res, _, hcourse⟩ := hcourse
  cases hcourse with
  | kept _ hspends hkept _ => exact ⟨hspends, hkept⟩
  | lost _ _ hgone _ => exact absurd hid (hgone ch' hch')
  | done _ _ hgone _ _ => exact absurd hid (hgone ch' hch')
  | refused _ _ hkept hgone =>
      cases hspends : ((call.program cfg).trail (exec cfg.env) choices w).any consumes with
      | true => exact absurd hid (hgone hspends ch' hch')
      | false => exact ⟨rfl, hkept hspends⟩

/-- A call that fails and can be repeated left an acceptable call behind. -/
theorem acceptable_after (hint : w.db.Integrity) (hnow : w.now ≠ 0)
    (hcorrect : Correct cfg call p ch (choices 0).pick w.db)
    (hall : AllOrNothing cfg call p ch choices w) {e : Err}
    (he : (call.perform cfg choices w).1 = .error e) :
    ((call.program cfg).trail (exec cfg.env) choices w).any consumes = false ∧
      (call.perform cfg choices w).2.now ≤ ch.expiresAt ∧
      Kept w ch (call.perform cfg choices w).2 ((call.program cfg).trail (exec cfg.env) choices w) ∧
      ∀ ch', ch' ∈ (call.perform cfg choices w).2.db.challenges → sameChallenge ch ch' = true →
        (∃ pick', latest (call.perform cfg choices w).2.db p pick' = some ch') →
          Acceptable cfg (call.perform cfg choices w).2.db ch' call := by
  have hended := perform_ended choices hint hnow hcorrect
  obtain ⟨ch₁, hch₁, hsame₁, hend, _, hrepeat⟩ := hall.1 e he
  have hid₁ : ch₁.id = ch.id := by rw [sameChallenge_iff.mp hsame₁]
  have hexpires₁ : ch₁.expiresAt = ch.expiresAt := by rw [sameChallenge_iff.mp hsame₁]
  obtain ⟨hspends, hkept⟩ := kept_of_stored hended hch₁ hid₁
  refine ⟨hspends, hexpires₁ ▸ hend, hkept, ?_⟩
  rintro ch' hch' hsame' ⟨pick', hlatest'⟩
  -- the rows have one key, so they are one
  have hone : ch' = ch₁ := by
    refine eq_of_key hch' hch₁ ?_
    rw [key_challenge, key_challenge, hid₁, sameChallenge_iff.mp hsame']
  subst hone
  by_contra hnot
  have hagain := correct_again hcorrect hsame' hkept.users hlatest'
  have hnow' : (call.perform cfg choices w).2.now ≠ 0 :=
    Nat.ne_of_gt (lt_of_lt_of_le (Nat.pos_of_ne_zero hnow) (instant_le_run _ _ _).1)
  obtain ⟨choices', hpick, hunfailing, hrefused⟩ :=
    refused_again (perform_integrity cfg call choices hint) hnow' hagain hnot hend
  obtain ⟨pair, hpair⟩ := hrepeat choices' hunfailing (hpick ▸ hlatest')
  exact hrefused pair hpair

/-- A verification with the right code is all or nothing exactly when the service accepts it and its
failures are contained. -/
theorem allOrNothing_iff (hint : w.db.Integrity) (hnow : w.now ≠ 0)
    (hcorrect : Correct cfg call p ch (choices 0).pick w.db) (hunexpired : w.now ≤ ch.expiresAt) :
    AllOrNothing cfg call p ch choices w ↔
      Acceptable cfg w.db ch call ∧ Contained cfg call ch choices w := by
  refine ⟨fun hall => ?_, fun h => allOrNothing_of_contained hint hnow hcorrect hunexpired h.1 h.2⟩
  obtain ⟨res, hres, hcourse⟩ := perform_ended choices hint hnow hcorrect
  cases res with
  | ok pair =>
      cases hcourse with
      | done haccept hspends _ hthrough _ =>
          refine ⟨haccept, ?_⟩
          unfold Contained
          dsimp only
          rw [if_pos hspends]
          exact hthrough
  | error e =>
      -- the retry succeeds by assumption, so what it needs was there before
      obtain ⟨hspends, hend, hkept, hafter⟩ := acceptable_after hint hnow hcorrect hall hres
      obtain ⟨ch', hch', hsame, hattempts, hlatest⟩ := kept_latest hkept hcorrect.latest
      have haccept' := hafter ch' hch' hsame hlatest
      have hleft' : ch'.attempts < maxOTPAttempts := attempts_of_acceptable haccept'
      refine ⟨acceptable_mono hkept.users.symm (fun _ => ?_) haccept', ?_⟩
      · exact lt_of_le_of_lt (hattempts ▸ Nat.le_add_right _ _) hleft'
      · unfold Contained
        dsimp only
        rw [if_neg (Bool.eq_false_iff.mp hspends)]
        refine ⟨fun d hd => ((instant_le_run _ _ _).2 d hd).trans hend, fun hcosts => ?_⟩
        rw [hattempts, if_pos hcosts] at hleft'
        exact hleft'

end Repetitions

/-! ## A signer that fails -/

/-- After the registration of `Cooldown.register`. -/
def registered : World :=
  play toyConfig [Cooldown.register second 0] toyWorld

/-- The challenge of that registration. -/
def registeredCode : ChallengeRow where
  id := Uuid.ofNat 8
  identifier := "ann@example.com"
  channel := channelEmail
  codeHash := "bcrypt:123456"
  expiresAt := second + otpTTL
  attempts := 0
  createdAt := second

/-- `VerifySignup` with the right code and password, and what it presents. -/
def rightCall : Call :=
  .verifySignup "ann@example.com" "123456" "secret"

def rightCode : Presented where
  identifier := "ann@example.com"
  channel := channelEmail
  code := "123456"

/-- Of its operations only the one with this number fails. -/
def failingAt (k : Nat) : Nat → Choice :=
  fun n => { now := 2 * second, id := Uuid.ofNat (100 + n), fails := n = k }

theorem registered_integrity : registered.db.Integrity :=
  perform_integrity toyConfig (Cooldown.register second 0).1 (Cooldown.register second 0).2
    DB.integrity_empty

/-- What the registration left. -/
theorem registered_seen :
    registered.now ≠ 0 ∧ registered.now ≤ registeredCode.expiresAt ∧
      latest registered.db rightCode 0 = some registeredCode ∧
      (∃ r ∈ registered.db.users, r.email = some (toyEnv.normalizeEmail "ann@example.com") ∧
        toyEnv.compare r.user.passwordHash "secret" = true) ∧
      ∀ r ∈ registered.db.users, r.email = some (toyEnv.normalizeEmail "ann@example.com") →
        r.unverified = true ∧ r.user.passwordHash ≠ "" := by
  decide +kernel

theorem rightCall_correct (k : Nat) :
    Correct toyConfig rightCall rightCode registeredCode (failingAt k 0).pick registered.db := by
  obtain ⟨_, _, hlatest, hpassword, _⟩ := registered_seen
  exact ⟨by decide +kernel, hlatest, by decide +kernel, hpassword⟩

/-- `ConsumeChallenge` fails: the sign-up can be repeated. -/
theorem allOrNothing_unconsumed :
    (rightCall.perform toyConfig (failingAt 3) registered).1.isOk = false ∧
      AllOrNothing toyConfig rightCall rightCode registeredCode (failingAt 3) registered := by
  obtain ⟨hnow, hunexpired, _, _, hunverified⟩ := registered_seen
  obtain ⟨hfailed, hcontained⟩ :
      (rightCall.perform toyConfig (failingAt 3) registered).1.isOk = false ∧
      Contained toyConfig rightCall registeredCode (failingAt 3) registered := by decide +kernel
  have haccept : Acceptable toyConfig registered.db registeredCode rightCall :=
    ⟨rfl, by decide, by decide, by decide, hunverified⟩
  exact ⟨hfailed, (allOrNothing_iff registered_integrity hnow (rightCall_correct 3) hunexpired).mpr
    ⟨haccept, hcontained⟩⟩

/-- The signer fails: the account is active, the code is gone, and the caller has no session. -/
theorem verification_lost :
    registered.db.Integrity ∧ registered.now ≤ registeredCode.expiresAt ∧
      Correct toyConfig rightCall rightCode registeredCode (failingAt 7 0).pick registered.db ∧
      (let out := rightCall.perform toyConfig (failingAt 7) registered
       out.1.isOk = false ∧ out.2.db.challenges.rows = [] ∧ out.2.db.refreshTokens.rows = [] ∧
        accountStatus out.2.db rightCode = some .active) ∧
      ¬ AllOrNothing toyConfig rightCall rightCode registeredCode (failingAt 7) registered := by
  have hout : (rightCall.perform toyConfig (failingAt 7) registered).1.isOk = false ∧
      (rightCall.perform toyConfig (failingAt 7) registered).2.db.challenges.rows = [] ∧
      (rightCall.perform toyConfig (failingAt 7) registered).2.db.refreshTokens.rows = [] ∧
      accountStatus (rightCall.perform toyConfig (failingAt 7) registered).2.db rightCode =
        some .active := by
    decide +kernel
  refine ⟨registered_integrity, registered_seen.2.1, rightCall_correct 7, hout, fun hall => ?_⟩
  obtain ⟨e, he⟩ := exists_error hout.1
  obtain ⟨ch', hch', _⟩ := hall.1 e he
  rw [Table.mem_def, hout.2.1] at hch'
  cases hch'

/-- `VerifyOTP` spends the code of a pending sign-up although nothing fails. -/
example :
    let out := (Call.verifyOTP "ann@example.com" "email" "123456").perform toyConfig
      (failingAt 99) registered
    out.1.isOk = false ∧ out.2.db.challenges.rows = [] := by
  decide +kernel

end Verification
end Service
end OrbitAuth
