import OrbitAuth.Safety.AccountStatus
import OrbitAuth.Safety.Cooldown

/-!
# Delivery — a registration that succeeds leaves a code that was sent

The challenge is stored before its mail goes out, and a retry within the cooldown takes a stored
challenge for one that was mailed.  After a failed notification the two are not the same.

* `Delivered` — the code of a challenge went out with a notification that succeeded;
* `Relied` — a challenge that a registration takes for the one in the mailbox;
* `Trusted` — those of a registration were delivered;
* `registration_usable` — a registration from such a state that succeeds leaves a delivered code,
  with attempts left unless it is one that was relied on;
* `registrations_usable` — over every history.
-/

namespace OrbitAuth
namespace Service
namespace Delivery

open Domain Foundations Postgres Superseded SignupCodes Cooldown

/-! ## Codes that were sent -/

/-- The notification carries `code` to the mailbox. -/
def carries (email code : String) : Notification → Bool
  | .signupVerification recipient sent _ _ _ => recipient = email && sent = code
  | .otp channel identifier sent _ => channel = channelEmail && identifier = email && sent = code
  | .orgInvite _ => false

/-- The code of the challenge was handed to the notifier by a call that succeeded. -/
def Delivered (env : Env) (w : World) (email : String) (ch : ChallengeRow) : Prop :=
  ∃ code, (∃ n ∈ w.sent, carries email code n = true) ∧ ∃ salt, ch.codeHash = env.hash salt code

/-- The address belongs to an account that waits for its verification. -/
def Pending (db : DB) (email : String) : Prop :=
  ∃ r ∈ db.users, r.email = some email ∧ r.status = .signupPending

/-- The newest code of the address is there and was delivered. -/
def Usable (env : Env) (w : World) (email : String) : Prop :=
  (∃ ch, ch ∈ newestCodes w.db email) ∧ ∀ ch ∈ newestCodes w.db email, Delivered env w email ch

/-- A challenge that a registration takes for the one in the mailbox.  For an account that waits for
its verification it is the newest, within its cooldown.  For an address without an account it is one
that is not older than the registration itself, which no new challenge supersedes. -/
def Relied (w : World) (email : String) (ch : ChallengeRow) : Prop :=
  ((∃ r ∈ w.db.users, r.email = some email ∧ r.unverified = true) ∧
      ch ∈ newestCodes w.db email ∧ w.now < ch.createdAt + signupVerificationCooldown) ∨
    ((∀ r ∈ w.db.users, r.email ≠ some email) ∧
      (ch ∈ w.db.challenges ∧ ch.addressedTo email channelEmail = true) ∧ w.now ≤ ch.createdAt)

/-- The world at the instant of a call's first operation. -/
def begun (choices : Nat → Choice) (w : World) : World :=
  w.advance (choices 0).now

/-- A registration passes the checks on its input. -/
def admits (cfg : Config) (email password : String) : Bool :=
  cfg.signupOpen && isEmail (cfg.env.normalizeEmail email) && trimSpace password ≠ ""

/-- The registration, if the call is one without an invitation, relies on delivered codes only. -/
def Trusted (cfg : Config) (call : Call) (choices : Nat → Choice) (w : World) : Prop :=
  match call with
  | .registerWithEmail email password _ _ _ inviteToken =>
      trimSpace inviteToken = "" → admits cfg email password = true →
        ∀ ch, Relied (begun choices w) (cfg.env.normalizeEmail email) ch →
          Delivered cfg.env w (cfg.env.normalizeEmail email) ch
  | _ => True

section Outcome

variable {env : Env} {email code : String} {w w' : World} {row ch : ChallengeRow} {t : Time}
  {tr : List Done}

theorem delivered_mono (h : ∀ n ∈ w.sent, n ∈ w'.sent) (hd : Delivered env w email ch) :
    Delivered env w' email ch := by
  obtain ⟨code, ⟨n, hn, hcarries⟩, hhash⟩ := hd
  exact ⟨code, ⟨n, h n hn, hcarries⟩, hhash⟩

/-- Of the codes after a mail, the newest is the one that was mailed, or one that was relied on. -/
theorem newest_of_issued (h : Issued env email code w w' row t tr)
    (hch : ch ∈ newestCodes w'.db email) : ch = row ∨ Relied w email ch := by
  obtain ⟨⟨hstored, haddress⟩, hnewest⟩ := mem_newestCodes.mp hch
  have hle : row.createdAt ≤ ch.createdAt := hnewest row h.stored h.address
  rcases h.origin ch hstored haddress with hrow | hold
  · exact .inl hrow
  · rcases h.due with hnone | ⟨_, hcooled⟩
    · exact .inr (.inr ⟨hnone, ⟨hold, haddress⟩, (h.after.trans h.dated).trans hle⟩)
    -- a retry outside the cooldown dates its code after those it finds
    · have hdated : ch.createdAt ≠ 0 := fun hzero =>
        h.created (Nat.le_zero.mp (hzero ▸ hle))
      have hover := (hcooled ch hold haddress hdated).trans (h.dated.trans hle)
      have hshort : ch.createdAt < ch.createdAt + signupVerificationCooldown :=
        Nat.lt_add_of_pos_right (by decide)
      exact absurd hover (not_le.mpr hshort)

/-- The code is there, was delivered, and has attempts left unless it was relied on in `w`. -/
def Left (env : Env) (email : String) (w w' : World) : Prop :=
  Usable env w' email ∧
    ∀ ch ∈ newestCodes w'.db email, ch.attempts < maxOTPAttempts ∨ Relied w email ch

theorem left_of_mailed {locale userID : String} {c : Choice}
    (h : Issued env email code w w' row t tr)
    (htrusted : ∀ ch, Relied w email ch → Delivered env w email ch) :
    Left env email w { w'.advance c.now with
      sent := w'.sent ++ [.signupVerification email code otpTTLMinutes locale userID] } := by
  obtain ⟨salt, hhash⟩ := h.codeHash
  have hne : w'.db.challenges.select (ChallengeRow.addressedTo email channelEmail) ≠ [] :=
    List.ne_nil_of_mem (mem_select.mpr ⟨h.stored, h.address⟩)
  refine ⟨⟨exists_newest ChallengeRow.createdAt hne, fun ch hch => ?_⟩, fun ch hch => ?_⟩
  · rcases newest_of_issued h hch with rfl | hold
    · refine ⟨code, ⟨_, List.mem_append_right _ (List.mem_singleton_self _), ?_⟩, salt, hhash⟩
      simp [carries]
    · refine delivered_mono (fun n hn => ?_) (htrusted ch hold)
      exact List.mem_append_left _ (h.sent ▸ hn)
  · refine (newest_of_issued h hch).imp_left ?_
    rintro rfl
    rw [h.fresh]
    decide

/-- Within the cooldown the codes stay as they are. -/
theorem left_of_cooldown (hchallenges : w'.db.challenges = w.db.challenges)
    (hsent : w'.sent = w.sent)
    (hwaits : ∃ r ∈ w.db.users, r.email = some email ∧ r.unverified = true)
    (hch : ch ∈ newestCodes w.db email) (hlt : w.now < ch.createdAt + signupVerificationCooldown)
    (htrusted : ∀ ch, Relied w email ch → Delivered env w email ch) : Left env email w w' := by
  have hcodes : newestCodes w'.db email = newestCodes w.db email := by
    unfold newestCodes
    rw [hchallenges]
  have hrelied : ∀ ch' ∈ newestCodes w.db email, Relied w email ch' := by
    intro ch' hch'
    -- all the newest date from one instant
    have hle : ch.createdAt ≤ ch'.createdAt :=
      (mem_newestCodes.mp hch').2 ch (mem_newestCodes.mp hch).1.1 (mem_newestCodes.mp hch).1.2
    exact .inl ⟨hwaits, hch', lt_of_lt_of_le hlt (Nat.add_le_add_right hle _)⟩
  unfold Left Usable
  rw [hcodes]
  refine ⟨⟨⟨ch, hch⟩, fun ch' hch' => ?_⟩, fun ch' hch' => .inr (hrelied ch' hch')⟩
  exact delivered_mono (fun n hn => hsent ▸ hn) (htrusted ch' (hrelied ch' hch'))

/-- A registration without an invitation, from how it ended. -/
theorem registered_left (h : Registered env email false w (.ok ()) w' tr)
    (hstatus : AccountStatus.Consistent w'.db.users) (hpending : Pending w'.db email)
    (htrusted : ∀ ch, Relied w email ch → Delivered env w email ch) : Left env email w w' := by
  cases h with
  | mailed hissued hf => exact left_of_mailed hissued htrusted
  | calm hcalm hanswered =>
      obtain ⟨r, hr, hemail, hwaits⟩ := hpending
      have hnone := ((hstatus.agrees r hr).mp hwaits).2
      have hunsettled : ¬ ∀ r ∈ w'.db.users, r.email = some email → r.unverified = false := by
        intro hsettled
        have hunverified : r.unverified = true := by simp [UserRow.unverified, hwaits, hnone]
        rw [hsettled r hr hemail] at hunverified
        cases hunverified
      rcases hanswered rfl with hinvited | hsettled | ⟨haccount, hchallenges, ch, hch, hlt⟩
      · cases hinvited
      · exact absurd hsettled hunsettled
      · refine left_of_cooldown hchallenges hcalm.sent ?_ hch hlt htrusted
        -- an address that was settled before would still be
        by_contra hverified
        refine hunsettled ((hcalm.quiet.accounts email haccount).2 fun s hs hsemail => ?_)
        exact Bool.eq_false_iff.mpr fun hs' => hverified ⟨s, hs, hsemail, hs'⟩

end Outcome

/-! ## Histories -/

/-- A registration without an invitation that succeeds and leaves its address pending leaves a
delivered code, with attempts left unless it is one the registration relied on. -/
def LeavesUsable (cfg : Config) (choices : Nat → Choice) (w : World) : Call → Prop
  | .registerWithEmail email password displayName locale orgName inviteToken =>
      let out := (Call.registerWithEmail email password displayName locale orgName
        inviteToken).perform cfg choices w
      trimSpace inviteToken = "" → out.1 = .ok .none →
        Pending out.2.db (cfg.env.normalizeEmail email) →
        Left cfg.env (cfg.env.normalizeEmail email) (begun choices w) out.2
  | _ => True

section Histories

variable {cfg : Config} {call : Call} {choices : Nat → Choice} {w : World}

theorem perform_consistent (hnow : w.now ≠ 0) (h : AccountStatus.Consistent w.db.users) :
    (call.perform cfg choices w).2.now ≠ 0 ∧
      AccountStatus.Consistent (call.perform cfg choices w).2.db.users :=
  perform_keeps cfg (fun db => AccountStatus.Consistent db.users)
    (fun _ _ hasks hdb _ _ _ _ => AccountStatus.exec_consistent hasks hdb) choices hnow h

theorem exec_begun {env : Env} (o : Port) (c : Choice) (w : World) :
    exec env o c (w.advance c.now) = exec env o c w := by
  simp [exec, World.advance]

/-- A call that performs something sees the clock at its first operation. -/
theorem perform_begun {o : Port} {k : o.Ans → Action Reply}
    (hprogram : call.program cfg = .call o k) (choices : Nat → Choice) (w : World) :
    call.perform cfg choices (begun choices w) = call.perform cfg choices w := by
  unfold Call.perform
  rw [hprogram, Program.run_call, Program.run_call, begun, exec_begun]

/-- A registration without an invitation is refused at once or hashes the password. -/
theorem registration_begins {email password displayName locale orgName inviteToken : String}
    (htoken : trimSpace inviteToken = "") :
    (∃ e, (Call.registerWithEmail email password displayName locale orgName inviteToken).program
      cfg =
        .fail e) ∨
      admits cfg email password = true ∧ ∃ k, (Call.registerWithEmail email password displayName
        locale orgName inviteToken).program cfg = .call (.hash password) k := by
  simp only [Call.program, registerWithEmail, signupInvite, htoken, if_true]
  cases hclosed : !cfg.signupOpen with
  | true => exact .inl ⟨_, rfl⟩
  | false =>
      cases hemail : !isEmail (cfg.env.normalizeEmail email) with
      | true => exact .inl ⟨_, rfl⟩
      | false =>
          cases hpassword : decide (trimSpace password = "") with
          | true => exact .inl ⟨_, rfl⟩
          | false =>
              refine .inr ⟨?_, _, rfl⟩
              rw [Bool.not_eq_false'] at hclosed hemail
              simp [admits, hclosed, hemail, of_decide_eq_false hpassword]

/-- Nothing else depends on when the call begins. -/
theorem notifierOnly_begun {o : Port} {k : o.Ans → Action Reply}
    (hprogram : call.program cfg = .call o k) (h : NotifierOnly cfg call choices w) :
    NotifierOnly cfg call choices (begun choices w) := by
  unfold NotifierOnly at h ⊢
  rw [hprogram, Program.trail, List.forall_mem_cons] at h ⊢
  rw [begun, exec_begun]
  exact h

/-- A registration from a state whose recent codes were delivered. -/
theorem registration_usable (hfails : NotifierOnly cfg call choices w) (hint : w.db.Integrity)
    (hnow : w.now ≠ 0) (hstatus : AccountStatus.Consistent w.db.users)
    (htrusted : Trusted cfg call choices w) : LeavesUsable cfg choices w call := by
  cases call with
  | registerWithEmail email password displayName locale orgName inviteToken =>
      intro htoken hok hpending
      rcases registration_begins htoken with ⟨e, hprogram⟩ | ⟨hadmits, k, hprogram⟩
      · -- a refused call does not succeed
        rw [Call.perform, hprogram] at hok
        cases hok
      · have hbegun := perform_begun hprogram choices w
        obtain ⟨res, hres, hregistered⟩ :=
          registration_ends (w := begun choices w) rfl hint (notifierOnly_begun hprogram hfails)
        rw [hbegun] at hres hregistered
        have hsucceeds : res = .ok () := by
          cases res with
          | ok u => rfl
          | error e =>
              rw [hres] at hok
              cases hok
        subst hsucceeds
        have hinvited : decide (trimSpace inviteToken ≠ "") = false := by simp [htoken]
        rw [hinvited] at hregistered
        exact registered_left hregistered (perform_consistent hnow hstatus).2 hpending
          (htrusted htoken hadmits)
  | _ => trivial

/-- In a history in which only the notifier fails and every registration relies on delivered codes,
every registration that succeeds leaves one. -/
theorem registrations_usable {history : History} {w : World}
    (hfails : Throughout cfg (NotifierOnly cfg) history w) (hint : w.db.Integrity)
    (hnow : w.now ≠ 0) (hstatus : AccountStatus.Consistent w.db.users)
    (htrusted : Throughout cfg (Trusted cfg) history w) :
    Throughout cfg (fun call choices w => LeavesUsable cfg choices w call) history w := by
  induction history generalizing w with
  | nil => trivial
  | cons step rest ih =>
      rcases step with ⟨call, choices⟩
      have hkept : (call.perform cfg choices w).2.now ≠ 0 ∧
          AccountStatus.Consistent (call.perform cfg choices w).2.db.users :=
            perform_consistent hnow hstatus
      refine ⟨registration_usable hfails.1 hint hnow hstatus htrusted.1, ?_⟩
      exact ih hfails.2 (perform_integrity cfg call choices hint) hkept.1 hkept.2 htrusted.2

end Histories

/-! ## A lost mail -/

instance (o : Port) (c : Choice) (w : World) : Decidable (OnlySendsFail o c w) :=
  match hc : c.fails, o with
  | false, _ => isTrue fun hf => by cases hc.symm.trans hf
  | true, .send n => isTrue fun _ => ⟨n, rfl⟩
  | true, .now | true, .newID | true, .newCode | true, .newSecret | true, .hash _
  | true, .sign _ _ _ | true, .flag _ | true, .store _ =>
      isFalse fun h => by
        obtain ⟨_, hn⟩ := h hc
        cases hn

instance (cfg : Config) (call : Call) (choices : Nat → Choice) (w : World) :
    Decidable (NotifierOnly cfg call choices w) :=
  inferInstanceAs (Decidable (∀ d ∈ (call.program cfg).trail (exec cfg.env) choices w,
    OnlySendsFail d.op d.choice d.world))

instance (db : DB) (email : String) : Decidable (Pending db email) :=
  inferInstanceAs (Decidable (∃ r ∈ db.users, r.email = some email ∧ r.status = .signupPending))

/-- The call succeeded without a value. -/
def acknowledged : Except Err Reply → Bool
  | .ok .none => true
  | _ => false

theorem ok_of_acknowledged {res : Except Err Reply} (h : acknowledged res = true) :
    res = .ok .none := by
  cases res with
  | error e => cases h
  | ok reply =>
      cases reply with
      | none => rfl
      | _ => cases h

/-- Codes that are past their cooldown are not relied on. -/
theorem trusted_of_old {cfg : Config} {call : Call} {choices : Nat → Choice} {w : World}
    (h : ∀ ch ∈ w.db.challenges, ch.createdAt + signupVerificationCooldown ≤
      (begun choices w).now) :
    Trusted cfg call choices w := by
  cases call with
  | registerWithEmail email password displayName locale orgName inviteToken =>
      rintro _ _ ch (⟨_, hch, hlt⟩ | ⟨_, ⟨hch, _⟩, hle⟩)
      · exact absurd (h ch (mem_newestCodes.mp hch).1.1) (not_le.mpr hlt)
      · have hshort : ch.createdAt < ch.createdAt + signupVerificationCooldown :=
          Nat.lt_add_of_pos_right (by decide)
        exact absurd ((h ch hch).trans hle) (not_le.mpr hshort)
  | _ => trivial

/-- A registration whose mail is lost. -/
def registerLost (t : Time) (first : Nat) : Call × (Nat → Choice) :=
  ((register t first).1, fun n => { (register t first).2 n with fails := n = 10 })

/-- The mail of the first registration is lost, and the second one is made at `t`. -/
def retriedAt (t : Time) : History :=
  [registerLost second 0, register t 200]

theorem consistent_toyWorld : AccountStatus.Consistent toyWorld.db.users :=
  ⟨fun r hr => absurd hr (not_mem_empty r), fun r hr => absurd hr (not_mem_empty r)⟩

/-- After the cooldown the retry mails a new code. -/
theorem registrations_usable_late :
    (let out := play toyConfig (retriedAt (70 * second)) toyWorld;
      Pending out.db "ann@example.com" ∧ out.sent.length = 1) ∧
      Throughout toyConfig (fun call choices w => LeavesUsable toyConfig choices w call)
        (retriedAt (70 * second)) toyWorld := by
  obtain ⟨hout, hfails, hold⟩ :
      (Pending (play toyConfig (retriedAt (70 * second)) toyWorld).db "ann@example.com" ∧
        (play toyConfig (retriedAt (70 * second)) toyWorld).sent.length = 1) ∧
      Throughout toyConfig (NotifierOnly toyConfig) (retriedAt (70 * second)) toyWorld ∧
      Throughout toyConfig (fun _ choices w => ∀ ch ∈ w.db.challenges,
        ch.createdAt + signupVerificationCooldown ≤ (begun choices w).now) (retriedAt (70 * second))
          toyWorld := by
    decide +kernel
  exact ⟨hout, registrations_usable hfails DB.integrity_empty (by decide) consistent_toyWorld
    (throughout_mono (fun _ _ _ => trusted_of_old) hold)⟩

/-- Within the cooldown it succeeds, although no code has ever gone out. -/
theorem registration_unusable :
    (∀ step ∈ retriedAt (11 * second), IsCodeCall step.1) ∧
      Throughout toyConfig (NotifierOnly toyConfig) (retriedAt (11 * second)) toyWorld ∧
      (let w := play toyConfig [registerLost second 0] toyWorld;
        let out := (register (11 * second) 200).1.perform toyConfig
          (register (11 * second) 200).2 w;
        out.1 = .ok .none ∧ Pending out.2.db "ann@example.com" ∧ out.2.sent = [] ∧
          ¬ Usable toyConfig.env out.2 "ann@example.com") := by
  obtain ⟨hfails, hanswer, hpending, hsent⟩ :
      Throughout toyConfig (NotifierOnly toyConfig) (retriedAt (11 * second)) toyWorld ∧
      acknowledged ((register (11 * second) 200).1.perform toyConfig (register (11 * second) 200).2
        (play toyConfig [registerLost second 0] toyWorld)).1 = true ∧
      Pending ((register (11 * second) 200).1.perform toyConfig (register (11 * second) 200).2
        (play toyConfig [registerLost second 0] toyWorld)).2.db "ann@example.com" ∧
      ((register (11 * second) 200).1.perform toyConfig (register (11 * second) 200).2
        (play toyConfig [registerLost second 0] toyWorld)).2.sent = [] := by
    decide +kernel
  refine ⟨?_, hfails, ok_of_acknowledged hanswer, hpending, hsent, ?_⟩
  · simp only [retriedAt, List.forall_mem_cons]
    exact ⟨register_isCodeCall second 0, register_isCodeCall (11 * second) 200,
      fun _ h => nomatch h⟩
  · rintro ⟨⟨ch, hch⟩, hdelivered⟩
    obtain ⟨_, ⟨n, hn, _⟩, _⟩ := hdelivered ch hch
    rw [hsent] at hn
    cases hn

end Delivery
end Service
end OrbitAuth
