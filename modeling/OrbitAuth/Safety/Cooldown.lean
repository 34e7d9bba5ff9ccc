import Mathlib.Data.List.MinMax
import OrbitAuth.Safety.SignupCodes
import OrbitAuth.Service.Requests

/-!
# Cooldown — how often a sign-up code is mailed

The cooldown is not stored.  A registration infers it from the newest challenge of the address, so
it lasts only as long as that challenge does, and it counts from the instant the challenge was
dated, not from the instant its mail went out.

* `mailedTo` — the instants at which a history mails sign-up codes to an address;
* `Guarded` — what keeps the next mail away after a code dated at a given instant;
* `guarded_call` — every call that spends no pending code keeps the guards and mails only where none
  stands;
* `mails_spaced` — if besides no mail is delayed longer than a later one, two mails to one address
  are a cooldown apart.
-/

namespace OrbitAuth
namespace Service
namespace Cooldown

open Domain Foundations Postgres Superseded SignupCodes

variable {tr : List Done} {t : Time}

/-! ## Histories -/

/-- Every call of the history meets `P` in the world it finds. -/
def Throughout (cfg : Config) (P : Call → (Nat → Choice) → World → Prop) : History → World → Prop
  | [], _ => True
  | (call, choices) :: rest, w =>
      P call choices w ∧ Throughout cfg P rest (call.perform cfg choices w).2

theorem throughout_mono {cfg : Config} {P Q : Call → (Nat → Choice) → World → Prop}
    (h : ∀ call choices w, P call choices w → Q call choices w) {history : History} {w : World}
    (hP : Throughout cfg P history w) : Throughout cfg Q history w := by
  induction history generalizing w with
  | nil => trivial
  | cons step rest ih => exact ⟨h _ _ _ hP.1, ih hP.2⟩

instance decidableThroughout (cfg : Config) (P : Call → (Nat → Choice) → World → Prop)
    [∀ call choices w, Decidable (P call choices w)] :
    ∀ (history : History) (w : World), Decidable (Throughout cfg P history w)
  | [], _ => isTrue trivial
  | (_, _) :: rest, _ => @instDecidableAnd _ _ _ (decidableThroughout cfg P rest _)

/-- The sign-up mails of a call. -/
def mailsOf (cfg : Config) (call : Call) (choices : Nat → Choice) (w : World) :
    List (String × Time) :=
  mails ((call.program cfg).trail (exec cfg.env) choices w)

/-- The sign-up mails of a history, in this order. -/
def mailed (cfg : Config) : History → World → List (String × Time)
  | [], _ => []
  | (call, choices) :: rest, w =>
      mailsOf cfg call choices w ++ mailed cfg rest (call.perform cfg choices w).2

/-- The instants of those to one address. -/
def mailedTo (cfg : Config) (history : History) (w : World) (email : String) : List Time :=
  ((mailed cfg history w).filter fun m => m.1 = email).map Prod.snd

/-- `VerifyOTP` presents the code of an address whose account is pending.  The code is spent
although the call is then refused. -/
def spendsPending (cfg : Config) (w : World) : Call → Bool
  | .verifyOTP identifier channel code =>
      trimSpace channel = channelEmail &&
        (w.db.users.rows.any fun r => r.email = some (trimSpace identifier) && r.unverified) &&
        w.db.challenges.rows.any fun ch =>
          ch.addressedTo (trimSpace identifier) channelEmail && cfg.env.compare ch.codeHash code
  | _ => false

/-- What the clock showed when it was last read. -/
def lastReading (tr : List Done) : Time :=
  ((tr.filter fun s => readsClock s.op).map instant).foldr max 0

/-- A sign-up mail: when its call last read the clock, and when it was sent. -/
structure Letter where
  address : String
  read : Time
  sent : Time
  deriving DecidableEq

def Letter.delay (l : Letter) : Time :=
  l.sent - l.read

def lettersOf (cfg : Config) (call : Call) (choices : Nat → Choice) (w : World) : List Letter :=
  (mailsOf cfg call choices w).map fun m =>
    ⟨m.1, lastReading ((call.program cfg).trail (exec cfg.env) choices w), m.2⟩

/-- The mails of `mailed` with these readings. -/
def letters (cfg : Config) : History → World → List Letter
  | [], _ => []
  | (call, choices) :: rest, w =>
      lettersOf cfg call choices w ++ letters cfg rest (call.perform cfg choices w).2

def lettersTo (cfg : Config) (history : History) (w : World) (email : String) : List Letter :=
  (letters cfg history w).filter fun l => l.address = email

theorem mailed_eq (cfg : Config) (history : History) : ∀ w : World,
    mailed cfg history w = (letters cfg history w).map fun l => (l.address, l.sent) := by
  induction history with
  | nil => exact fun _ => rfl
  | cons step rest ih =>
      intro w
      simp [mailed, letters, lettersOf, ih, Function.comp_def]

theorem mailedTo_eq (cfg : Config) (history : History) (w : World) (email : String) :
    mailedTo cfg history w email = (lettersTo cfg history w email).map Letter.sent := by
  rw [mailedTo, mailed_eq, List.filter_map, List.map_map]
  rfl

theorem lastReading_eq (h : LastReading tr t) : lastReading tr = t := by
  obtain ⟨⟨r, hr, hreads, hinstant⟩, hlast⟩ := h
  refine le_antisymm (List.max_le_of_forall_le _ _ fun u hu => ?_) ?_
  · obtain ⟨s, hs, rfl⟩ := List.mem_map.mp hu
    obtain ⟨hs, hclock⟩ := List.mem_filter.mp hs
    exact hlast s hs hclock
  · have hmem : t ∈ (tr.filter fun s => readsClock s.op).map instant :=
      List.mem_map.mpr ⟨r, List.mem_filter.mpr ⟨hr, hreads⟩, hinstant⟩
    exact List.le_max_of_le hmem le_rfl

/-- No call spends the code of a pending account. -/
def Regular (cfg : Config) (call : Call) (_ : Nat → Choice) (w : World) : Prop :=
  spendsPending cfg w call = false

instance (cfg : Config) (call : Call) (choices : Nat → Choice) (w : World) :
    Decidable (Regular cfg call choices w) :=
  inferInstanceAs (Decidable (_ = _))

/-! ## Guards -/

/-- Everybody at the address is verified. -/
def Settled (email : String) (w : World) : Prop :=
  ∀ r ∈ w.db.users, r.email = some email → r.unverified = false

/-- A challenge of the address that dates from `s` or later and outlasts its cooldown. -/
def Covers (email : String) (s : Time) (ch : ChallengeRow) : Prop :=
  ch.addressedTo email channelEmail = true ∧ ch.createdAt ≠ 0 ∧ s ≤ ch.createdAt ∧
    s + signupVerificationCooldown ≤ ch.expiresAt

/-- After a mail at `s`: the address has an account, and it is settled, the cooldown is over or a
challenge still carries it. -/
def Guarded (email : String) (s : Time) (w : World) : Prop :=
  (∃ r ∈ w.db.users, r.email = some email) ∧
    (Settled email w ∨ s + signupVerificationCooldown ≤ w.now ∨
    ∃ ch ∈ w.db.challenges, Covers email s ch)

section Guards

variable {email : String} {s : Time} {w w' : World}

theorem settled_keeps (h : AccountsKeep w.db w'.db)
    (haccount : ∃ r ∈ w.db.users, r.email = some email) (hsettled : Settled email w) :
    Settled email w' :=
  (h email haccount).2 hsettled

theorem covers_same {ch ch' : ChallengeRow} (hsame : sameChallenge ch ch' = true)
    (h : Covers email s ch) :
    Covers email s ch' := by
  rw [sameChallenge_iff] at hsame
  rw [hsame]
  exact h

/-- A guard survives as long as its challenge does, and is not needed after the challenge expires.
-/
theorem guarded_of_kept (hnow : w.now ≤ w'.now) (haccounts : AccountsKeep w.db w'.db)
    (hcodes : ∀ ch ∈ w.db.challenges, ch.addressedTo email channelEmail = true →
      w'.now ≤ ch.expiresAt → ∃ ch' ∈ w'.db.challenges, sameChallenge ch ch' = true)
    (h : Guarded email s w) : Guarded email s w' := by
  obtain ⟨haccount, hguard⟩ := h
  refine ⟨(haccounts email haccount).1, ?_⟩
  rcases hguard with hsettled | hover | ⟨ch, hch, hcovers⟩
  · exact .inl (settled_keeps haccounts haccount hsettled)
  · exact .inr (.inl (hover.trans hnow))
  · rcases le_total w'.now ch.expiresAt with hlive | hexpired
    · obtain ⟨ch', hch', hsame⟩ := hcodes ch hch hcovers.1 hlive
      exact .inr (.inr ⟨ch', hch', covers_same hsame hcovers⟩)
    · exact .inr (.inl (hcovers.2.2.2.trans hexpired))

theorem guarded_quiet (h : Quiet w w') (hg : Guarded email s w) : Guarded email s w' :=
  guarded_of_kept h.now_le h.accounts (fun ch hch _ => h.codes ch hch) hg

/-- Only the cooldown lets a code through for an address that was mailed before. -/
theorem over_of_due (hdue : Due w email t) (hnow : w.now ≤ t) (h : Guarded email s w) :
    s + signupVerificationCooldown ≤ t := by
  obtain ⟨⟨r, hr, hemail⟩, hguard⟩ := h
  rcases hdue with hnone | ⟨⟨p, hp, hpemail, hpending⟩, hcooled⟩
  · exact absurd hemail (hnone r hr)
  · rcases hguard with hsettled | hover | ⟨ch, hch, haddress, hdated, hle, _⟩
    · rw [hsettled p hp hpemail] at hpending
      cases hpending
    · exact hover.trans hnow
    · exact (Nat.add_le_add_right hle _).trans (hcooled ch hch haddress hdated)

/-- A new code takes the place of the challenges of its address and leaves the others. -/
theorem guarded_issued {env : Env} {recipient code : String} {row : ChallengeRow}
    (h : Issued env recipient code w w' row t tr) (hg : Guarded email s w) :
    Guarded email s w' := by
  have hnow : w.now ≤ w'.now := h.after.trans (h.dated.trans h.before)
  by_cases hsame : email = recipient
  · subst hsame
    have hover : s + signupVerificationCooldown ≤ t := over_of_due h.due h.after hg
    exact ⟨h.account, .inr (.inl (hover.trans (h.dated.trans h.before)))⟩
  · refine guarded_of_kept hnow h.accounts (fun ch hch haddress => h.others ch hch ?_) hg
    have hident : ch.identifier = email := of_decide_eq_true (Bool.and_eq_true_iff.mp haddress).1
    simp [ChallengeRow.addressedTo, hident, hsame]

/-- The code that was just mailed guards its address. -/
theorem guarded_mailed {env : Env} {code : String} {row : ChallengeRow}
    (h : Issued env email code w w' row t tr) (hs : s ≤ t) : Guarded email s w' := by
  refine ⟨h.account, .inr (.inr ⟨row, h.stored, h.address, h.created, hs.trans h.dated, ?_⟩)⟩
  rw [h.expiresAt]
  exact Nat.add_le_add hs (by decide)

end Guards

/-! ## Verifications -/

/-- Since `w₀` at most challenges of one address were lost. -/
structure Spent (identifier channel : String) (w₀ w : World) : Prop where
  now_le : w₀.now ≤ w.now
  accounts : AccountsKeep w₀.db w.db
  others : ∀ ch ∈ w₀.db.challenges, ch.addressedTo identifier channel = false →
    w.now ≤ ch.expiresAt →
    ∃ ch' ∈ w.db.challenges, sameChallenge ch ch' = true

section Verifications

variable {cfg : Config} {env : Env} {identifier channel code : String} {w₀ w w' : World}
  {tr : List Done}

theorem spent_quiet (h : Spent identifier channel w₀ w) (h' : Quiet w w') :
    Spent identifier channel w₀ w' := by
  refine ⟨h.now_le.trans h'.now_le, accountsKeep_trans h.accounts h'.accounts, ?_⟩
  intro ch hch haddress hexpires
  obtain ⟨ch₁, hch₁, hsame₁⟩ := h.others ch hch haddress (h'.now_le.trans hexpires)
  have hexpires₁ : w'.now ≤ ch₁.expiresAt := by
    rw [sameChallenge_iff.mp hsame₁]
    exact hexpires
  obtain ⟨ch₂, hch₂, hsame₂⟩ := h'.codes ch₁ hch₁ hexpires₁
  exact ⟨ch₂, hch₂, sameChallenge_trans hsame₁ hsame₂⟩

/-- A mild rest of a call. -/
theorem ends_mild {ok : Port → Choice → World → Prop} {α : Type} {p : Action α}
    (hp : p.Uses fun o => mild o = true) (w : World) (tr : List Done) :
    p.Ends (exec env) ok (fun _ w' _ => Quiet w w') w tr :=
  ends_of_uses (I := fun w' _ => Quiet w w')
    (fun _ c w' _ ho _ h => quiet_trans h (exec_quiet ho c w')) hp w tr (quiet_refl w)

/-- The code belongs to a stored challenge of the address. -/
def Matched (env : Env) (identifier channel code : String) (w : World) (ch : OTPChallenge) : Prop :=
  ∃ r ∈ w.db.challenges, r.addressedTo identifier channel = true ∧ ch.id = r.id.string ∧
    env.compare r.codeHash code = true

/-- `matchChallenge` finds a challenge with the code, or at most counts an attempt. -/
theorem matchChallenge_ends (identifier channel code : String) (w : World) (tr : List Done) :
    (matchChallenge cfg identifier channel code).Ends (exec cfg.env) OnlySendsFail (fun res w' _ =>
      Quiet w w' ∧ ∀ ch t, res = .ok (ch, t) → w'.db = w.db ∧
        Matched cfg.env identifier channel code w ch) w tr := by
  have hfails : ∀ {e : Err} {w' : World}, Quiet w w' → Quiet w w' ∧ ∀ ch t,
      (Except.error e : Except Err (OTPChallenge × Time)) = .ok (ch, t) → w'.db = w.db ∧
        Matched cfg.env identifier channel code w ch :=
    fun h => ⟨h, fun _ _ hres => (nomatch hres)⟩
  -- the lookup reads a challenge of the address and changes nothing
  refine ends_bind (M := fun res w₁ _ => Quiet w w₁ ∧ w₁.db = w.db ∧ ∀ ch, res = .ok ch →
      ∃ r ∈ w.db.challenges, r.addressedTo identifier channel = true ∧ ch.id = r.id.string ∧
        ch.codeHash = r.codeHash) ?_ ?_
    fun _ _ _ h => hfails h.1
  · refine ends_passes (passes_storeOr _ (.getLatestChallenge identifier channel)) ?_ ?_
    · intro c ch _ hf hok
      have hreads : (stored cfg.env (.getLatestChallenge identifier channel) c w).db = w.db :=
        Store.exec_reads rfl _ _ _ _
      have hquiet :
          Quiet w (exec cfg.env (.store (.getLatestChallenge identifier channel)) c w).2 :=
        exec_quiet rfl c w
      rw [exec_store_runs cfg.env _ hf] at hquiet
      refine ⟨hquiet, hreads, fun ch' hres => ?_⟩
      cases hres
      rw [Store.exec_getLatestChallenge, Store.found_eq_ok, Option.map_eq_some_iff] at hok
      obtain ⟨r, hr, rfl⟩ := hok
      have hstored := (List.mem_filter.mp (mem_of_limitOne hr)).1
      exact ⟨r, (mem_select.mp hstored).1, (mem_select.mp hstored).2, rfl, rfl⟩
    · exact fun c _ _ _ _ => ⟨quiet_advance w c.now, rfl, fun _ hres => (nomatch hres)⟩
  rintro ch w₁ tr₁ ⟨h₁, hdb₁, hfound⟩
  obtain ⟨r, hr, haddress, hid, hhash⟩ := hfound ch rfl
  refine ends_bind (M := fun _ w₂ _ => Quiet w w₂ ∧ w₂.db = w.db) ?_ ?_ fun _ _ _ h => hfails h.1
  · exact ends_now fun c _ => ⟨quiet_trans h₁ (quiet_advance w₁ c.now), hdb₁⟩
  rintro t w₂ tr₂ ⟨h₂, hdb₂⟩
  -- the two checks, of the expiry and of the attempts
  have hcheck : ∀ {c : Bool} {e : Err}
      {tr' : List Done}, (failIf c e).Ends (exec cfg.env) OnlySendsFail (fun _ w' _ => w' = w₂) w₂
        tr' := ends_failIf (fun _ => rfl) fun _ => rfl
  refine ends_bind hcheck ?_ fun _ _ _ h => hfails (h ▸ h₂)
  rintro _ _ tr₃ rfl
  refine ends_bind hcheck ?_ fun _ _ _ h => hfails (h ▸ h₂)
  rintro _ w₂ tr₄ rfl
  split
  · rename_i hcompare
    refine .done ⟨h₂, fun ch' t' hres => ?_⟩
    cases hres
    exact ⟨hdb₂, r, hr, haddress, hid, hhash ▸ hcompare⟩
  -- a wrong code counts an attempt, which leaves accounts and codes as they are
  · refine ends_bind (ends_mild (uses_ignore rfl) w₂ tr₄) ?_ fun _ _ _ h =>
      hfails (quiet_trans h₂ h)
    exact fun _ _ _ h => .fail (hfails (quiet_trans h₂ h))

/-- Consuming a matched challenge spends a code of its address only. -/
theorem spent_consumed {ch : OTPChallenge} {c : Choice} (h : Quiet w₀ w) (hdb : w.db = w₀.db)
    (hmatched : Matched env identifier channel code w₀ ch) :
    Spent identifier channel w₀ (stored env (.consumeChallenge ch.id) c w) ∧
      (stored env (.consumeChallenge ch.id) c w).db.users = w₀.db.users := by
  obtain ⟨r, hr, haddress, hid, _⟩ := hmatched
  have hparse : Uuid.parse ch.id = some r.id := by rw [hid, Uuid.parse_string]
  have hstored : (stored env (.consumeChallenge ch.id) c w).db =
      w₀.db.apply (.delChallenge r.id) := by
    rw [← hdb]
    exact congrArg Prod.snd (Store.exec_consumeChallenge hparse)
  have husers : (stored env (.consumeChallenge ch.id) c w).db.users = w₀.db.users := by
    rw [hstored]
    rfl
  refine ⟨⟨h.now_le.trans (le_max_left _ _), accountsKeep_of_same husers, ?_⟩, husers⟩
  intro s hs hother _
  refine ⟨s, ?_, sameChallenge_self s⟩
  rw [hstored]
  refine mem_erase.mpr ⟨hs, fun hkey => ?_⟩
  -- the erased row is of the address
  rw [eq_of_key hs hr hkey, haddress] at hother
  cases hother

theorem silent_mild : Silent fun o => mild o = true := by
  intro o ho _
  cases o with
  | store o => cases o <;> first | rfl | cases ho
  | _ => rfl

theorem mild_issueTokens (userID : String) : (issueTokens cfg userID).Uses fun o => mild o = true :=
  uses_issueTokens silent_mild (fun _ _ => rfl) fun _ _ _ => rfl

theorem check_ends {ok : Port → Choice → World → Prop} (c : Bool) (e : Err) (w : World)
    (tr : List Done) :
    (failIf c e).Ends (exec env) ok (fun _ w' _ => w' = w) w tr :=
  ends_failIf (fun _ => rfl) fun _ => rfl

/-- The challenge is consumed, or nothing has happened. -/
theorem consume_ends {ch : OTPChallenge} (h : Quiet w₀ w) (hdb : w.db = w₀.db)
    (hmatched : Matched env identifier channel code w₀ ch) :
    (store (.consumeChallenge ch.id)).Ends (exec env) OnlySendsFail (fun res w' _ =>
      (res = .ok () → Spent identifier channel w₀ w' ∧ w'.db.users = w₀.db.users) ∧
        ∀ e, res = .error e → Quiet w₀ w') w tr := by
  refine ends_passes (passes_store (.consumeChallenge ch.id)) ?_ ?_
  · exact fun c _ _ _ _ => ⟨fun _ => spent_consumed h hdb hmatched, fun _ hres => (nomatch hres)⟩
  · exact fun c _ _ _ _ => ⟨fun hres => (nomatch hres), fun _ _ => quiet_trans h
      (quiet_advance w c.now)⟩

/-- `VerifyOTP` spends a code only after it was presented. -/
theorem verifyOTP_ends (identifier channel code : String) (w : World) :
    (verifyOTP cfg identifier channel code).Ends (exec cfg.env) OnlySendsFail (fun _ w' _ =>
      Quiet w w' ∨ Spent (trimSpace identifier) (trimSpace channel) w w' ∧
        ∃ ch, Matched cfg.env (trimSpace identifier) (trimSpace channel) code w ch) w [] := by
  refine ends_bind (check_ends _ _ w []) ?_ fun _ _ _ h => .inl (h ▸ quiet_refl w)
  rintro _ _ tr₁ rfl
  refine ends_bind (matchChallenge_ends _ _ code _ tr₁) ?_ fun _ _ _ h => .inl h.1
  rintro ⟨ch, t⟩ w₂ tr₂ ⟨h₂, hfound⟩
  obtain ⟨hdb₂, hmatched⟩ := hfound ch t rfl
  refine ends_bind (consume_ends h₂ hdb₂ hmatched) ?_ fun e _ _ h => .inl (h.2 e rfl)
  rintro _ w₃ tr₃ ⟨hspent, _⟩
  refine ends_mono ?_ (ends_mild ?_ w₃ tr₃)
  · exact fun _ _ _ h => .inr ⟨spent_quiet (hspent rfl).1 h, ch, hmatched⟩
  · refine uses_bind (uses_findOrCreate silent_mild (fun _ => rfl) (fun _ => rfl) _ _)
      fun user => ?_
    exact uses_bind (uses_failIf _ _) fun _ => mild_issueTokens user.id

/-- The account `VerifySignup` has found is pending. -/
theorem matchSignup_ends (ch : OTPChallenge) (email password : String) (w : World)
    (tr : List Done) :
    (matchSignup cfg ch email password).Ends (exec cfg.env) OnlySendsFail (fun res w' _ =>
      Quiet w w' ∧ ∀ user, res = .ok user → w'.db = w.db ∧
        ∃ r ∈ w.db.users, r.email = some email ∧ r.unverified = true ∧
        user.id = r.id.string) w tr := by
  -- every rejection counts an attempt and fails
  have hreject : ∀ (w' : World) (tr' : List Done), Quiet w w' →
      (rejectSignup ch).Ends (exec cfg.env) OnlySendsFail (fun res w'' _ => Quiet w w'' ∧
        ∀ user, res = .ok user → w''.db = w.db ∧ ∃ r ∈ w.db.users, r.email = some email ∧
          r.unverified = true ∧ user.id = r.id.string) w' tr' := by
    intro w' tr' h
    refine ends_bind (ends_mild (uses_ignore rfl) w' tr') ?_ fun _ _ _ h' =>
      ⟨quiet_trans h h', fun _ hres => (nomatch hres)⟩
    exact fun _ _ _ h' => .fail ⟨quiet_trans h h', fun _ hres => (nomatch hres)⟩
  refine ends_bind (M := fun res w₁ _ => Quiet w w₁ ∧ w₁.db = w.db ∧ ∀ user, res = .ok (.ok user) →
      ∃ r ∈ w.db.users, r.email = some email ∧ user = r.user) ?_ ?_ fun _ _ _ h =>
        ⟨h.1, fun _ hres => (nomatch hres)⟩
  · refine ends_tryStore ?_ ?_
    · intro c user _ hf hok
      have hreads : (stored cfg.env (.findByEmail email) c w).db = w.db :=
        Store.exec_reads rfl _ _ _ _
      refine ⟨⟨le_max_left _ _, accountsKeep_of_same (congrArg DB.users hreads),
        codesKeep_of_same (congrArg DB.challenges hreads) _⟩, hreads, fun user' hres => ?_⟩
      cases hres
      exact Store.exec_findByEmail_ok hok
    · exact fun c _ _ _ => ⟨quiet_advance w c.now, rfl, fun _ hres => (nomatch hres)⟩
  rintro res w₁ tr₁ ⟨h₁, hdb₁, hfound⟩
  cases res with
  | error e => exact hreject w₁ tr₁ h₁
  | ok user =>
      obtain ⟨r, hr, hemail, huser⟩ := hfound user rfl
      dsimp only
      split
      · exact hreject w₁ tr₁ h₁
      · rename_i hpending
        refine .done ⟨h₁, fun user' hres => ?_⟩
        cases hres
        have hstatus : r.status = .signupPending ∧ r.emailVerifiedAt.isSome = false := by
          simp only [huser, UserRow.user, Bool.or_eq_true, not_or, Bool.not_eq_true] at hpending
          exact ⟨not_not.mp (of_decide_eq_false hpending.1.1.1), hpending.1.1.2⟩
        refine ⟨hdb₁, r, hr, hemail, ?_, by rw [huser]; rfl⟩
        simp [UserRow.unverified, hstatus.1, Option.isSome_eq_false_iff.mp hstatus.2]

/-- Verifying the one pending account of an address settles it. -/
theorem exec_verifySignup_settles {db : DB} {email : String} {r : UserRow} (hint : ∀ s ∈ db.users,
      ∀ s' ∈ db.users, ∀ e, s.email = some e → s'.email = some e → s = s') (hr : r ∈ db.users)
    (hemail : r.email = some email) (hunverified : r.unverified = true) (now : Time)
    (id : Uuid) (pick : Nat) (t : Time) :
    ((Store.Op.verifySignup r.id.string t).exec env now id pick db).1 = .ok () ∧
      ∀ s ∈ ((Store.Op.verifySignup r.id.string t).exec env now id pick db).2.users,
        s.email = some email → s.unverified = false := by
  have hwith : r.unverifiedWith r.id = true :=
    Bool.and_eq_true_iff.mpr ⟨decide_eq_true rfl, hunverified⟩
  rw [Store.exec_verifySignup_of_pending hr hunverified]
  refine ⟨rfl, fun s hs hsemail => ?_⟩
  rcases (mem_update (key_activated _ _)).mp hs with ⟨s', _, _, rfl⟩ | ⟨hs, hother⟩
  · rfl
  · -- another account of the address would be this one
    rw [hint s hs r hr email hsemail hemail, hwith] at hother
    cases hother

/-- `VerifySignup` spends a code only to settle its address. -/
theorem verifySignup_ends (email code password : String) (w : World) (hint : w.db.Integrity) :
    (verifySignup cfg email code password).Ends (exec cfg.env) OnlySendsFail (fun _ w' _ =>
      Quiet w w' ∨ Spent (cfg.env.normalizeEmail email) channelEmail w w' ∧
        Settled (cfg.env.normalizeEmail email) w') w [] := by
  refine ends_bind (check_ends _ _ w []) ?_ fun _ _ _ h => .inl (h ▸ quiet_refl w)
  rintro _ _ tr₁ rfl
  refine ends_bind (check_ends _ _ _ tr₁) ?_ fun _ _ _ h => .inl (h ▸ quiet_refl _)
  rintro _ w tr₂ rfl
  refine ends_bind (matchChallenge_ends _ _ (trimSpace code) w tr₂) ?_ fun _ _ _ h => .inl h.1
  rintro ⟨ch, t⟩ w₃ tr₃ ⟨h₃, hfound⟩
  obtain ⟨hdb₃, hmatched⟩ := hfound ch t rfl
  refine ends_bind (matchSignup_ends ch (cfg.env.normalizeEmail email) password w₃ tr₃) ?_
    fun _ _ _ h => .inl (quiet_trans h₃ h.1)
  rintro user w₄ tr₄ ⟨h₄, huser⟩
  obtain ⟨hdb₄, r, hr, hemail, hunverified, hid⟩ := huser user rfl
  rw [hdb₃] at hr
  refine ends_bind (consume_ends (quiet_trans h₃ h₄) (hdb₄.trans hdb₃) hmatched) ?_
    fun e _ _ h => .inl (h.2 e rfl)
  rintro _ w₅ tr₅ ⟨hspent, _⟩
  obtain ⟨hspent, husers⟩ := hspent rfl
  have hunique : ∀ s ∈ w₅.db.users, ∀ s' ∈ w₅.db.users, ∀ e, s.email = some e →
      s'.email = some e → s = s' := by
    rw [husers]
    exact hint.email
  have haccount : ∃ r ∈ w₅.db.users, r.email = some (cfg.env.normalizeEmail email) :=
    ⟨r, husers ▸ hr, hemail⟩
  refine ends_bind (M := fun _ w₆ _ => Quiet w₅ w₆ ∧
    Settled (cfg.env.normalizeEmail email) w₆) ?_ ?_
    fun _ _ _ h => .inr ⟨spent_quiet hspent h.1, h.2⟩
  · rw [hid]
    refine ends_passes (passes_storeMapping _ _ (.verifySignup r.id.string t)) ?_ ?_
    · intro c _ _ hf _
      exact ⟨quiet_stored rfl hf,
        (exec_verifySignup_settles hunique (husers ▸ hr) hemail hunverified _ _ _ t).2⟩
    · -- the account was found pending, so the update gets through
      intro c e _ hc herr
      have hok : ((Store.Op.verifySignup r.id.string t).exec cfg.env (max w₅.now c.now) c.id c.pick
          w₅.db).1 = .ok () :=
        (exec_verifySignup_settles hunique (husers ▸ hr) hemail hunverified _ _ _ t).1
      rw [herr (Bool.eq_false_iff.mpr (not_fails hc nofun))] at hok
      cases hok
  · rintro _ w₆ tr₆ ⟨h₆, hsettled⟩
    refine ends_mono ?_ (ends_mild (mild_issueTokens user.id) w₆ tr₆)
    intro _ w₇ _ h₇
    refine .inr ⟨spent_quiet hspent (quiet_trans h₆ h₇), ?_⟩
    exact settled_keeps h₇.accounts (h₆.accounts _ haccount).1 hsettled

end Verifications

/-! ## Calls -/

section Calls

variable {cfg : Config} {call : Call} {choices : Nat → Choice} {w : World}
  {email : String} {s : Time}

/-- No dependency fails. -/
def Works (choices : Nat → Choice) : Prop :=
  ∀ n, (choices n).fails = false

/-- Of the dependencies the call uses, only the notifier fails. -/
def NotifierOnly (cfg : Config) (call : Call) (choices : Nat → Choice) (w : World) : Prop :=
  ∀ d ∈ (call.program cfg).trail (exec cfg.env) choices w, OnlySendsFail d.op d.choice d.world

theorem trail_works (hworks : Works choices) :
    ∀ d ∈ (call.program cfg).trail (exec cfg.env) choices w, d.choice.fails = false := by
  intro d hd
  obtain ⟨n, hn⟩ := trail_choices (call.program cfg) choices w d hd
  rw [hn]
  exact hworks n

theorem notifierOnly_of_works (hworks : Works choices) : NotifierOnly cfg call choices w := by
  intro d hd hf
  rw [trail_works hworks d hd] at hf
  cases hf

/-- What a call has done when it is over. -/
theorem perform_ends (cfg : Config) (call : Call)
    {post : Except Err Reply → World → List Done → Prop} (hfails : NotifierOnly cfg call choices w)
    (h : (call.program cfg).Ends (exec cfg.env) OnlySendsFail post w []) :
    post (call.perform cfg choices w).1 (call.perform cfg choices w).2
      ((call.program cfg).trail (exec cfg.env) choices w) :=
  ends_run h choices hfails

/-- A registration that is over. -/
theorem registration_ends {email password displayName locale orgName inviteToken : String}
    (hcall : call = .registerWithEmail email password displayName locale orgName inviteToken)
    (hint : w.db.Integrity) (hfails : NotifierOnly cfg call choices w) :
    ∃ res, (call.perform cfg choices w).1 = res.map (fun _ => Reply.none) ∧
      Registered cfg.env (cfg.env.normalizeEmail email) (decide (trimSpace inviteToken ≠ "")) w res
        (call.perform cfg choices w).2 ((call.program cfg).trail (exec cfg.env) choices w) := by
  have hends : (call.program cfg).Ends (exec cfg.env) OnlySendsFail (fun out w' tr' => ∃ res,
      out = res.map (fun _ => Reply.none) ∧ Registered cfg.env (cfg.env.normalizeEmail email)
        (decide (trimSpace inviteToken ≠ "")) w res w' tr') w [] := by
    subst hcall
    refine ends_map (ends_mono ?_
      (registerWithEmail_ends cfg email password displayName locale orgName inviteToken hint))
    exact fun res _ _ h => ⟨res, rfl, h⟩
  exact perform_ends cfg call hfails hends

/-- What keeps the guards and mails nothing. -/
def Harmless (cfg : Config) (call : Call) (choices : Nat → Choice) (w : World) : Prop :=
  mailsOf cfg call choices w = [] ∧
    ∀ email s, Guarded email s w → Guarded email s (call.perform cfg choices w).2

theorem mails_of_uses {α : Type} {p : Action α} (hp : p.Uses fun o => signupMail? o = none) :
    p.Ends (exec cfg.env) OnlySendsFail (fun _ _ tr => mails tr = []) w [] :=
  ends_of_uses (I := fun _ tr => mails tr = [])
    (fun _ c w tr ho _ h => (mails_snoc ho tr c w).trans h) hp w [] rfl

theorem silent_unmailed : Silent fun o => signupMail? o = none := by
  intro o _ hsend
  cases o with
  | send n => exact absurd rfl (hsend n)
  | _ => rfl

theorem requestOTP_harmless (hworks : Works choices) (identifier channel correlationID : String) :
    Harmless cfg (.requestOTP identifier channel correlationID) choices w := by
  have huses : ∀ {allowed : Port → Prop}, Silent allowed →
      (∀ ch, allowed (.store (.upsertChallenge ch))) →
      (∀ channel identifier code id, allowed (.send (.otp channel identifier code id))) →
      (requestOTP identifier channel correlationID).Uses allowed := by
    intro allowed h hput hsend
    refine uses_bind (uses_failIf _ _) fun _ => ?_
    refine uses_bind (uses_requireChannel h _ _) fun _ => ?_
    refine uses_bind (uses_newOTPChallenge h hput _ _) fun res => ?_
    exact uses_bind (uses_send (hsend _ _ _ _)) fun _ => .done _
  have hunmailed : ((Call.requestOTP identifier channel correlationID).program cfg).Uses
      fun o => signupMail? o = none :=
    uses_map (huses silent_unmailed (fun _ => rfl) fun _ _ _ _ => rfl) _
  have hmild : ((Call.requestOTP identifier channel correlationID).program cfg).Uses
      fun o => mild o = true :=
    uses_map (huses silent_mild (fun _ => rfl) fun _ _ _ _ => rfl) _
  have hquiet := perform_ends cfg _ (notifierOnly_of_works hworks) (ends_mild hmild w [])
  exact ⟨perform_ends cfg _ (notifierOnly_of_works hworks) (mails_of_uses hunmailed),
    fun _ _ => guarded_quiet hquiet⟩

/-- Spending a code of one address leaves the guards of the others. -/
theorem guarded_spent {identifier channel : String} {w' : World} (h : Spent identifier channel w w')
    (hother : email = identifier → channel = channelEmail → Settled email w')
    (hg : Guarded email s w) :
    Guarded email s w' := by
  by_cases hsame : email = identifier ∧ channel = channelEmail
  · exact ⟨(h.accounts email hg.1).1, .inl (hother hsame.1 hsame.2)⟩
  · refine guarded_of_kept h.now_le h.accounts (fun ch hch haddress => h.others ch hch ?_) hg
    obtain ⟨hident, hchannel⟩ := Bool.and_eq_true_iff.mp haddress
    have hident : ch.identifier = email := of_decide_eq_true hident
    have hchannel : ch.channel = channelEmail := of_decide_eq_true hchannel
    rw [ChallengeRow.addressedTo, hident, hchannel, Bool.and_eq_false_iff]
    by_cases heq : email = identifier
    · exact .inr (decide_eq_false fun h => hsame ⟨heq, h.symm⟩)
    · exact .inl (decide_eq_false heq)

/-- Without a pending account at the address a spent code cools nothing down. -/
theorem settled_of_keeps {identifier channel code : String} {ch : OTPChallenge}
    (hkeeps : spendsPending cfg w (.verifyOTP identifier channel code) = false)
    (hmatched : Matched cfg.env (trimSpace identifier) (trimSpace channel) code w ch)
    (hchannel : trimSpace channel = channelEmail) : Settled (trimSpace identifier) w := by
  obtain ⟨r, hr, haddress, _, hcompare⟩ := hmatched
  intro p hp hemail
  cases hunverified : p.unverified with
  | false => rfl
  | true =>
      have husers :
        (w.db.users.rows.any fun r => r.email = some (trimSpace identifier) && r.unverified) =
          true := List.any_eq_true.mpr ⟨p, hp, by simp [hemail, hunverified]⟩
      have hcodes :
          (w.db.challenges.rows.any fun ch => ch.addressedTo (trimSpace identifier) channelEmail &&
            cfg.env.compare ch.codeHash code) = true :=
        List.any_eq_true.mpr ⟨r, hr, Bool.and_eq_true_iff.mpr ⟨hchannel ▸ haddress, hcompare⟩⟩
      simp only [spendsPending, hchannel, husers, hcodes, decide_true, Bool.and_self] at hkeeps
      cases hkeeps

theorem verifyOTP_harmless (hworks : Works choices) {identifier channel code : String}
    (hkeeps : spendsPending cfg w (.verifyOTP identifier channel code) = false) :
    Harmless cfg (.verifyOTP identifier channel code) choices w := by
  have hunmailed : ((Call.verifyOTP identifier channel code).program cfg).Uses
      fun o => signupMail? o = none :=
    uses_map (uses_verifyOTP silent_unmailed (fun _ _ => rfl) (fun _ => rfl) (fun _ => rfl)
      (fun _ => rfl) (fun _ _ _ => rfl) fun _ _ _ _ => rfl) _
  have hends :
      ((Call.verifyOTP identifier channel code).program cfg).Ends (exec cfg.env) OnlySendsFail
        (fun _ w' _ => Quiet w w' ∨ Spent (trimSpace identifier) (trimSpace channel) w w' ∧
        ∃ ch, Matched cfg.env (trimSpace identifier) (trimSpace channel) code w ch) w [] :=
    ends_map (verifyOTP_ends identifier channel code w)
  refine ⟨perform_ends cfg _ (notifierOnly_of_works hworks) (mails_of_uses hunmailed),
    fun email s hg => ?_⟩
  rcases perform_ends cfg _ (notifierOnly_of_works hworks) hends
    with hquiet | ⟨hspent, ch, hmatched⟩
  · exact guarded_quiet hquiet hg
  · refine guarded_spent hspent (fun hemail hchannel => ?_) hg
    subst hemail
    exact settled_keeps hspent.accounts hg.1 (settled_of_keeps hkeeps hmatched hchannel)

theorem verifySignup_harmless (hworks : Works choices) (hint : w.db.Integrity)
    (email code password : String) :
    Harmless cfg (.verifySignup email code password) choices w := by
  have hunmailed : ((Call.verifySignup email code password).program cfg).Uses
      fun o => signupMail? o = none :=
    uses_map (uses_verifySignup silent_unmailed (fun _ => rfl) (fun _ => rfl) (fun _ _ => rfl)
      (fun _ _ _ => rfl) fun _ _ _ _ => rfl) _
  have hends :
      ((Call.verifySignup email code password).program cfg).Ends (exec cfg.env) OnlySendsFail
        (fun _ w' _ => Quiet w w' ∨ Spent (cfg.env.normalizeEmail email) channelEmail w w' ∧
        Settled (cfg.env.normalizeEmail email) w') w [] :=
    ends_map (verifySignup_ends email code password w hint)
  refine ⟨perform_ends cfg _ (notifierOnly_of_works hworks) (mails_of_uses hunmailed),
    fun address s hg => ?_⟩
  rcases perform_ends cfg _ (notifierOnly_of_works hworks) hends with hquiet | ⟨hspent, hsettled⟩
  · exact guarded_quiet hquiet hg
  · exact guarded_spent hspent (fun hemail _ => hemail ▸ hsettled) hg

/-- What a regular call does: it keeps the guards, and it mails at most one code, where no guard
stands and to raise one. -/
structure Spaces (cfg : Config) (call : Call) (choices : Nat → Choice) (w : World) : Prop where
  keeps : ∀ email s, Guarded email s w → Guarded email s (call.perform cfg choices w).2
  letters : lettersOf cfg call choices w = [] ∨ ∃ l, lettersOf cfg call choices w = [l] ∧
    l.read ≤ l.sent ∧ Guarded l.address l.read (call.perform cfg choices w).2 ∧
    ∀ s, Guarded l.address s w → s + signupVerificationCooldown ≤ l.read

theorem spaces_of_harmless (h : Harmless cfg call choices w) : Spaces cfg call choices w :=
  ⟨h.2, .inl (by rw [lettersOf, h.1]; rfl)⟩

/-- A registration, from how it ended. -/
theorem registered_spaces {env : Env} {invited : Bool} {w' : World} {res : Except Err Unit}
    (h : Registered env email invited w res w' tr) (hworks : ∀ d ∈ tr, d.choice.fails = false) :
    (∀ address s, Guarded address s w → Guarded address s w') ∧
      (mails tr = [] ∨ ∃ u, mails tr = [(email, u)] ∧ lastReading tr ≤ u ∧
        Guarded email (lastReading tr) w' ∧
        ∀ s, Guarded email s w → s + signupVerificationCooldown ≤ lastReading tr) := by
  cases h with
  | calm hcalm _ => exact ⟨fun _ _ => guarded_quiet hcalm.quiet, .inl hcalm.mails⟩
  | @mailed code locale userID w₁ row t tr c hissued hf =>
      -- sending changes neither accounts nor challenges
      have hsent : Quiet w₁ { w₁.advance c.now with
          sent := w₁.sent ++ [.signupVerification email code otpTTLMinutes locale userID] } :=
        ⟨le_max_left _ _, accountsKeep_refl _, codesKeep_of_same rfl _⟩
      rw [lastReading_eq (lastReading_snoc rfl hissued.reading)]
      refine ⟨fun _ _ hg => guarded_quiet hsent (guarded_issued hissued hg),
        .inr ⟨max w₁.now c.now, ?_, ?_, ?_, ?_⟩⟩
      · rw [mails_append, hissued.mails, List.nil_append]
        rfl
      · exact (hissued.dated.trans hissued.before).trans (le_max_left _ _)
      · exact guarded_quiet hsent (guarded_mailed hissued le_rfl)
      · exact fun s => over_of_due hissued.due hissued.after
  | unsent _ hf =>
      have hworked := hworks _ (List.mem_append_right _ (List.mem_singleton_self _))
      rw [hf] at hworked
      cases hworked

theorem registration_spaces (hworks : Works choices) (hint : w.db.Integrity)
    (email password displayName locale orgName inviteToken : String) :
    Spaces cfg (.registerWithEmail email password displayName locale orgName inviteToken)
      choices w := by
  generalize hcall :
    Call.registerWithEmail email password displayName locale orgName inviteToken = call
  obtain ⟨res, _, hregistered⟩ :=
    registration_ends hcall.symm hint (notifierOnly_of_works hworks)
  obtain ⟨hkeeps, hmails⟩ := registered_spaces hregistered (trail_works hworks)
  have hletters : lettersOf cfg call choices w =
      (mails ((call.program cfg).trail (exec cfg.env) choices w)).map fun m =>
        ⟨m.1, lastReading ((call.program cfg).trail (exec cfg.env) choices w), m.2⟩ := rfl
  refine ⟨hkeeps, ?_⟩
  rw [hletters]
  generalize (call.program cfg).trail (exec cfg.env) choices w = tr at hmails ⊢
  rcases hmails with hnone | ⟨u, hone, hle, hguarded, hover⟩
  · exact .inl (by rw [hnone]; rfl)
  · refine .inr ⟨⟨_, lastReading tr, u⟩, ?_, hle, hguarded, hover⟩
    rw [hone]
    rfl

/-- Every regular call keeps the guards and mails only where none stands. -/
theorem guarded_call (hcall : IsCodeCall call) (hworks : Works choices) (hint : w.db.Integrity)
    (hregular : Regular cfg call choices w) : Spaces cfg call choices w := by
  cases hcall with
  | request identifier channel correlationID =>
      exact spaces_of_harmless (requestOTP_harmless hworks identifier channel correlationID)
  | register => exact registration_spaces hworks hint _ _ _ _ _ _
  | verification h =>
      cases h with
      | otp identifier channel code => exact spaces_of_harmless (verifyOTP_harmless hworks hregular)
      | signup email code password =>
          exact spaces_of_harmless (verifySignup_harmless hworks hint email code password)

end Calls

/-! ## Runs -/

section Runs

variable {cfg : Config}

/-- The readings of the mails are spaced among themselves and from every guard that stood at the
start. -/
theorem spaced_run (email : String) (history : History) :
    ∀ w : World, (∀ step ∈ history, IsCodeCall step.1) → (∀ step ∈ history, Works step.2) →
      w.db.Integrity → Throughout cfg (Regular cfg) history w →
      (lettersTo cfg history w email).Pairwise
          (fun l l' => l.read + signupVerificationCooldown ≤ l'.read) ∧
        (∀ l ∈ lettersTo cfg history w email, l.read ≤ l.sent) ∧
        ∀ s, Guarded email s w →
          ∀ l ∈ lettersTo cfg history w email, s + signupVerificationCooldown ≤ l.read := by
  induction history with
  | nil =>
      intro w _ _ _ _
      simp [lettersTo, letters]
  | cons step rest ih =>
      rcases step with ⟨call, choices⟩
      intro w hcalls hworks hint hregular
      obtain ⟨hcall, hcalls⟩ := List.forall_mem_cons.mp hcalls
      obtain ⟨hwork, hworks⟩ := List.forall_mem_cons.mp hworks
      have hspaces := guarded_call hcall hwork hint hregular.1
      have hint' := perform_integrity cfg call choices hint
      obtain ⟨hpairwise, hsent, hguards⟩ := ih _ hcalls hworks hint' hregular.2
      have hlater : ∀ s, Guarded email s w →
          ∀ l ∈ lettersTo cfg rest (call.perform cfg choices w).2 email,
            s + signupVerificationCooldown ≤ l.read :=
        fun s hg => hguards s (hspaces.keeps email s hg)
      have happend : lettersTo cfg ((call, choices) :: rest) w email =
          ((lettersOf cfg call choices w).filter fun l => l.address = email) ++
            lettersTo cfg rest (call.perform cfg choices w).2 email := by
        simp [lettersTo, letters]
      rw [happend]
      -- a call mails nobody or one address, and that one is guarded from then on
      rcases hspaces.letters with hnone | ⟨l, hone, hle, hguarded, hover⟩
      · rw [hnone]
        exact ⟨hpairwise, hsent, hlater⟩
      · rw [hone]
        by_cases haddress : l.address = email
        · subst haddress
          simp only [List.filter_cons_of_pos, decide_true, List.filter_nil, List.cons_append,
            List.nil_append]
          refine ⟨List.pairwise_cons.mpr ⟨hguards l.read hguarded, hpairwise⟩,
            List.forall_mem_cons.mpr ⟨hle, hsent⟩, fun s hg => ?_⟩
          exact List.forall_mem_cons.mpr ⟨hover s hg, hlater s hg⟩
        · have hother : ([l].filter fun l => l.address = email) = [] := by simp [haddress]
          rw [hother]
          exact ⟨hpairwise, hsent, hlater⟩

/-- In a regular history without failing dependencies, two sign-up mails to one address are at least
the cooldown apart, if no mail to it is delayed longer than a later one. -/
theorem mails_spaced {history : History} {w : World}
    (hcalls : ∀ step ∈ history, IsCodeCall step.1) (hworks : ∀ step ∈ history, Works step.2)
    (hint : w.db.Integrity) (hregular : Throughout cfg (Regular cfg) history w) (email : String)
    (hdelays : (lettersTo cfg history w email).Pairwise fun l l' => l.delay ≤ l'.delay) :
    (mailedTo cfg history w email).Pairwise fun s u => s + signupVerificationCooldown ≤ u := by
  obtain ⟨hspaced, hsent, _⟩ := spaced_run email history w hcalls hworks hint hregular
  rw [mailedTo_eq, List.pairwise_map]
  -- what the clock showed is spaced, and the later mail is not the faster one
  refine (hspaced.and hdelays).imp_of_mem ?_
  intro l l' hl hl' hboth
  have hread : l.read + signupVerificationCooldown ≤ l'.read := hboth.1
  have hdelay : l.sent - l.read ≤ l'.sent - l'.read := hboth.2
  have hle := hsent l hl
  have hle' := hsent l' hl'
  calc l.sent + signupVerificationCooldown
      = (l.sent - l.read) + (l.read + signupVerificationCooldown) := by
        rw [← Nat.add_assoc, Nat.sub_add_cancel hle]
    _ ≤ (l'.sent - l'.read) + l'.read := Nat.add_le_add hdelay hread
    _ = l'.sent := Nat.sub_add_cancel hle'

end Runs

/-! ## Two registrations -/

/-- A registration at the instant `t`. -/
def register (t : Time) (first : Nat) : Call × (Nat → Choice) :=
  (.registerWithEmail "ann@example.com" "secret" "Ann" "" "" "",
    fun n => { now := t, id := Uuid.ofNat (first + n), code := "123456" })

/-- A registration whose mail goes out later than its other operations. -/
def slowRegister (t delay : Time) (first : Nat) : Call × (Nat → Choice) :=
  ((register t first).1, fun n =>
    { now := if n < 10 then t else t + delay, id := Uuid.ofNat (first + n), code := "123456" })

/-- `VerifyOTP` with the given code at the instant `t`. -/
def present (code : String) (t : Time) (first : Nat) : Call × (Nat → Choice) :=
  (.verifyOTP "ann@example.com" "email" code, fun n => { now := t, id := Uuid.ofNat (first + n) })

/-- The right code between two registrations ten seconds apart. -/
def impatient : History :=
  [register second 0, present "123456" (2 * second) 100, register (11 * second) 200]

theorem register_isCodeCall (t : Time) (first : Nat) : IsCodeCall (register t first).1 :=
  .register _ _ _ _ _ _

theorem present_isCodeCall (code : String) (t : Time) (first : Nat) :
    IsCodeCall (present code t first).1 :=
  .verification (.otp _ _ _)

/-- The first mail goes out two seconds after the clock was read, the second one three. -/
def patient : History :=
  [slowRegister second (2 * second) 0, present "000000" (4 * second) 100,
    slowRegister (61 * second) (3 * second) 200]

theorem mails_spaced_patient :
    mailedTo toyConfig patient toyWorld "ann@example.com" = [3 * second, 64 * second] ∧
      (mailedTo toyConfig patient toyWorld "ann@example.com").Pairwise fun s u =>
        s + signupVerificationCooldown ≤ u := by
  obtain ⟨hregular, hmails, hdelays⟩ :
      Throughout toyConfig (Regular toyConfig) patient toyWorld ∧
        mailedTo toyConfig patient toyWorld "ann@example.com" = [3 * second, 64 * second] ∧
        (lettersTo toyConfig patient toyWorld "ann@example.com").Pairwise fun l l' =>
          l.delay ≤ l'.delay := by decide +kernel
  refine ⟨hmails, mails_spaced ?_ ?_ DB.integrity_empty hregular "ann@example.com" hdelays⟩
  · simp only [patient, List.forall_mem_cons]
    exact ⟨register_isCodeCall 0 0, present_isCodeCall _ _ _, register_isCodeCall 0 0,
      fun _ h => nomatch h⟩
  · simp only [patient, List.forall_mem_cons]
    exact ⟨fun _ => rfl, fun _ => rfl, fun _ => rfl, fun _ h => nomatch h⟩

/-- `VerifyOTP` refuses the pending account but has spent its code, and with it the cooldown. -/
theorem mails_unspaced :
    ((∀ step ∈ impatient, IsCodeCall step.1) ∧ (∀ step ∈ impatient, Works step.2) ∧
        toyWorld.db.Integrity) ∧
      mailedTo toyConfig impatient toyWorld "ann@example.com" = [second, 11 * second] ∧
      ¬ (mailedTo toyConfig impatient toyWorld "ann@example.com").Pairwise fun s u =>
        s + signupVerificationCooldown ≤ u := by
  have hmails : mailedTo toyConfig impatient toyWorld "ann@example.com" =
      [second, 11 * second] := by
    decide +kernel
  refine ⟨⟨?_, ?_, DB.integrity_empty⟩, hmails, ?_⟩
  · simp only [impatient, List.forall_mem_cons]
    exact ⟨register_isCodeCall _ _, present_isCodeCall _ _ _, register_isCodeCall _ _,
      fun _ h => nomatch h⟩
  · simp only [impatient, List.forall_mem_cons]
    exact ⟨fun _ => rfl, fun _ => rfl, fun _ => rfl, fun _ h => nomatch h⟩
  · rw [hmails]
    decide

/-- A mail that goes out half a minute after its challenge was dated, and one that does not. -/
example : mailedTo toyConfig [slowRegister second (30 * second) 0, register (61 * second) 200]
    toyWorld "ann@example.com" = [31 * second, 61 * second] := by
  decide +kernel

end Cooldown
end Service
end OrbitAuth
