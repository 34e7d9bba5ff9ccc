import OrbitAuth.Postgres.Commits
import OrbitAuth.Safety.PendingSession
import OrbitAuth.Service.Requests

/-!
# Established — registration leaves verified accounts alone

A registration may meet an account at its address that is verified at any moment between two of its
steps.  The statements it writes with are guarded: an insert that gives way to an existing address
and updates of unverified rows only.

* `exec_createSignupUser_spares`, `exec_reissue_spares` — what the two submitting calls leave of an
  account that is no longer pending;
* `registration_spares` — no step of a registration touches such an account, in any interleaving.
-/

namespace OrbitAuth
namespace Service
namespace Established

open Domain Foundations Postgres PendingSession

/-! ## What is spared -/

/-- The event announces a membership of `u`. -/
def Joins (u : Uuid) : Event → Prop
  | .membershipAdded _ user _ _ => Uuid.parse user = some u
  | _ => False

/-- The account `r` keeps its row and its memberships, and no invitation is used for it. -/
structure Spares (r : UserRow) (db db' : DB) : Prop where
  row : r ∈ db.users → r ∈ db'.users
  memberships : ∀ m : MembershipRow, m.userID = r.id → (m ∈ db'.memberships ↔ m ∈ db.memberships)
  events : ∃ es, db'.outbox = db.outbox ++ es ∧ ∀ e ∈ es, ¬ Joins r.id e

section Spares

variable {r : UserRow} {db db₁ db₂ : DB} {now : Time}

theorem spares_refl : Spares r db db :=
  ⟨fun h => h, fun _ _ => Iff.rfl, [], by simp, by simp⟩

theorem spares_trans (h₁ : Spares r db db₁) (h₂ : Spares r db₁ db₂) : Spares r db db₂ := by
  obtain ⟨es, hes, hno⟩ := h₁.events
  obtain ⟨es', hes', hno'⟩ := h₂.events
  refine ⟨fun h => h₂.row (h₁.row h), ?_, es ++ es', ?_, ?_⟩
  · intro m hm
    exact (h₂.memberships m hm).trans (h₁.memberships m hm)
  · rw [hes', hes, List.append_assoc]
  · intro e he
    rcases List.mem_append.mp he with he | he
    · exact hno e he
    · exact hno' e he

/-- Changes of other tables. -/
theorem spares_of_same (husers : db₁.users = db.users) (hmembers : db₁.memberships = db.memberships)
    (houtbox : db₁.outbox = db.outbox) : Spares r db db₁ := by
  refine ⟨fun h => husers ▸ h, fun m _ => by rw [hmembers], [], ?_, by simp⟩
  rw [houtbox, List.append_nil]

/-- Changes of users only. -/
theorem spares_of_users (hrow : r ∈ db.users → r ∈ db₁.users)
    (hmembers : db₁.memberships = db.memberships) (houtbox : db₁.outbox = db.outbox) :
    Spares r db db₁ := by
  refine ⟨hrow, fun m _ => by rw [hmembers], [], ?_, by simp⟩
  rw [houtbox, List.append_nil]

/-- Somebody else uses an invitation. -/
theorem spares_consumed {id org user : Uuid} {acceptedAt : Option Time} {event : Event}
    (hne : r.id ≠ user) (hevent : ¬ Joins r.id event) :
    Spares r db (Store.consumed now db id org user acceptedAt event) := by
  refine ⟨fun h => h, ?_, [event], rfl, by simpa using hevent⟩
  intro m hm
  exact Store.mem_joined_other (hm ▸ hne)

/-- Somebody else founds an organization. -/
theorem spares_organized {org : OrgRow} {user : Uuid} {events : List Event} (hne : r.id ≠ user)
    (hevents : ∀ e ∈ events, ¬ Joins r.id e) :
    Spares r db (Store.organized now db org user events) := by
  refine ⟨fun h => h, ?_, events, rfl, hevents⟩
  intro m hm
  exact Store.mem_enrolled_other (hm ▸ hne)

/-- Somebody else registers. -/
theorem spares_registered {id : Uuid} {user : User} {t : Time} (hne : r.id ≠ id) :
    Spares r db (Store.registered now db id user t) := by
  refine ⟨fun h => mem_put.mpr (.inr ⟨h, hne⟩), fun _ _ => Iff.rfl, [_], rfl, ?_⟩
  intro e he
  cases List.mem_singleton.mp he
  exact fun h => h

/-- An update of unverified rows. -/
theorem mem_update_of_settled {t : Table UserRow} {p : UserRow → Bool} {f : UserRow → UserRow}
    (hf : ∀ r, Keyed.key (f r) = Keyed.key r) (hp : ∀ r, p r = true → r.unverified = true)
    (hstatus : r.status ≠ .signupPending) (hr : r ∈ t) : r ∈ t.update p f := by
  refine (mem_update hf).mpr (.inr ⟨hr, ?_⟩)
  by_contra h
  exact hstatus (unverified_pending (hp r (by simpa using h)))

/-- An event about somebody else. -/
theorem not_joins {user : Uuid} {orgText userText : String} {status : MembershipStatus} {t : Time}
    (huser : Uuid.parse userText = some user) (hne : r.id ≠ user) :
    ¬ Joins r.id (Store.stamp now (.membershipAdded orgText userText status t)) := by
  intro h
  exact hne (Option.some.inj (h.symm.trans huser))

end Spares

/-! ## The submitting calls -/

section Calls

variable {r : UserRow} {db : DB}

/-- The insert gives way to the account at its address, and what follows it is about the account it
inserted. -/
theorem exec_createSignupUser_spares (env : Env) (now : Time) (id : Uuid) (pick : Nat)
    (hr : r ∈ db.users) (user : User) (org : Option Organization)
    (invite : Option Invite) (t : Time) :
    let db' := ((Store.Op.createSignupUser user org invite t).exec env now id pick db).2
    Spares r db db' ∧ (r.email = some user.email → db' = db) := by
  dsimp only
  rcases Store.exec_commits env now id pick (.createSignupUser user org invite t) db with
    ⟨created, _, h⟩ | hsame
  · generalize ((Store.Op.createSignupUser user org invite t).exec env now id pick db).2 = db' at h
    -- the address is taken and nothing is done, or the account is new in every respect
    obtain ⟨uid, huid, ⟨_, _, rfl⟩ | ⟨hfree, _, db₁, hjoin, hown⟩⟩ :=
      Store.commits_createSignupUser.mp h
    · exact ⟨spares_refl, fun _ => rfl⟩
    · have hne : r.id ≠ uid := (hfree r hr).1
      have hemail : r.email ≠ some user.email := (hfree r hr).2.1 user.email rfl
      refine ⟨?_, fun h => absurd h hemail⟩
      have hjoined : Spares r (Store.registered now db uid user t) db₁ := by
        cases invite with
        | none =>
            rw [(Store.commits_pure.mp hjoin).2]
            exact spares_refl
        | some invite =>
            obtain ⟨_, _, _, _, _, _, _, rfl⟩ := Store.commits_joinInvite.mp hjoin
            exact spares_consumed hne (not_joins huid hne)
      have howned : Spares r db₁ db' := by
        cases org with
        | none =>
            rw [(Store.commits_pure.mp hown).2]
            exact spares_refl
        | some org =>
            obtain ⟨_, _, _, _, _, _, rfl⟩ := Store.commits_ownOrg.mp hown
            refine spares_organized hne ?_
            intro e he
            rcases List.mem_cons.mp he with rfl | he
            · exact fun h => h
            · cases List.mem_singleton.mp he
              exact not_joins huid hne
      exact spares_trans (spares_registered hne) (spares_trans hjoined howned)
  · rw [hsame]
    exact ⟨spares_refl, fun _ => rfl⟩

/-- The challenges of other addresses survive the rotation. -/
theorem mem_rotated_other {t : Table ChallengeRow} {id : Uuid} {ch : OTPChallenge} {created : Time}
    {c : ChallengeRow} (hne : c.identifier ≠ ch.identifier)
    (hfree : ∀ c ∈ t, c.addressedTo ch.identifier ch.channel = false → c.id ≠ id) :
    c ∈ Store.rotated t id ch created ↔ c ∈ t := by
  have hother : c.addressedTo ch.identifier ch.channel = false := by
    simp [ChallengeRow.addressedTo, hne]
  rw [Store.rotated, mem_put, mem_delete]
  constructor
  · rintro (rfl | ⟨⟨hc, _⟩, _⟩)
    · exact absurd rfl hne
    · exact hc
  · intro hc
    exact .inr ⟨⟨hc, hother⟩, hfree c hc hother⟩

/-- Replacing the challenge of a retry touches no account, and no challenge of another address. -/
theorem rotateChallenge_spares {env : Env} {now t : Time} {pick : Nat}
    {challenge : Option OTPChallenge} {db₁ : DB}
    (h : Store.Commits env now pick (Store.rotateChallenge t challenge) db () db₁) :
    Spares r db db₁ ∧ ∀ c :
    ChallengeRow, (∀ ch, challenge = some ch → c.identifier ≠ ch.identifier) →
      (c ∈ db₁.challenges ↔ c ∈ db.challenges) := by
  cases challenge with
  | none =>
      rw [(Store.commits_pure.mp h).2]
      exact ⟨spares_refl, fun _ _ => Iff.rfl⟩
  | some ch =>
      obtain ⟨_, _, _, _, hfree, rfl⟩ := Store.commits_rotateChallenge.mp h
      exact ⟨spares_of_same rfl rfl rfl, fun c hother => mem_rotated_other (hother ch rfl) hfree⟩

/-- Activating the retried account by its invitation touches no settled account, and no challenge.
-/
theorem activateByInvite_spares {env : Env} {now t : Time} {pick : Nat}
    {invite : Option Invite} {id : Uuid} {db₁ : DB} (hstatus : r.status ≠ .signupPending)
    (hne : r.id ≠ id)
    (h : Store.Commits env now pick (Store.activateByInvite now id.string t invite) db () db₁) :
    Spares r db db₁ ∧ db₁.challenges = db.challenges := by
  cases invite with
  | none =>
      rw [(Store.commits_pure.mp h).2]
      exact ⟨spares_refl, rfl⟩
  | some invite =>
      obtain ⟨u, _, _, hu, _, _, _, _, _, rfl⟩ := Store.commits_activateByInvite.mp h
      rw [Uuid.parse_string, Option.some.injEq] at hu
      subst hu
      refine ⟨spares_trans ?_ (spares_consumed hne (not_joins (Uuid.parse_string _) hne)), rfl⟩
      refine spares_of_users (mem_update_of_settled (key_activated _ _) ?_ hstatus) rfl rfl
      intro s hs
      simp only [UserRow.unverifiedWith, Bool.and_eq_true] at hs
      exact hs.2

/-- The retry updates the unverified row of the address and works on that account from there on. -/
theorem exec_reissue_spares (env : Env) (now : Time) (id : Uuid) (pick : Nat) (hdb : db.Integrity)
    (hr : r ∈ db.users) (hstatus : r.status ≠ .signupPending) (user : User)
    (challenge : Option OTPChallenge) (invite : Option Invite) (t : Time)
    (hch : ∀ ch, challenge = some ch → ch.identifier = user.email) :
    let db' := ((Store.Op.reissuePendingSignup user challenge invite t).exec env now id pick db).2
    Spares r db db' ∧ (r.email = some user.email → db' = db) ∧
      ∀ c : ChallengeRow, r.email = some c.identifier →
      (c ∈ db'.challenges ↔ c ∈ db.challenges) := by
  dsimp only
  rcases Store.exec_commits env now id pick (.reissuePendingSignup user challenge invite t) db with
    ⟨v, _, h⟩ | hsame
  · generalize ((Store.Op.reissuePendingSignup user challenge invite t).exec env now id pick db).2 =
      db' at h
    obtain ⟨r', hhead, _, db₁, hrotate, hactivate⟩ := Store.commits_reissuePendingSignup.mp h
    obtain ⟨hr', hunverified⟩ := mem_select.mp (List.mem_of_mem_head? hhead)
    simp only [UserRow.unverifiedAt, Bool.and_eq_true, decide_eq_true_eq] at hunverified
    have hpending : r'.status = .signupPending := unverified_pending hunverified.2
    -- the retried account is another one
    have hrr' : r ≠ r' := fun heq => hstatus (heq ▸ hpending)
    have hne : r.id ≠ r'.id := fun hid => hrr' (eq_of_key hr hr' hid)
    have hemail : r.email ≠ some user.email := fun he =>
      hrr' (hdb.email r hr r' hr' user.email he hunverified.1)
    obtain ⟨hrotated, hothers⟩ := rotateChallenge_spares (r := r) hrotate
    obtain ⟨hactivated, hchallenges⟩ := activateByInvite_spares hstatus hne hactivate
    refine ⟨?_, fun h => absurd h hemail, ?_⟩
    · have hreissued : Spares r db (Store.reissued now db user) := by
        refine spares_of_users (mem_update_of_settled (key_reissued _ _ _) ?_ hstatus) rfl rfl
        intro s hs
        simp only [UserRow.unverifiedAt, Bool.and_eq_true] at hs
        exact hs.2
      exact spares_trans hreissued (spares_trans hrotated hactivated)
    · intro c hc
      rw [hchallenges]
      refine hothers c ?_
      intro ch hsome heq
      exact hemail (hch ch hsome ▸ heq ▸ hc)
  · rw [hsame]
    exact ⟨spares_refl, fun _ => rfl, fun _ _ => Iff.rfl⟩

end Calls

/-! ## Runs -/

/-- The operations of a registration. -/
inductive RegistrationPort : Port → Prop
  | plain {o : Port} (h : o.plain = true) : RegistrationPort o
  | upsertChallenge (ch : OTPChallenge) : RegistrationPort (.store (.upsertChallenge ch))
  | getLatestChallenge (identifier channel : String) :
      RegistrationPort (.store (.getLatestChallenge identifier channel))
  | createSignupUser (user : User) (org : Option Organization) (invite : Option Invite) (t : Time) :
      RegistrationPort (.store (.createSignupUser user org invite t))
  | reissue (user : User) (challenge : Option OTPChallenge) (invite : Option Invite) (t : Time) :
      RegistrationPort (.store (.reissuePendingSignup user challenge invite t))

/-- A registration, with or without `org_name` or an invitation. -/
def IsRegistration (call : Call) : Prop :=
  ∃ email password displayName locale orgName inviteToken,
    call = .registerWithEmail email password displayName locale orgName inviteToken

theorem uses_registration {cfg : Config} {call : Call} (h : IsRegistration call) :
    (call.program cfg).Uses RegistrationPort := by
  obtain ⟨email, password, displayName, locale, orgName, inviteToken, rfl⟩ := h
  refine uses_map ?_ _
  exact uses_registerWithEmail (fun _ h => .plain h) .upsertChallenge
    (fun identifier => .getLatestChallenge identifier channelEmail) .createSignupUser .reissue

/-- The operation submits a sign-up for the address. -/
def Submits (email : Option String) : Port → Prop
  | .store (.createSignupUser user _ _ _) | .store (.reissuePendingSignup user _ _ _) =>
      email = some user.email
  | _ => False

/-- The operation is the retry of a pending sign-up. -/
def Retries : Port → Prop
  | .store (.reissuePendingSignup _ _ _ _) => True
  | _ => False

theorem plain_submits {o : Store.Op} (h : plainStore o = true) (email : Option String) :
    ¬ Submits email (.store o) ∧ ¬ Retries (.store o) := by
  cases o <;> first | exact ⟨fun h => h, fun h => h⟩ | cases h

/-- What the step `o` of a registration leaves of the account `r`: its row and its memberships, with
no invitation used for it; everything, if the registration is for its address; and on the retry path
the challenges of its address. -/
structure LeavesAlone (r : UserRow) (o : Port) (db db' : DB) : Prop where
  spares : Spares r db db'
  own : Submits r.email o → db' = db
  challenges : Retries o → ∀ c : ChallengeRow, r.email = some c.identifier →
    (c ∈ db'.challenges ↔ c ∈ db.challenges)

/-- One step of a registration. -/
theorem exec_leavesAlone {cfg : Config} {call : Call} {r : UserRow} {o : Port}
    {w : World} (c : Choice) (hdb : w.db.Integrity) (ho : RegistrationPort o)
    (hasked : Requests cfg call o) (hr : r ∈ w.db.users) (hstatus : r.status ≠ .signupPending) :
    LeavesAlone r o w.db (exec cfg.env o c w).2.db := by
  refine exec_db_rel (R := fun db db' => db = w.db → LeavesAlone r o db db') ?_ ?_ c rfl
  · intro db _
    exact ⟨spares_refl, fun _ => rfl, fun _ _ _ => Iff.rfl⟩
  · rintro o' rfl now id pick -
    -- calls that write neither accounts, memberships nor events, and are no submission
    have hother : TableName.users ∉ o'.writes → TableName.memberships ∉ o'.writes →
        TableName.outbox ∉ o'.writes → ¬ Submits r.email (.store o') → ¬ Retries (.store o') →
        LeavesAlone r (.store o') w.db (o'.exec cfg.env now id pick w.db).2 := by
      intro husers hmembers houtbox hsubmits hretries
      refine ⟨spares_of_same ?_ ?_ ?_, fun h => absurd h hsubmits, fun h => absurd h hretries⟩
      · exact Store.exec_same husers now id pick w.db
      · exact Store.exec_same hmembers now id pick w.db
      · exact Store.exec_same houtbox now id pick w.db
    cases ho with
    | plain h =>
        have hn : ∀ {n : TableName}, n ≠ .challenges → n ∉ o'.writes := plainStore_writes h
        have hsubmits := plain_submits h r.email
        exact hother (hn (by decide)) (hn (by decide)) (hn (by decide)) hsubmits.1 hsubmits.2
    | upsertChallenge ch =>
        exact hother (by simp [Store.Op.writes]) (by simp [Store.Op.writes])
          (by simp [Store.Op.writes]) (fun h => h) fun h => h
    | getLatestChallenge identifier channel =>
        exact hother (by simp [Store.Op.writes]) (by simp [Store.Op.writes])
          (by simp [Store.Op.writes]) (fun h => h) fun h => h
    | createSignupUser user org invite t =>
        have hspares := exec_createSignupUser_spares cfg.env now id pick hr user org invite t
        exact ⟨hspares.1, hspares.2, fun h => absurd h (fun h => h)⟩
    | reissue user challenge invite t =>
        have hspares :=
          exec_reissue_spares cfg.env now id pick hdb hr hstatus user challenge invite t hasked.2.2
        exact ⟨hspares.1, hspares.2.1, fun _ => hspares.2.2⟩

/-- In every interleaving, an account that is no longer pending stays so, and no step of a
registration touches it. -/
theorem registration_spares (cfg : Config) (calls : List Call) {w : World} (hdb : w.db.Integrity)
    (hnow : w.now ≠ 0) (sched : Schedule) :
    ∀ e ∈ (runOn cfg (serve cfg w calls) sched).log, ∀ r ∈ e.before.db.users,
      r.status ≠ .signupPending →
        Settled r.id e.after.db.users ∧
          ∀ call, calls[e.thread]? = some call → IsRegistration call →
            LeavesAlone r e.op e.before.db e.after.db := by
  have hrun := serve_keeps cfg calls (fun _ _ _ => True) DB.Integrity
    (fun _ _ _ _ o _ _ _ _ hI _ _ _ _ => Store.exec_integrity o hI) hnow hdb sched
    (Pool.along_true sched _)
  intro e he r hr hstatus
  obtain ⟨⟨call', hcall', hasked⟩, ⟨_, hI⟩, c, hafter⟩ := hrun.2 e he
  rw [hafter]
  refine ⟨exec_settles cfg.env e.op c e.before r.id ⟨r, hr, rfl, hstatus⟩, ?_⟩
  intro call hcall hregistration
  have hport := serve_uses cfg calls hcall (uses_registration hregistration) sched e he rfl
  exact exec_leavesAlone c hI hport hasked hr hstatus

/-- Ann registers and verifies the address; then somebody else registers it. -/
def registeredAgain : ServicePool :=
  runOn toyConfig (serve toyConfig toyWorld
    [.registerWithEmail "ann@example.com" "secret" "Ann" "" "" "",
      .verifySignup "ann@example.com" "123456" "secret",
      .registerWithEmail "ann@example.com" "stolen" "Eve" "" "acme" ""])
    (turns 0 1000 100 20 ++ turns 1 1100 200 20 ++ turns 2 1200 300 20)

set_option maxRecDepth 10000 in
/-- The second registration meets the active account. -/
theorem registration_spares_again :
    toyWorld.db.Integrity ∧ toyWorld.now ≠ 0 ∧
      (∃ e ∈ registeredAgain.log, e.thread = 2 ∧ ∃ r ∈ e.before.db.users, r.status = .active) ∧
      ∀ e ∈ registeredAgain.log, e.thread = 2 → ∀ r ∈ e.before.db.users, r.status = .active →
        LeavesAlone r e.op e.before.db e.after.db := by
  refine ⟨DB.integrity_empty, by decide, by decide +kernel, ?_⟩
  intro e he hthread r hr hactive
  unfold registeredAgain at he
  have hstatus : r.status ≠ .signupPending := by rw [hactive]; decide
  have hspares := registration_spares toyConfig _ DB.integrity_empty (by decide) _ e he r hr hstatus
  refine hspares.2 _ (by rw [hthread]; rfl) ⟨_, _, _, _, _, _, rfl⟩

end Established
end Service
end OrbitAuth
