import OrbitAuth.Postgres.Integrity
import OrbitAuth.Service.Steps

/-!
# Requests — what each call asks of the store

`Asks` lists, for the store calls whose arguments matter, which service call makes them and with
which arguments.  Instants come from the clock, which is assumed to run: it never shows Go's zero
time.  `call_makes` checks the list against the use cases once, and `serve_keeps` turns it into the
rule for invariants of the database under any interleaving.
-/

namespace OrbitAuth
namespace Service

open Domain Foundations Postgres

/-- A clock that runs. -/
def Honest : (o : Port) → o.Ans → Prop
  | .now, t => t ≠ 0
  | _, _ => True

/-- The calls that register `email`, in the spelling the service stores. -/
def Registers (cfg : Config) (call : Call) (email : String) : Prop :=
  ∃ raw password displayName locale orgName inviteToken,
    call = .registerWithEmail raw password displayName locale orgName inviteToken ∧
      email = cfg.env.normalizeEmail raw

/-- The arguments with which `call` makes a store call. -/
def Asks (cfg : Config) (call : Call) : Store.Op → Prop
  | .createByEmail email => ∃ identifier channel code,
      call = .verifyOTP identifier channel code ∧ trimSpace channel = channelEmail ∧
        email = trimSpace identifier
  | .upsertDemoUser email _ _ _ => ∃ u ∈ cfg.demoUsers, email = cfg.env.normalizeEmail u.email
  | .addMember _ _ status => status = .active
  | .updateMemberStatus _ _ status => status = .suspended
  | .createInvite invite => invite.status = .pending
  | .acceptInvite _ _ _ t => t ≠ 0
  | .createSignupUser user org invite t => Registers cfg call user.email ∧ t ≠ 0 ∧
      user.status = (if invite.isSome then .active else .signupPending) ∧
      user.emailVerified = invite.isSome ∧ (invite.isSome = true → org = none)
  | .reissuePendingSignup user challenge _ t => Registers cfg call user.email ∧ t ≠ 0 ∧
      ∀ ch, challenge = some ch → ch.identifier = user.email
  | .verifySignup _ t => t ≠ 0
  | _ => True

def Requests (cfg : Config) (call : Call) : Port → Prop
  | .store o => Asks cfg call o
  | _ => True

theorem requests_plain {cfg : Config} {call : Call} (o : Port) (h : o.plain = true) :
    Requests cfg call o := by
  cases o with
  | store o => cases o <;> trivial
  | _ => trivial

/-! ## The use cases -/

section Makes

variable {cfg : Config} {call : Call} {α : Type}

/-- `p` makes only the requests of `call`. -/
abbrev Follows (cfg : Config) (call : Call) (p : Action α) (post : α → Prop) : Prop :=
  p.Makes Honest (Requests cfg call) post

theorem follows_uses {p : Action α} (h : p.Uses (Requests cfg call)) :
    Follows cfg call p fun _ => True :=
  makes_of_uses h

theorem follows_now : Follows cfg call now fun t => t ≠ 0 :=
  .call trivial fun _ ht => .done ht

theorem follows_passes {o : Store.Op} {p : Action o.Val} (hp : Passes o p) (ho : Asks cfg call o) :
    Follows cfg call p fun _ => True :=
  makes_passes hp ho fun _ _ => trivial

theorem follows_buildOTPChallenge (identifier channel : String) :
    Follows cfg call (buildOTPChallenge identifier channel) fun res => res.1.identifier =
      identifier := by
  refine makes_bind (follows_uses (uses_newCode trivial)) fun code _ => ?_
  refine makes_bind (follows_uses (uses_hash trivial)) fun codeHash _ => ?_
  refine makes_bind (follows_uses (uses_now trivial)) fun t _ => ?_
  exact makes_bind (follows_uses (uses_newID trivial)) fun id _ => .done rfl

theorem follows_reissueSignup {user : User} {locale : String} {t : Time}
    (huser : Registers cfg call user.email) (ht : t ≠ 0) :
    Follows cfg call (reissueSignup user locale t) fun _ => True := by
  refine makes_bind (follows_uses (uses_signupCooldownActive trivial _)) fun cooldown _ => ?_
  split
  · refine makes_bind (follows_passes (passes_store _) ⟨huser, ht, ?_⟩) fun _ _ => .done trivial
    intro ch hch
    cases hch
  · refine makes_bind (follows_buildOTPChallenge _ _) fun res hres => ?_
    rcases res with ⟨challenge, code⟩
    refine makes_bind (follows_passes (passes_store _) ⟨huser, ht, ?_⟩) fun res _ => ?_
    · intro ch hch
      cases hch
      exact hres
    · rcases res with ⟨userID, reissued⟩
      cases reissued with
      | false => exact .done trivial
      | true => exact follows_uses (uses_send trivial)

theorem follows_retryPendingSignup {user : User} {invite : Option Invite}
    {locale : String} {t : Time} (huser : Registers cfg call user.email) (ht : t ≠ 0) :
    Follows cfg call (retryPendingSignup user invite locale t) fun _ => True := by
  cases invite with
  | some invite =>
      refine makes_bind (follows_passes (passes_storeMapping _ _ _) ⟨huser, ht, ?_⟩)
        fun _ _ => .done trivial
      intro ch hch
      cases hch
  | none =>
      refine makes_bind (follows_uses (uses_tryStore trivial)) fun r _ => ?_
      cases r with
      | error e => exact follows_reissueSignup huser ht
      | ok existing =>
          dsimp only
          split
          · exact .done trivial
          · exact follows_reissueSignup huser ht

/-- A registration with an invitation founds no organization. -/
theorem follows_signupOrg (invite : Option Invite) (orgName : String) (t : Time) :
    Follows cfg call (signupOrg invite orgName t) fun org => invite.isSome = true → org = none := by
  unfold signupOrg
  split
  · exact .done fun _ => rfl
  · rename_i hnone
    refine makes_bind (follows_uses (uses_newID trivial)) fun id _ => .done ?_
    intro hsome
    simp [hsome] at hnone

theorem follows_submitSignup {email passwordHash displayName locale orgName : String}
    {invite : Option Invite} (hemail : Registers cfg call email) :
    Follows cfg call (submitSignup email passwordHash displayName locale orgName invite)
      fun _ => True := by
  refine makes_bind follows_now fun t ht => ?_
  refine makes_bind (follows_uses (uses_newID trivial)) fun id _ => ?_
  refine makes_bind (follows_signupOrg invite orgName t) fun org horg => ?_
  refine makes_bind (follows_passes (passes_storeMapping _ _ _) ⟨hemail, ht, rfl, rfl, horg⟩)
    fun created _ => ?_
  split
  · exact follows_retryPendingSignup hemail ht
  · split
    · exact .done trivial
    · exact follows_uses (uses_sendSignupCode requests_plain (fun _ => trivial) _ _)

theorem follows_registerWithEmail
    {email password displayName locale orgName inviteToken : String} :
    Follows cfg (.registerWithEmail email password displayName locale orgName inviteToken)
      (registerWithEmail cfg email password displayName locale orgName inviteToken)
        fun _ => True := by
  refine makes_bind (follows_uses (uses_failIf _ _)) fun _ _ => ?_
  refine makes_bind (follows_uses (uses_failIf _ _)) fun _ _ => ?_
  refine makes_bind (follows_uses (uses_failIf _ _)) fun _ _ => ?_
  refine makes_bind (follows_uses (uses_signupInvite requests_plain _ _)) fun invite _ => ?_
  refine makes_bind (follows_uses (uses_hash trivial)) fun passwordHash _ => ?_
  exact follows_submitSignup ⟨_, _, _, _, _, _, rfl, rfl⟩

theorem follows_matchChallenge (identifier channel code : String) :
    Follows cfg call (matchChallenge cfg identifier channel code) fun res => res.2 ≠ 0 := by
  refine makes_bind (follows_uses (uses_storeOr trivial)) fun ch _ => ?_
  refine makes_bind follows_now fun t ht => ?_
  refine makes_bind (follows_uses (uses_failIf _ _)) fun _ _ => ?_
  refine makes_bind (follows_uses (uses_failIf _ _)) fun _ _ => ?_
  split
  · exact .done ht
  · exact makes_bind (follows_uses (uses_ignore trivial)) fun _ _ => .fail _

theorem follows_verifySignup (email code password : String) :
    Follows cfg call (verifySignup cfg email code password) fun _ => True := by
  refine makes_bind (follows_uses (uses_failIf _ _)) fun _ _ => ?_
  refine makes_bind (follows_uses (uses_failIf _ _)) fun _ _ => ?_
  refine makes_bind (follows_matchChallenge _ _ _) fun res ht => ?_
  rcases res with ⟨ch, t⟩
  refine makes_bind (follows_uses (uses_matchSignup (silent_of_plain requests_plain) _ _ _))
    fun user _ => ?_
  refine makes_bind (follows_uses (uses_store trivial)) fun _ _ => ?_
  refine makes_bind (follows_passes (passes_storeMapping _ _ (.verifySignup user.id t)) ht)
    fun _ _ => ?_
  exact follows_uses (uses_issueTokens (silent_of_plain requests_plain) (fun _ _ => trivial)
    fun _ _ _ => trivial)

theorem follows_acceptInvite (userID token : String) :
    Follows cfg call (acceptInvite cfg userID token) fun _ => True := by
  refine makes_bind (follows_uses (uses_failIf _ _)) fun _ _ => ?_
  refine makes_bind (follows_uses (uses_storeMapping trivial)) fun invite _ => ?_
  refine makes_bind follows_now fun t ht => ?_
  refine makes_bind (follows_uses (uses_failIf _ _)) fun _ _ => ?_
  refine makes_bind (follows_uses (uses_storeMapping trivial)) fun user _ => ?_
  refine makes_bind (follows_uses (uses_failIf _ _)) fun _ _ => ?_
  exact makes_bind
    (follows_passes (passes_storeMapping _ _ (.acceptInvite invite.id invite.orgID _ t)) ht)
    fun _ _ => .done trivial

theorem follows_findOrCreate {identifier channel code : String} :
    Follows cfg (.verifyOTP identifier channel code)
      (findOrCreate (trimSpace identifier) (trimSpace channel)) fun _ => True := by
  unfold findOrCreate
  split
  · rename_i hchannel
    refine makes_bind (follows_uses (uses_tryStore trivial)) fun r _ => ?_
    cases r with
    | ok user => exact .done trivial
    | error e =>
        dsimp only
        split
        · exact follows_passes (passes_store (.createByEmail _)) ⟨_, _, _, rfl, hchannel, rfl⟩
        · exact .fail _
  · split
    · refine makes_bind (follows_uses (uses_tryStore trivial)) fun r _ => ?_
      cases r with
      | ok user => exact .done trivial
      | error e =>
          dsimp only
          split
          · exact follows_uses (uses_store trivial)
          · exact .fail _
    · exact .fail _

theorem follows_verifyOTP (identifier channel code : String) :
    Follows cfg (.verifyOTP identifier channel code) (verifyOTP cfg identifier channel code)
      fun _ => True := by
  refine makes_bind (follows_uses (uses_failIf _ _)) fun _ _ => ?_
  refine makes_bind (follows_matchChallenge _ _ _) fun res _ => ?_
  rcases res with ⟨ch, t⟩
  refine makes_bind (follows_uses (uses_store trivial)) fun _ _ => ?_
  refine makes_bind follows_findOrCreate fun user _ => ?_
  refine makes_bind (follows_uses (uses_failIf _ _)) fun _ _ => ?_
  exact follows_uses (uses_issueTokens (silent_of_plain requests_plain) (fun _ _ => trivial)
    fun _ _ _ => trivial)

theorem follows_seedAll {us : List DemoUser} (hus : ∀ u ∈ us, u ∈ cfg.demoUsers) :
    Follows cfg call (seedAll cfg us) fun _ => True := by
  induction us with
  | nil => exact .done trivial
  | cons u us ih =>
      have hseed : Follows cfg call (seedDemoUser cfg u) fun _ => True := by
        refine makes_bind (follows_uses (uses_hash trivial)) fun passwordHash _ => ?_
        refine makes_bind (follows_uses (uses_failIf _ _)) fun _ _ => ?_
        refine makes_bind (follows_uses (uses_failIf _ _)) fun _ _ => ?_
        exact follows_passes (passes_store (.upsertDemoUser _ _ _ _)) ⟨u, hus u (by simp), rfl⟩
      exact makes_bind hseed fun _ _ => ih fun v hv => hus v (by simp [hv])

/-- The list is right for every call of the service. -/
theorem call_makes (cfg : Config) (call : Call) :
    (call.program cfg).Makes Honest (Requests cfg call) fun _ => True := by
  have hplain : ∀ {β : Type} {q : Action β} {f : β → Reply}, q.Uses (Requests cfg call) →
      Follows cfg call (f <$> q) fun _ => True :=
    fun hq => makes_map (follows_uses hq)
  cases call with
  | verifyOTP => exact makes_map (follows_verifyOTP _ _ _)
  | registerWithEmail => exact makes_map follows_registerWithEmail
  | verifySignup => exact makes_map (follows_verifySignup _ _ _)
  | acceptInvite => exact makes_map (follows_acceptInvite _ _)
  | seedDemoUsers =>
      refine makes_map ?_
      unfold seedDemoUsers
      split
      · exact follows_seedAll fun u hu => hu
      · exact .done trivial
  | addMember orgID userID =>
      refine hplain (uses_bind (uses_requireTarget requests_plain _ _) fun _ => ?_)
      exact uses_bind (uses_store trivial) fun _ =>
        uses_store (o := .addMember (trimSpace orgID) (trimSpace userID) .active) rfl
  | suspendMember orgID userID =>
      refine hplain (uses_bind (uses_requireTarget requests_plain _ _) fun _ => ?_)
      refine uses_bind (uses_store trivial) fun m => ?_
      split
      · exact .done _
      · exact uses_store (o := .updateMemberStatus (trimSpace orgID) (trimSpace userID) .suspended)
          rfl
  | inviteMember =>
      exact hplain
        (uses_inviteMember requests_plain (fun _ hpending => hpending) fun _ _ => trivial)
  | requestOTP => exact hplain (uses_requestOTP requests_plain (fun _ => trivial) _ _ _)
  | loginWithPassword =>
      exact hplain (uses_loginWithPassword requests_plain (fun _ => trivial) (fun _ _ _ => trivial)
        fun _ _ _ _ => trivial)
  | refresh =>
      exact hplain (uses_refresh requests_plain (fun _ => trivial) (fun _ _ _ => trivial)
        fun _ _ _ _ => trivial)
  | selectOrg =>
      exact hplain (uses_selectOrg requests_plain (fun _ => trivial) (fun _ _ _ => trivial)
        fun _ _ _ _ => trivial)
  | purgeUnverifiedSignups before =>
      exact hplain (uses_bind (uses_failIf _ _) fun _ => uses_store trivial)
  | createApiToken => exact hplain (uses_createApiToken requests_plain fun _ => trivial)
  | listApiTokens => exact hplain (uses_listApiTokens requests_plain _)
  | revokeApiToken => exact hplain (uses_revokeApiToken fun _ _ => trivial)
  | validateApiToken => exact hplain (uses_validateApiToken requests_plain _)
  | createOrg => exact hplain (uses_createOrg requests_plain fun _ _ => trivial)
  | listOrgsForUser => exact hplain (uses_listOrgsForUser requests_plain _)
  | listMembers => exact hplain (uses_listMembers requests_plain _)
  | removeMember => exact hplain (uses_removeMember requests_plain fun _ _ => trivial)
  | revokeInvite => exact hplain (uses_revokeInvite requests_plain fun _ _ => trivial)
  | listInvites => exact hplain (uses_listInvites requests_plain _)

end Makes

/-! ## Invariants of the database -/

section Runs

variable (cfg : Config) (calls : List Call) {w : World}

/-- The call that thread `i` runs may ask for `o`. -/
def AskedBy (i : Nat) (o : Port) : Prop :=
  ∃ call, calls[i]? = some call ∧ Requests cfg call o

variable {cfg} in
/-- One operation, at an instant the clock can show. -/
theorem exec_keeps (I : DB → Prop) {o : Port} {c : Choice} {w : World}
    (hI : ∀ o', o = .store o' → ∀ now, now ≠ 0 → ∀ id pick, I (o'.exec cfg.env now id pick w.db).2)
    (hnow : w.now ≠ 0) (hw : I w.db) :
    Honest o (exec cfg.env o c w).1 ∧ (exec cfg.env o c w).2.now ≠ 0 ∧
    I (exec cfg.env o c w).2.db := by
  have hpos : 0 < w.now := Nat.pos_of_ne_zero hnow
  have hlater : (exec cfg.env o c w).2.now ≠ 0 :=
    Nat.ne_of_gt (lt_of_lt_of_le hpos (exec_now_le cfg.env o c w))
  refine ⟨?_, hlater, ?_⟩
  · cases o with
    | now => exact hlater
    | _ => trivial
  · by_cases hstore : ∃ o', o = .store o'
    · obtain ⟨o', rfl⟩ := hstore
      rcases exec_store cfg.env o' c w with hx | hx
      · rw [hx]
        exact hw
      · rw [hx]
        have hmax : max w.now c.now ≠ 0 := Nat.ne_of_gt (lt_max_of_lt_left hpos)
        exact hI o' rfl _ hmax _ _
    · -- the other operations leave the database alone
      have hsame : I w.db → I (exec cfg.env o c w).2.db :=
        exec_db_rel (R := fun db db' => I db → I db') (fun _ h => h)
          (fun o' h => absurd ⟨o', h⟩ hstore) c
      exact hsame hw

/-- What every requested store call keeps holds along every run whose steps meet `ok`, and each step
of the run was such a request made where it held. -/
theorem serve_keeps (ok : ServicePool → Nat → Choice → Prop) (I : DB → Prop)
    (hI : ∀ (p : ServicePool) i c call o, ok p i c → calls[i]? = some call →
      p.head? i = some (.store o) → Asks cfg call o → I p.world.db →
      ∀ now, now ≠ 0 → ∀ id pick, I (o.exec cfg.env now id pick p.world.db).2)
    (hnow : w.now ≠ 0) (hw : I w.db) (sched : Schedule)
    (hok : Pool.Along (exec cfg.env) ok (serve cfg w calls) sched) :
    I (runOn cfg (serve cfg w calls) sched).world.db ∧
      ∀ e ∈ (runOn cfg (serve cfg w calls) sched).log, AskedBy cfg calls e.thread e.op ∧
        (e.before.now ≠ 0 ∧ I e.before.db) ∧ ∃ c, e.after = (exec cfg.env e.op c e.before).2 := by
  have hrun := Pool.run_makes ok Honest (AskedBy cfg calls) (fun w => w.now ≠ 0 ∧ I w.db) ?_ ?_
    ⟨hnow, hw⟩ sched hok
  · exact ⟨hrun.1.2, hrun.2⟩
  · intro p i c o hp hhead hinv hasked
    obtain ⟨call, hcall, hreq⟩ := hasked
    refine exec_keeps I ?_ hinv.1 hinv.2
    rintro o' rfl now hnow id pick
    exact hI p i c call o' hp hcall hhead hreq hinv.2 now hnow id pick
  · intro i q hq
    rw [List.getElem?_map, Option.map_eq_some_iff] at hq
    obtain ⟨call, hi, rfl⟩ := hq
    have hmakes := call_makes cfg call
    refine Program.makes_mono ?_ hmakes
    intro o ho
    exact ⟨call, hi, ho⟩

/-- A thread makes only the calls its use case makes. -/
theorem serve_uses {allowed : Port → Prop} {i : Nat} {call : Call} (hi : calls[i]? = some call)
    (huses : (call.program cfg).Uses allowed) (sched : Schedule) :
    ∀ e ∈ (runOn cfg (serve cfg w calls) sched).log, e.thread = i → allowed e.op := by
  have hfree : Pool.Along (exec cfg.env) (fun _ _ _ => True) (serve cfg w calls) sched :=
    Pool.along_true sched _
  have hrun := Pool.run_makes _ (fun _ _ => True) (fun j o => j = i → allowed o) (fun _ => True)
    (fun _ _ _ _ _ _ _ _ => ⟨trivial, trivial⟩) ?_ trivial sched hfree
  · intro e he
    exact (hrun.2 e he).1
  · intro j q hq
    by_cases hj : j = i
    · subst hj
      rw [List.getElem?_map, hi] at hq
      cases hq
      exact makes_of_uses (uses_mono (fun _ ho _ => ho) huses)
    · exact makes_of_uses (uses_mono (fun _ _ h => absurd h hj) (Program.uses_true q))

/-- The constraints of the schema hold along every run. -/
theorem serve_integrity (hdb : w.db.Integrity) (sched : Schedule) :
    (runOn cfg (serve cfg w calls) sched).world.db.Integrity := by
  refine Pool.run_inv_calls (J := fun p : ServicePool => p.world.db.Integrity) ?_ sched _ hdb
  intro p i c o k hp _
  refine exec_db_rel (R := fun db db' => db.Integrity → db'.Integrity) (fun _ h => h) ?_ c hp
  intro o' _ now id pick hdb
  exact Store.exec_integrity o' hdb

/-- A call by itself keeps them. -/
theorem perform_integrity (call : Call) (choices : Nat → Choice) (hdb : w.db.Integrity) :
    (call.perform cfg choices w).2.db.Integrity := by
  refine Program.run_rel (R := fun w w' : World => w.db.Integrity → w'.db.Integrity) (fun _ h => h)
    (fun _ _ _ h₁ h₂ h => h₂ (h₁ h)) ?_ (Program.uses_true (call.program cfg)) choices w hdb
  intro o c w _
  refine exec_db_rel (R := fun db db' => db.Integrity → db'.Integrity) (fun _ h => h) ?_ c
  intro o' _ now id pick hdb
  exact Store.exec_integrity o' hdb

/-- What every request of a call keeps, the call keeps. -/
theorem perform_keeps (I : DB → Prop) {call : Call}
    (hI : ∀ o db, Asks cfg call o → I db → ∀ now, now ≠ 0 →
    ∀ id pick, I (o.exec cfg.env now id pick db).2) (choices : Nat → Choice) (hnow :
    w.now ≠ 0) (hw : I w.db) :
    (call.perform cfg choices w).2.now ≠ 0 ∧ I (call.perform cfg choices w).2.db := by
  refine Program.run_makes (I := fun w : World => w.now ≠ 0 ∧ I w.db) ?_
    (call_makes cfg call) choices w ⟨hnow, hw⟩
  rintro o c w ho ⟨hnow, hw⟩
  refine exec_keeps I ?_ hnow hw
  rintro o' rfl now hnow id pick
  exact hI o' w.db ho hw now hnow id pick

end Runs

end Service
end OrbitAuth
