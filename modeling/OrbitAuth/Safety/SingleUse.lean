import OrbitAuth.Foundations.Spending
import OrbitAuth.Service.Steps

/-!
# SingleUse — how often a one-time code and a refresh token are worth a token pair

Both are spent by a read, a check and a separate write that does not report whether it found its
row.  Two overlapping calls can therefore spend the same row.  The results below say exactly what
is missing: if every spending step still finds its row, then

* a one-time code is redeemed by at most one call (`challenge_redeemed_once`);
* a refresh token is exchanged at most as often as it was stored (`refresh_exchanged_once`).

The counting argument is that of `Foundations.Spending`.
-/

namespace OrbitAuth
namespace Service
namespace SingleUse

open Domain Foundations Postgres

variable {c : Choice} {tokenHash : String} {env : Env} {o : Port} {p : ServicePool} {i : Nat}
  {w : World} {x : Uuid}

/-! ## One-time codes: rows -/

/-- The challenge `x` is stored. -/
def stored (x : Uuid) (w : World) : Bool :=
  w.db.challenges.any fun r => r.id = x

theorem stored_iff : stored x w = true ↔ ∃ r ∈ w.db.challenges, r.id = x := by
  simp [stored]

/-- A statement that inserts no challenge. -/
def InsertsNone (s : Sql) : Prop :=
  ∀ id identifier channel hash expires created,
    s ≠ .upsertChallenge id identifier channel hash expires created

/-- Every challenge of `t'` is one of `t`, with some attempts counted since. -/
def Ages (t t' : Table ChallengeRow) : Prop :=
  ∀ r ∈ t', ∃ r₀ ∈ t, r₀.attempts ≤ r.attempts ∧ r = { r₀ with attempts := r.attempts }

theorem ages_refl (t : Table ChallengeRow) : Ages t t :=
  fun r hr => ⟨r, hr, Nat.le_refl _, rfl⟩

theorem ages_trans {t₁ t₂ t₃ : Table ChallengeRow} (h₁ : Ages t₁ t₂) (h₂ : Ages t₂ t₃) :
    Ages t₁ t₃ := by
  intro r hr
  obtain ⟨r₂, hr₂, hle₂, heq₂⟩ := h₂ r hr
  obtain ⟨r₁, hr₁, hle₁, heq₁⟩ := h₁ r₂ hr₂
  refine ⟨r₁, hr₁, Nat.le_trans hle₁ hle₂, ?_⟩
  rw [heq₁] at heq₂
  exact heq₂

/-- Only an inserting statement brings a challenge. -/
theorem challenges_age {s : Sql} {t t' : Table ChallengeRow} (hchange : ChallengeChange t s t')
    (hs : InsertsNone s) : Ages t t' := by
  cases hchange with
  | same => exact ages_refl t
  | inserted id identifier channel hash expires created => exact absurd rfl (hs _ _ _ _ _ _)
  | attempted id =>
      intro r hr
      rcases (mem_update key_attempted).1 hr with ⟨r', hr', _, rfl⟩ | ⟨hr, _⟩
      · exact ⟨r', hr', Nat.le_succ _, rfl⟩
      · exact ⟨r, hr, Nat.le_refl _, rfl⟩
  | consumed id => exact fun r hr => ages_refl t r (mem_erase.1 hr).1
  | deleted _ p => exact fun r hr => ages_refl t r (mem_delete.1 hr).1

/-- The calls that can store a challenge. -/
def storesChallenge : Port → Bool
  | .store (.upsertChallenge _) | .store (.reissuePendingSignup _ _ _ _) => true
  | _ => false

/-- Every other operation leaves at most the challenges it finds. -/
theorem exec_ages (ho : storesChallenge o = false) (c : Choice) (w : World) :
    Ages w.db.challenges (exec env o c w).2.db.challenges := by
  refine exec_db_rel (R := fun db db' => Ages db.challenges db'.challenges)
    (fun _ => ages_refl _) ?_ c
  rintro o' rfl now id pick
  by_cases hn : TableName.challenges ∈ o'.writes
  · -- the remaining calls delete challenges or count attempts
    have huses : (o'.body now id).Uses InsertsNone := by
      cases o' with
      | incrementAttempts | consumeChallenge =>
          exact uses_bind (Store.uses_parseID _ _) fun _ => Store.uses_stmt (by simp [InsertsNone])
      | deleteExpiredChallenges => exact Store.uses_stmt (by simp [InsertsNone])
      | upsertChallenge | reissuePendingSignup => cases ho
      | _ => simp [Store.Op.writes] at hn
    refine Store.exec_rel (R := fun db db' => Ages db.challenges db'.challenges)
      (fun _ => ages_refl _) (fun _ _ _ => ages_trans) ?_ huses pick w.db
    intro s pick db v ws hs heval
    exact challenges_age (eval_challenges heval) hs
  · have hsame : (o'.exec env now id pick w.db).2.challenges = w.db.challenges :=
      Store.exec_same hn now id pick w.db
    rw [hsame]
    exact ages_refl _

theorem stored_before (ho : storesChallenge o = false) (h : stored x (exec env o c w).2 = true) :
    stored x w = true := by
  rw [stored_iff] at h ⊢
  obtain ⟨r, hr, hx⟩ := h
  obtain ⟨r₀, hr₀, _, heq⟩ := exec_ages ho c w r hr
  rw [heq] at hx
  exact ⟨r₀, hr₀, hx⟩

/-! ## One-time codes: histories -/

/-- The challenge an answered call has returned. -/
def lookedUp? : Answered ports → Option OTPChallenge
  | ⟨.store (.getLatestChallenge _ _), .ok ch⟩ => some ch
  | _ => none

/-- The challenge an answered call has consumed. -/
def consumed? : Answered ports → Option String
  | ⟨.store (.consumeChallenge id), .ok _⟩ => some id
  | _ => none

/-- `ch` is the only challenge looked up. -/
def LookedUp (ch : OTPChallenge) (tr : List (Answered ports)) : Prop :=
  ∀ a ∈ tr, ∀ ch', lookedUp? a = some ch' → ch' = ch

/-- The operations that do not look up a challenge. -/
def NoLookup (o : Port) : Prop :=
  ∀ ans, lookedUp? ⟨o, ans⟩ = none

theorem noLookup_of_plain (h : o.plain = true) : NoLookup o := by
  intro ans
  cases o with
  | store o => cases o <;> first | rfl | simp [Port.plain, plainStore] at h
  | _ => rfl

theorem lookedUp_snoc {ch : OTPChallenge} {tr : List (Answered ports)} {a : Answered ports}
    (h : LookedUp ch tr) (ha : NoLookup a.op) : LookedUp ch (tr ++ [a]) := by
  intro b hb ch' hch
  rcases List.mem_append.1 hb with hb | hb
  · exact h b hb ch' hch
  · rw [List.mem_singleton.1 hb, ha a.ans] at hch
    cases hch

/-- The first checks of a verification look up exactly the challenge they return. -/
theorem matchChallenge_traces (cfg : Config) (identifier channel code : String) :
    (matchChallenge cfg identifier channel code).Traces
      (Program.OnOk fun tr res => LookedUp res.1 tr) [] := by
  refine traces_ok_bind (traces_passes (passes_storeOr _ (.getLatestChallenge identifier channel)))
    fun ch tr htr => ?_
  have hlooked : LookedUp ch tr := by
    intro a ha ch' hch
    have ha' : a = ⟨.store (.getLatestChallenge identifier channel), .ok ch⟩ := by
      simpa [htr] using ha
    rw [ha'] at hch
    exact (Option.some.inj hch).symm
  refine traces_ok_bind traces_now fun t tr₁ h₁ => ?_
  refine traces_ok_bind traces_failIf fun _ tr₂ h₂ => ?_
  refine traces_ok_bind traces_failIf fun _ tr₃ h₃ => ?_
  split
  · refine traces_ok_done ?_
    rw [h₃, h₂, h₁]
    exact lookedUp_snoc hlooked (noLookup_of_plain rfl)
  · exact traces_ok_skip fun _ _ => traces_ok_fail _

/-- Every challenge looked up is consumed. -/
def Settled (tr : List (Answered ports)) : Prop :=
  ∀ a ∈ tr, ∀ ch, lookedUp? a = some ch → ∃ b ∈ tr, consumed? b = some ch.id

/-- Consuming the only challenge looked up settles the history, whatever plain calls follow. -/
theorem settled_traces {α : Type} {ch : OTPChallenge} {tr : List (Answered ports)}
    (htr : LookedUp ch tr) {rest : Action α} (hrest : rest.Uses NoLookup) :
    (store (.consumeChallenge ch.id) >>= fun _ => rest).Traces
      (Program.OnOk fun tr _ => Settled tr) tr := by
  let M : List (Answered ports) → Prop := fun tr =>
    LookedUp ch tr ∧ ∃ b ∈ tr, consumed? b = some ch.id
  have hsettled : ∀ tr, M tr → Settled tr := by
    intro tr h a ha ch' hch
    rw [h.1 a ha ch' hch]
    exact h.2
  refine traces_ok_bind (traces_passes (passes_store (.consumeChallenge ch.id)))
    fun _ tr' htr' => ?_
  refine Program.traces_ok_mono (fun tr _ => hsettled tr)
    (Program.traces_ok_inv (M := M) ?_ hrest tr' ?_)
  · rintro tr a ⟨hlooked, b, hb, hcons⟩ ha
    exact ⟨lookedUp_snoc hlooked ha, b, List.mem_append_left _ hb, hcons⟩
  · rw [htr']
    exact ⟨lookedUp_snoc htr fun ans => rfl,
      ⟨.store (.consumeChallenge ch.id), .ok ()⟩, by simp, rfl⟩

/-- The calls that redeem one-time codes. -/
inductive IsVerification : Call → Prop
  | otp (identifier channel code : String) : IsVerification (.verifyOTP identifier channel code)
  | signup (email code password : String) : IsVerification (.verifySignup email code password)

theorem issueTokens_noLookup (cfg : Config) (userID : String) :
    (issueTokens cfg userID).Uses NoLookup :=
  uses_issueTokens (silent_of_plain (fun _ => noLookup_of_plain))
  (fun _ _ _ => rfl) fun _ _ _ _ => rfl

/-- A verification that returned has consumed the challenge it looked up. -/
theorem verification_traces (cfg : Config) {call : Call} (hcall : IsVerification call) :
    (call.program cfg).Traces (Program.OnOk fun tr _ => Settled tr) [] := by
  cases hcall with
  | otp identifier channel code =>
      refine traces_ok_map ?_
      refine traces_ok_bind traces_failIf fun _ tr htr => ?_
      rw [htr]
      refine traces_ok_bind (matchChallenge_traces cfg _ _ _) fun res tr hlooked => ?_
      refine settled_traces hlooked ?_
      refine uses_bind (uses_findOrCreate (silent_of_plain (fun _ => noLookup_of_plain))
        (fun _ _ => rfl) (fun _ _ => rfl) _ _) fun user => ?_
      exact uses_bind (uses_failIf _ _) fun _ => issueTokens_noLookup cfg _
  | signup email code password =>
      refine traces_ok_map ?_
      refine traces_ok_bind traces_failIf fun _ tr htr => ?_
      rw [htr]
      refine traces_ok_bind traces_failIf fun _ tr htr => ?_
      rw [htr]
      refine traces_ok_bind (matchChallenge_traces cfg _ _ _) fun res tr hlooked => ?_
      have hmatch : (matchSignup cfg res.1 (cfg.env.normalizeEmail email) password).Uses NoLookup :=
        uses_matchSignup (silent_of_plain (fun _ => noLookup_of_plain)) _ _ _
      refine traces_ok_bind (Program.traces_ok_inv (M := LookedUp res.1)
        (fun _ _ => lookedUp_snoc) hmatch tr hlooked) fun user tr hlooked => ?_
      refine settled_traces hlooked ?_
      exact uses_bind (uses_storeMapping fun _ => rfl) fun _ => issueTokens_noLookup cfg _

/-! ## One-time codes: runs -/

/-- The logged call consumed the challenge `x`. -/
def consumes (x : Uuid) (e : Entry ports World) : Bool :=
  (consumed? e.answered).bind Uuid.parse == some x

/-- A step that consumes a challenge is taken while the challenge is stored. -/
def StillStored (p : ServicePool) (i : Nat) (_ : Choice) : Prop :=
  ∀ id x, p.head? i = some (.store (.consumeChallenge id)) → Uuid.parse id = some x →
    stored x p.world = true

theorem consumes_after (h : consumes x ⟨i, o, (exec env o c w).1, w, (exec env o c w).2⟩ = true) :
    ∃ id, o = .store (.consumeChallenge id) ∧ Uuid.parse id = some x ∧
      stored x (exec env o c w).2 = false := by
  cases o with
  | store o =>
      cases o with
      | consumeChallenge id =>
          cases hres : (exec env (.store (.consumeChallenge id)) c w).1 with
          | error e => simp [consumes, Entry.answered, hres, consumed?] at h
          | ok v =>
              have hparse : Uuid.parse id = some x := by
                simpa [consumes, Entry.answered, hres, consumed?] using h
              rcases exec_store_ok hres with ⟨hanswer, hdb⟩
              rcases Store.exec_consumeChallenge_ok hanswer with ⟨u, hu, hafter⟩
              have hux : u = x := Option.some.inj (hu.symm.trans hparse)
              refine ⟨id, rfl, hparse, ?_⟩
              simp [stored, hdb, hafter, hux]
      | _ => simp [consumes, Entry.answered, consumed?] at h
  | _ => simp [consumes, Entry.answered, consumed?] at h

theorem consume_balanced (x : Uuid) (hok : StillStored p i c) (hi : p.head? i = some o) :
    Pool.Balanced (stored x) (consumes x) (fun e => storesChallenge e.op)
      ⟨i, o, (exec env o c p.world).1, p.world, (exec env o c p.world).2⟩ := by
  refine ⟨?_, ?_⟩
  · intro h
    rcases consumes_after h with ⟨id, rfl, hparse, hafter⟩
    exact ⟨hok id x hi hparse, hafter⟩
  · intro hbefore hafter
    cases ho : storesChallenge o with
    | true => rfl
    | false =>
        have := stored_before ho hafter
        rw [hbefore] at this
        cases this

/-- Call `i` has returned a token pair for the challenge `x`. -/
def Redeems (p : ServicePool) (x : Uuid) (i : Nat) : Prop :=
  gotTokens p i = true ∧ x.string ∈ ((p.history i).filterMap lookedUp?).map OTPChallenge.id

def RedeemedOnce (p : ServicePool) : Prop :=
  ∀ x i j, Redeems p x i → Redeems p x j → i = j

section Challenges

variable {cfg : Config} {calls : List Call} {w : World} {sched : Schedule}

/-- Whoever redeems a challenge has consumed it. -/
theorem redeems_consumes (hcalls : ∀ call ∈ calls, IsVerification call)
    (h : Redeems (runOn cfg (serve cfg w calls) sched) x i) :
    ∃ e ∈ (runOn cfg (serve cfg w calls) sched).log, e.thread = i ∧ consumes x e = true := by
  rcases gotTokens_iff.1 h.1 with ⟨pair, hpair⟩
  rcases serve_call hpair with ⟨call, hi⟩
  have hsettled : Settled ((runOn cfg (serve cfg w calls) sched).history i) :=
    serve_history hi (verification_traces cfg (hcalls call (List.mem_of_getElem? hi))) hpair
  rcases List.mem_map.1 h.2 with ⟨ch, hch, hid⟩
  rcases List.mem_filterMap.1 hch with ⟨a, ha, hlooked⟩
  rcases hsettled a ha ch hlooked with ⟨b, hb, hcons⟩
  rcases Pool.mem_history hb with ⟨e, he, hthread, rfl⟩
  refine ⟨e, he, hthread, ?_⟩
  simp [consumes, hcons, hid]

/-- Verifications do not store challenges. -/
theorem verification_uses {call : Call} (hcall : IsVerification call) :
    (call.program cfg).Uses fun o => storesChallenge o = false := by
  have hplain : ∀ o : Port, o.plain = true → storesChallenge o = false := by
    intro o h
    cases o with
    | store o => cases o <;> first | rfl | simp [Port.plain, plainStore] at h
    | _ => rfl
  cases hcall with
  | otp identifier channel code =>
      exact uses_map (uses_verifyOTP (silent_of_plain hplain) (fun _ _ => rfl) (fun _ => rfl)
        (fun _ => rfl) (fun _ => rfl) (fun _ _ _ => rfl) fun _ _ _ _ => rfl) _
  | signup email code password =>
      exact uses_map (uses_verifySignup (silent_of_plain hplain) (fun _ => rfl) (fun _ => rfl)
        (fun _ _ => rfl) (fun _ _ _ => rfl) fun _ _ _ _ => rfl) _

/-- One-time codes are single use as long as consuming finds its row. -/
theorem challenge_redeemed_once (hcalls : ∀ call ∈ calls, IsVerification call)
    (hok : Pool.Along (exec cfg.env) StillStored (serve cfg w calls) sched) :
    RedeemedOnce (runOn cfg (serve cfg w calls) sched) := by
  intro x i j hi hj
  by_contra hne
  -- each redeeming call consumed the challenge once, and no verification stores a new one
  have htwo : [i, j].length ≤
      (runOn cfg (serve cfg w calls) sched).log.countP (consumes x) := by
    refine Pool.length_le_spends (by simpa using hne) ?_
    intro k hk
    rcases List.mem_pair.1 hk with rfl | rfl
    · exact redeems_consumes hcalls hi
    · exact redeems_consumes hcalls hj
  have hone : (runOn cfg (serve cfg w calls) sched).log.countP (consumes x) ≤
      (stored x w).toNat +
        (runOn cfg (serve cfg w calls) sched).log.countP fun e => storesChallenge e.op := by
    refine Pool.spends_le ?_ hok
    intro p i c o hstep hi
    exact consume_balanced x hstep hi
  have hnone : (runOn cfg (serve cfg w calls) sched).log.countP
      (fun e => storesChallenge e.op) = 0 := by
    rw [List.countP_eq_zero]
    intro e he
    have huses : ∀ q ∈ calls.map (Call.program cfg), q.Uses fun o => storesChallenge o = false := by
      intro q hq
      rcases List.mem_map.1 hq with ⟨call, hcall, rfl⟩
      exact verification_uses (hcalls call hcall)
    simp [Pool.run_uses huses sched e he]
  have hle := Bool.toNat_le (stored x w)
  simp only [List.length_cons, List.length_nil] at htwo
  omega

end Challenges

/-- A code was requested for the address; its challenge has the identifier five. -/
def requested : World :=
  ((Call.requestOTP "ann@example.com" "email" "").perform toyConfig
    (fun n => { now := 1000, id := Uuid.ofNat n, code := "123456", flag := true }) World.empty).2

def twoVerifications : List Call :=
  [.verifyOTP "ann@example.com" "email" "123456", .verifyOTP "ann@example.com" "email" "123456"]

instance (p : ServicePool) (x : Uuid) (i : Nat) : Decidable (Redeems p x i) :=
  inferInstanceAs (Decidable (_ ∧ _))

/-- The condition of `StillStored` as a test. -/
def finds (p : ServicePool) (i : Nat) (_ : Choice) : Bool :=
  match p.head? i with
  | some (.store (.consumeChallenge id)) => (Uuid.parse id).all fun x => stored x p.world
  | _ => true

theorem stillStored_of_finds (h : finds p i c = true) : StillStored p i c := by
  intro id x hi hparse
  simpa [finds, hi, hparse] using h

set_option maxRecDepth 10000 in
theorem challenge_redeemed_once_serial :
    Redeems (runOn toyConfig (serve toyConfig requested twoVerifications)
        (turns 0 2000 20 12 ++ turns 1 3000 40 12)) (Uuid.ofNat 5) 0 ∧
      RedeemedOnce (runOn toyConfig (serve toyConfig requested twoVerifications)
        (turns 0 2000 20 12 ++ turns 1 3000 40 12)) := by
  obtain ⟨hredeems, hfinds⟩ :
      Redeems (runOn toyConfig (serve toyConfig requested twoVerifications)
        (turns 0 2000 20 12 ++ turns 1 3000 40 12)) (Uuid.ofNat 5) 0 ∧
      Pool.Along (exec toyConfig.env) (fun p i c => finds p i c = true)
        (serve toyConfig requested twoVerifications)
        (turns 0 2000 20 12 ++ turns 1 3000 40 12) := by
    decide +kernel
  refine ⟨hredeems, challenge_redeemed_once ?_ ?_⟩
  · intro call hcall
    rw [List.mem_pair.1 hcall |>.elim id id]
    constructor
  · exact Pool.along_mono (fun _ _ _ => stillStored_of_finds) _ _ hfinds

set_option maxRecDepth 10000 in
/-- Both calls look the challenge up before either consumes it, and both return a token pair. -/
theorem challenge_redeemed_twice :
    ¬ RedeemedOnce (runOn toyConfig (serve toyConfig requested twoVerifications)
      (turns 0 2000 20 2 ++ turns 1 2000 40 2 ++ turns 0 3000 60 12 ++ turns 1 3000 80 12)) := by
  intro h
  have hboth : Redeems (runOn toyConfig (serve toyConfig requested twoVerifications)
        (turns 0 2000 20 2 ++ turns 1 2000 40 2 ++ turns 0 3000 60 12 ++ turns 1 3000 80 12))
        (Uuid.ofNat 5) 0 ∧
      Redeems (runOn toyConfig (serve toyConfig requested twoVerifications)
        (turns 0 2000 20 2 ++ turns 1 2000 40 2 ++ turns 0 3000 60 12 ++ turns 1 3000 80 12))
        (Uuid.ofNat 5) 1 := by decide +kernel
  exact absurd (h _ _ _ hboth.1 hboth.2) (by decide)

/-! ## Refresh tokens: rows -/

/-- A token with this hash is stored and not revoked. -/
def usable (tokenHash : String) (w : World) : Bool :=
  w.db.refreshTokens.any fun r => r.tokenHash = tokenHash && r.revokedAt.isNone

theorem usable_iff :
    usable tokenHash w = true ↔
      ∃ r ∈ w.db.refreshTokens, r.tokenHash = tokenHash ∧ r.revokedAt = none := by
  simp [usable]

/-- Only storing a token makes its hash usable. -/
theorem token_before {now : Time} {s : Sql} {t t' : Table RefreshRow}
    (hchange : RefreshChange now t s t')
    (hs : ∀ id user org expires, s ≠ .storeRefreshToken id user org tokenHash expires)
    (h : ∃ r ∈ t', r.tokenHash = tokenHash ∧ r.revokedAt = none) :
    ∃ r ∈ t, r.tokenHash = tokenHash ∧ r.revokedAt = none := by
  rcases h with ⟨r, hr, hhash, hlive⟩
  cases hchange with
  | same => exact ⟨r, hr, hhash, hlive⟩
  | stored id user org hash' expires r' _ hr' =>
      rcases mem_put.1 hr with rfl | ⟨hr, _⟩
      · have : hash' = tokenHash := hr'.symm.trans hhash
        exact absurd (this ▸ rfl) (hs id user org expires)
      · exact ⟨r, hr, hhash, hlive⟩
  | revoked hash' =>
      rcases (mem_update (key_revoked now)).1 hr with ⟨r', _, _, rfl⟩ | ⟨hr, _⟩
      · cases hlive
      · exact ⟨r, hr, hhash, hlive⟩

/-- The token an answered call has stored. -/
def storedToken? : Answered ports → Option String
  | ⟨.store (.storeRefresh _ _ tokenHash _), .ok _⟩ => some tokenHash
  | _ => none

/-- Every other call leaves at most the usable tokens it finds. -/
theorem usable_before (ho : storedToken? ⟨o, (exec env o c w).1⟩ ≠ some tokenHash)
    (h : usable tokenHash (exec env o c w).2 = true) : usable tokenHash w = true := by
  rw [usable_iff] at h ⊢
  by_cases hstore : ∃ user org t, o = .store (.storeRefresh user org tokenHash t)
  · -- storing this very token has failed
    rcases hstore with ⟨user, org, t, rfl⟩
    cases hres : (exec env (.store (.storeRefresh user org tokenHash t)) c w).1 with
    | ok v => exact absurd (by rw [hres]; rfl) ho
    | error e => rwa [exec_store_error hres] at h
  · refine exec_db_rel
      (R := fun db db' => (∃ r ∈ db'.refreshTokens, r.tokenHash = tokenHash ∧ r.revokedAt = none) →
        ∃ r ∈ db.refreshTokens, r.tokenHash = tokenHash ∧ r.revokedAt = none)
      (fun _ h => h) ?_ c h
    rintro o' rfl now id pick
    by_cases hn : TableName.refreshTokens ∈ o'.writes
    · have huses : (o'.body now id).Uses fun s : Sql => ∀ id user org expires,
          s ≠ .storeRefreshToken id user org tokenHash expires := by
        cases o' with
        | storeRefresh user org hash' t =>
            refine Store.uses_storeRefresh ?_
            rintro u g e _ id' user' org' expires heq
            cases heq
            exact hstore ⟨user, org, t, rfl⟩
        | revoke hash' => exact Store.uses_stmt (by simp)
        | _ => simp [Store.Op.writes] at hn
      refine Store.exec_rel
        (R := fun db db' =>
          (∃ r ∈ db'.refreshTokens, r.tokenHash = tokenHash ∧ r.revokedAt = none) →
            ∃ r ∈ db.refreshTokens, r.tokenHash = tokenHash ∧ r.revokedAt = none)
        (fun _ h => h) (fun _ _ _ h₁ h₂ h => h₁ (h₂ h)) ?_ huses pick w.db
      intro s pick db v ws hs heval
      exact token_before (eval_refreshTokens heval) hs
    · have hsame : (o'.exec env now id pick w.db).2.refreshTokens = w.db.refreshTokens :=
        Store.exec_same hn now id pick w.db
      rw [hsame]
      exact fun h => h

/-- A revocation that does not fail leaves nothing usable. -/
theorem revoke_after (hc : c.fails = false) (w : World) :
    usable tokenHash (exec env (.store (.revoke tokenHash)) c w).2 = false := by
  have hrows : (exec env (.store (.revoke tokenHash)) c w).2.db.refreshTokens =
      w.db.refreshTokens.update (fun r => r.tokenHash = tokenHash)
        (RefreshRow.revoked (max w.now c.now)) := by
    rw [exec_store_runs env _ hc]
    exact Store.exec_revoke_refreshTokens tokenHash
  simp only [usable, hrows, any_eq_false]
  intro r hr
  rcases (mem_update (key_revoked _)).1 hr with ⟨r', _, _, rfl⟩ | ⟨_, hne⟩
  · simp [RefreshRow.revoked]
  · simp only [decide_eq_false_iff_not] at hne
    simp [hne]

/-! ## Refresh tokens: runs -/

/-- The hash of the refresh token a call presents. -/
def presented? (cfg : Config) : Call → Option String
  | .refresh token => some (cfg.env.hashRefreshToken token)
  | .selectOrg _ token _ => some (cfg.env.hashRefreshToken token)
  | _ => none

def revoked? : Port → Option String
  | .store (.revoke tokenHash) => some tokenHash
  | _ => none

/-- A call that presented a token and returned has called its revocation. -/
theorem rotation_traces (cfg : Config) {call : Call}
    (hcall : presented? cfg call = some tokenHash) :
    (call.program cfg).Traces
      (Program.OnOk fun tr _ => ∃ a ∈ tr, revoked? a.op = some tokenHash) [] := by
  have hrevoked : ∀ {α : Type} (rest : Action α) (tr : List (Answered ports)),
      (ignore (.revoke tokenHash) >>= fun _ => rest).Traces
        (Program.OnOk fun tr _ => ∃ a ∈ tr, revoked? a.op = some tokenHash) tr := by
    intro α rest tr
    refine traces_ok_bind traces_ignore fun _ tr' htr => ?_
    rcases htr with ⟨r, rfl⟩
    exact Program.traces_ok_of_extends fun more _ => ⟨⟨.store (.revoke tokenHash), r⟩, by simp, rfl⟩
  cases call with
  | refresh token =>
      cases hcall
      exact traces_ok_map (traces_ok_skip fun _ tr => hrevoked _ tr)
  | selectOrg userID token orgID =>
      cases hcall
      refine traces_ok_map ?_
      refine traces_ok_skip fun _ _ => traces_ok_skip fun active _ => ?_
      refine traces_ok_skip fun _ _ => traces_ok_skip fun found _ => ?_
      exact traces_ok_skip fun _ tr => hrevoked _ tr
  | _ => cases hcall

/-- A step that revokes a token reaches the database and finds the token still usable. -/
def StillUsable (p : ServicePool) (i : Nat) (c : Choice) : Prop :=
  ∀ tokenHash, p.head? i = some (.store (.revoke tokenHash)) →
    c.fails = false ∧ usable tokenHash p.world = true

theorem revoke_balanced (tokenHash : String) (hok : StillUsable p i c) (hi : p.head? i = some o) :
    Pool.Balanced (usable tokenHash) (fun e => revoked? e.op == some tokenHash)
      (fun e => storedToken? e.answered == some tokenHash)
      ⟨i, o, (exec env o c p.world).1, p.world, (exec env o c p.world).2⟩ := by
  refine ⟨?_, ?_⟩
  · intro h
    have hrevoke : o = .store (.revoke tokenHash) := by
      cases o with
      | store o => cases o <;> simp_all [revoked?]
      | _ => simp [revoked?] at h
    subst hrevoke
    rcases hok tokenHash hi with ⟨hc, hbefore⟩
    exact ⟨hbefore, revoke_after hc p.world⟩
  · intro hbefore hafter
    rw [beq_iff_eq]
    by_contra hne
    have := usable_before hne hafter
    rw [hbefore] at this
    cases this

/-- Call `i` has exchanged a token with this hash for a new pair. -/
def Exchanges (cfg : Config) (calls : List Call) (p : ServicePool) (tokenHash : String) (i : Nat) :
    Prop :=
  gotTokens p i = true ∧ calls[i]?.bind (presented? cfg) = some tokenHash

/-- No token is exchanged more often than it was usable at the start or was stored since. -/
def ExchangedOnce (cfg : Config) (calls : List Call) (w : World) (p : ServicePool) : Prop :=
  ∀ tokenHash (is : List Nat), is.Nodup → (∀ i ∈ is, Exchanges cfg calls p tokenHash i) →
    is.length ≤ (usable tokenHash w).toNat +
      p.log.countP fun e => storedToken? e.answered == some tokenHash

/-- Refresh tokens are single use as long as revoking finds its row. -/
theorem refresh_exchanged_once {cfg : Config} {calls : List Call} {w : World} {sched : Schedule}
    (hok : Pool.Along (exec cfg.env) StillUsable (serve cfg w calls) sched) :
    ExchangedOnce cfg calls w (runOn cfg (serve cfg w calls) sched) := by
  intro tokenHash is hnodup his
  have hspent : is.length ≤ (runOn cfg (serve cfg w calls) sched).log.countP
      fun e => revoked? e.op == some tokenHash := by
    refine Pool.length_le_spends hnodup ?_
    intro i hi
    rcases gotTokens_iff.1 (his i hi).1 with ⟨pair, hpair⟩
    rcases Option.bind_eq_some_iff.1 (his i hi).2 with ⟨call, hcall, hpresented⟩
    rcases serve_history hcall (rotation_traces cfg hpresented) hpair with ⟨a, ha, hrevoked⟩
    rcases Pool.mem_history ha with ⟨e, he, hthread, rfl⟩
    exact ⟨e, he, hthread, beq_iff_eq.2 hrevoked⟩
  refine Nat.le_trans hspent (Pool.spends_le ?_ hok)
  intro p i c o hstep hi
  exact revoke_balanced tokenHash hstep hi

/-- The address has logged in with its code; the refresh token is made of two drawn identifiers. -/
def loggedIn : World :=
  ((Call.verifyOTP "ann@example.com" "email" "123456").perform toyConfig
    (fun n => { now := 2000, id := Uuid.ofNat n }) requested).2

def refreshToken : String :=
  (Uuid.ofNat 8).string ++ (Uuid.ofNat 9).string

def twoRefreshes : List Call :=
  [.refresh refreshToken, .refresh refreshToken]

instance (cfg : Config) (calls : List Call) (p : ServicePool) (tokenHash : String) (i : Nat) :
    Decidable (Exchanges cfg calls p tokenHash i) :=
  inferInstanceAs (Decidable (_ ∧ _))

/-- The condition of `StillUsable` as a test. -/
def revokesUsable (p : ServicePool) (i : Nat) (c : Choice) : Bool :=
  match p.head? i with
  | some (.store (.revoke tokenHash)) => !c.fails && usable tokenHash p.world
  | _ => true

theorem stillUsable_of_revokesUsable (h : revokesUsable p i c = true) : StillUsable p i c := by
  intro tokenHash hi
  simpa [revokesUsable, hi] using h

set_option maxRecDepth 10000 in
theorem refresh_exchanged_once_serial :
    Exchanges toyConfig twoRefreshes (runOn toyConfig (serve toyConfig loggedIn twoRefreshes)
        (turns 0 3000 40 12 ++ turns 1 4000 60 12)) (toyEnv.hashRefreshToken refreshToken) 0 ∧
      ExchangedOnce toyConfig twoRefreshes loggedIn
        (runOn toyConfig (serve toyConfig loggedIn twoRefreshes)
          (turns 0 3000 40 12 ++ turns 1 4000 60 12)) := by
  obtain ⟨hexchanges, husable⟩ :
      Exchanges toyConfig twoRefreshes (runOn toyConfig (serve toyConfig loggedIn twoRefreshes)
        (turns 0 3000 40 12 ++ turns 1 4000 60 12)) (toyEnv.hashRefreshToken refreshToken) 0 ∧
      Pool.Along (exec toyConfig.env) (fun p i c => revokesUsable p i c = true)
        (serve toyConfig loggedIn twoRefreshes) (turns 0 3000 40 12 ++ turns 1 4000 60 12) := by
    decide +kernel
  refine ⟨hexchanges, refresh_exchanged_once ?_⟩
  exact Pool.along_mono (fun _ _ _ => stillUsable_of_revokesUsable) _ _ husable

set_option maxRecDepth 10000 in
/-- Both calls find the token valid before either revokes it, and both return a new pair. -/
theorem refresh_exchanged_twice :
    ¬ ExchangedOnce toyConfig twoRefreshes loggedIn
      (runOn toyConfig (serve toyConfig loggedIn twoRefreshes)
        (turns 0 3000 40 1 ++ turns 1 3000 60 1 ++ turns 0 4000 80 12 ++ turns 1 4000 100 12)) := by
  intro h
  have hrun : (∀ i ∈ [0, 1], Exchanges toyConfig twoRefreshes
        (runOn toyConfig (serve toyConfig loggedIn twoRefreshes)
          (turns 0 3000 40 1 ++ turns 1 3000 60 1 ++ turns 0 4000 80 12 ++ turns 1 4000 100 12))
        (toyEnv.hashRefreshToken refreshToken) i) ∧
      (usable (toyEnv.hashRefreshToken refreshToken) loggedIn).toNat +
        ((runOn toyConfig (serve toyConfig loggedIn twoRefreshes)
          (turns 0 3000 40 1 ++ turns 1 3000 60 1 ++ turns 0 4000 80 12 ++
            turns 1 4000 100 12)).log.countP
          fun e => storedToken? e.answered == some (toyEnv.hashRefreshToken refreshToken)) = 1 := by
    decide +kernel
  have htwo := h _ [0, 1] (by decide) hrun.1
  rw [hrun.2] at htwo
  exact absurd htwo (by decide)

end SingleUse
end Service
end OrbitAuth
