import OrbitAuth.Safety.Issuing
import OrbitAuth.Safety.Superseded

/-!
# Rotation — what a failed exchange of a session costs

`Refresh` and `SelectOrg` take a session and answer with the next one.  The presented token is
revoked before its replacement is signed and stored, so between the two the caller has no session at
all, and nothing brings the old one back when the signer or the store fails there.

* `Session` — a refresh token that is accepted at an instant, with its account and organization;
* `Rotates` — the three ways a rotation can end;
* `keepsSessions_iff` — the calls that keep the sessions when they fail.
-/

namespace OrbitAuth
namespace Service
namespace Rotation

open Domain Foundations Postgres Disabled Issuing

/-! ## Sessions -/

/-- At the instant `t` a refresh token with this hash is accepted, for this account and
organization. -/
def Session (t : Time) (db : DB) (tokenHash : String) (user : Uuid) (org : Option Uuid) : Prop :=
  ∃ r ∈ db.refreshTokens, r.valid t tokenHash = true ∧ r.userID = user ∧ r.orgID = org

/-- If the call fails, the sessions are those of before, now and later. -/
def KeepsSessions (cfg : Config) (call : Call) (choices : Nat → Choice) (w : World) : Prop :=
  ∀ e, (call.perform cfg choices w).1 = .error e → ∀ t tokenHash user org,
    Session t (call.perform cfg choices w).2.db tokenHash user org ↔
    Session t w.db tokenHash user org

inductive IsRotation : Call → Prop
  | refresh (refreshToken : String) : IsRotation (.refresh refreshToken)
  | selectOrg (userID refreshToken orgID : String) :
      IsRotation (.selectOrg userID refreshToken orgID)

/-- `Revoke` was performed and did not fail. -/
def revokes (d : Done) : Bool :=
  match d.op with
  | .store (.revoke _) => !d.choice.fails
  | _ => false

/-- Once the presented token is revoked, what issues its replacement gets through. -/
def Replaced (db : DB) (tr : List Done) : Prop :=
  tr.any revokes = true → ∀ d ∈ tr, essential d.op = true → through db d = true

/-- The sessions of the presented token are over. -/
def Spent (before after : DB) (tokenHash : String) : Prop :=
  ∃ t, ∃ r ∈ before.refreshTokens, r.valid t tokenHash = true ∧
    ∀ s ∈ after.refreshTokens, s.tokenHash = tokenHash → s.revokedAt ≠ none

inductive Rotates (w : World) (tokenHash : String) : Except Err TokenPair → World → List Done → Prop
  | refused {e : Err} {w' : World} {tr : List Done} (hdb : w'.db = w.db)
      (hkept : tr.any revokes = false) :
      Rotates w tokenHash (.error e) w' tr
  | lost {e : Err} {w' : World} {tr : List Done} (hrevoked : tr.any revokes = true)
      (hspent : Spent w.db w'.db tokenHash)
      (hcause : ∃ d ∈ tr, essential d.op = true ∧ through w.db d = false) :
      Rotates w tokenHash (.error e) w' tr
  | rotated {pair : TokenPair} {w' : World} {tr : List Done}
      (hthrough : ∀ d ∈ tr, essential d.op = true → through w.db d = true) :
      Rotates w tokenHash (.ok pair) w' tr

/-- A spent token's session is gone. -/
theorem not_session_of_spent {before after : DB} {tokenHash : String}
    (h : Spent before after tokenHash) :
    ∃ t user org, Session t before tokenHash user org ∧ ¬ Session t after tokenHash user org := by
  obtain ⟨t, r, hr, hvalid, hgone⟩ := h
  refine ⟨t, r.userID, r.orgID, ⟨r, hr, hvalid, rfl, rfl⟩, ?_⟩
  rintro ⟨s, hs, hvalid', _, _⟩
  have hparts : (s.tokenHash = tokenHash ∧ t < s.expiresAt) ∧ s.revokedAt.isNone = true := by
    simpa [RefreshRow.valid] using hvalid'
  exact hgone s hs hparts.1.1 (Option.isNone_iff_eq_none.mp hparts.2)

/-! ## Before the replacement -/

/-- Nothing was issued yet; `w'` differs from `w` at most in the revocation of the presented token.
-/
structure Before (w : World) (tokenHash : String) (w' : World) (tr : List Done) : Prop where
  ids : ∀ id, w'.db.refreshTokens.any (fun r => r.id = id) =
    w.db.refreshTokens.any fun r => r.id = id
  kept : tr.any revokes = false → w'.db = w.db
  spent : tr.any revokes = true → Spent w.db w'.db tokenHash
  unissued : ∀ d ∈ tr, essential d.op = false

section Before

variable {cfg : Config} {env : Env} {ok : Port → Choice → World → Prop} {w w' w'' : World}
  {tokenHash : String} {tr : List Done}

theorem before_refl (w : World) (tokenHash : String) : Before w tokenHash w [] :=
  ⟨fun _ => rfl, fun _ => rfl, fun h => (nomatch h), fun _ hd => (nomatch hd)⟩

/-- A lookup. -/
theorem before_lookup {o : Port} {c : Choice} (h : Before w tokenHash w' tr) (hdb : w''.db = w'.db)
    (hrevokes : revokes (⟨o, c, w'⟩ : Done) = false) (hissues : essential o = false) :
    Before w tokenHash w'' (tr ++ [⟨o, c, w'⟩]) := by
  have hany : (tr ++ [(⟨o, c, w'⟩ : Done)]).any revokes = tr.any revokes := by
    rw [any_snoc, hrevokes, Bool.or_false]
  refine ⟨?_, ?_, ?_, forall_snoc h.unissued hissues⟩
  · rw [hdb]
    exact h.ids
  · rw [hany, hdb]
    exact h.kept
  · rw [hany, hdb]
    exact h.spent

theorem stored_revoke (env : Env) (c : Choice) (w : World) (tokenHash : String) :
    (stored env (.revoke tokenHash) c w).db.refreshTokens =
      w.db.refreshTokens.update (fun r => r.tokenHash = tokenHash)
        (RefreshRow.revoked (max w.now c.now)) :=
  Store.exec_revoke_refreshTokens tokenHash

theorem key_revoked (t : Time) (r : RefreshRow) : Keyed.key (r.revoked t) = Keyed.key r :=
  rfl

/-- Revoking changes no identifier. -/
theorem revoked_ids (env : Env) (c : Choice) (w : World) (tokenHash : String) (id : Uuid) :
    (stored env (.revoke tokenHash) c w).db.refreshTokens.any (fun r => r.id = id) =
      w.db.refreshTokens.any fun r => r.id = id := by
  rw [Bool.eq_iff_iff, any_eq_true, any_eq_true, stored_revoke]
  constructor
  · rintro ⟨r, hr, hid⟩
    rcases (mem_update (key_revoked _)).1 hr with ⟨s, hs, _, rfl⟩ | ⟨hr, _⟩
    · exact ⟨s, hs, hid⟩
    · exact ⟨r, hr, hid⟩
  · rintro ⟨r, hr, hid⟩
    by_cases hhash : r.tokenHash = tokenHash
    · exact ⟨_, (mem_update (key_revoked _)).2 (.inl ⟨r, hr, decide_eq_true hhash, rfl⟩), hid⟩
    · exact ⟨r, (mem_update (key_revoked _)).2 (.inr ⟨hr, decide_eq_false hhash⟩), hid⟩

/-- Revoking leaves no token with the hash unrevoked. -/
theorem revoked_hash (env : Env) (c : Choice) (w : World) (tokenHash : String) :
    ∀ s ∈ (stored env (.revoke tokenHash) c w).db.refreshTokens, s.tokenHash = tokenHash →
      s.revokedAt ≠ none := by
  rw [stored_revoke]
  intro s hs hhash
  rcases (mem_update (key_revoked _)).1 hs with ⟨r, _, _, rfl⟩ | ⟨_, hother⟩
  · exact fun hnone => nomatch hnone
  · exact absurd hhash (of_decide_eq_false hother)

/-- The presented token, found valid, is revoked; that the revocation fails goes unnoticed. -/
theorem ignore_revoke_ends (h : Before w tokenHash w' tr) (hkept : tr.any revokes = false)
    (hvalid : ∃ t, ∃ r ∈ w.db.refreshTokens, r.valid t tokenHash = true) :
    (ignore (.revoke tokenHash)).Ends (exec env) ok
      (fun res w'' tr' => res = .ok () ∧ Before w tokenHash w'' tr') w' tr := by
  refine .call fun c _ => .done ⟨rfl, ?_⟩
  cases hf : c.fails with
  | true =>
      rw [exec_store_fails env _ hf]
      exact before_lookup h rfl (by simp [revokes, hf]) rfl
  | false =>
      have hdb := h.kept hkept
      have hrevokes : revokes (⟨.store (.revoke tokenHash), c, w'⟩ : Done) =
        true := by simp [revokes, hf]
      obtain ⟨t, r, hr, hrvalid⟩ := hvalid
      rw [exec_store_runs env _ hf]
      refine ⟨fun id => ?_, fun hnone => ?_, fun _ => ?_, forall_snoc h.unissued rfl⟩
      · exact (revoked_ids env c w' tokenHash id).trans (h.ids id)
      · rw [any_snoc, hrevokes, Bool.or_true] at hnone
        cases hnone
      · exact ⟨t, r, hr, hrvalid, revoked_hash env c w' tokenHash⟩

/-- Asking for a membership is a lookup, and only an organization of the store has an active member.
-/
theorem isActiveMember_ends {orgID userID : String} (h : Before w tokenHash w' tr) :
    (isActiveMember orgID userID).Ends (exec env) ok
      (fun res w'' tr' => Before w tokenHash w'' tr' ∧
      (tr'.any revokes = tr.any revokes) ∧
      (res = .ok true → ∃ org, Uuid.parse (trimSpace orgID) = some org)) w' tr := by
  refine ends_check (fun _ => ?_) fun _ => ⟨h, rfl, fun hres => (nomatch hres)⟩
  refine ends_bind (M := fun res w'' tr' => Before w tokenHash w'' tr' ∧
      (tr'.any revokes = tr.any revokes) ∧
      ∀ m, res = .ok (.ok m) → ∃ org, Uuid.parse (trimSpace orgID) = some org) ?_ ?_ ?_
  · refine ends_tryStore ?_ ?_
    · intro c m _ _ hm
      obtain ⟨r, _, horg, _, _⟩ := Store.exec_getMembership_ok hm
      have hdb : (stored env (.getMembership (trimSpace orgID) (trimSpace userID)) c w').db =
          w'.db :=
        Store.exec_reads rfl _ _ _ _
      exact ⟨before_lookup h hdb rfl rfl, by simp [revokes], fun _ _ => ⟨r.orgID, horg⟩⟩
    · intro c e _ _
      exact ⟨before_lookup h rfl rfl rfl, by simp [revokes], fun _ hres => (nomatch hres)⟩
  · rintro (e | m) w'' tr' ⟨h', hany, horg⟩
    · dsimp only
      split
      · exact .done ⟨h', hany, fun hres => (nomatch hres)⟩
      · exact .fail ⟨h', hany, fun hres => (nomatch hres)⟩
    · exact .done ⟨h', hany, fun _ => horg m rfl⟩
  · rintro e w'' tr' ⟨h', hany, _⟩
    exact ⟨h', hany, fun hres => (nomatch hres)⟩

/-- The organization that a refreshed session keeps. -/
theorem activeOrg_ends {userID orgID : String} (horg : OrgText orgID)
    (h : Before w tokenHash w' tr) :
    (activeOrg userID orgID).Ends (exec env) ok (fun res w'' tr' =>
      (∃ org, res = .ok org ∧ OrgText org) ∧ Before w tokenHash w'' tr') w' tr := by
  unfold activeOrg
  split
  · exact .done ⟨⟨_, rfl, .inl rfl⟩, h⟩
  · refine ends_bind (M := fun res w'' tr' => (∃ active, res = .ok active) ∧
        Before w tokenHash w'' tr') ?_ ?_ fun _ _ _ h' => h'.1.elim fun _ hres => nomatch hres
    · refine Program.ends_reify (ends_mono ?_ (isActiveMember_ends h))
      intro res w'' tr' h'
      exact ⟨⟨res, rfl⟩, h'.1⟩
    · rintro active w'' tr' ⟨_, h'⟩
      split
      · exact .done ⟨⟨_, rfl, horg⟩, h'⟩
      · exact .done ⟨⟨_, rfl, .inl rfl⟩, h'⟩

end Before

/-! ## The replacement -/

section Replacement

variable {cfg : Config} {env : Env} {ok : Port → Choice → World → Prop} {w w' : World}
  {tokenHash orgID : String} {tr : List Done}

theorem revokes_of_issuing {d : Done} (h : issuing d.op = true) : revokes d = false := by
  unfold revokes
  split
  · rename_i hop
    rw [hop] at h
    cases h
  · rfl

theorem any_revokes_append {more : List Done} (h : ∀ d ∈ more, issuing d.op = true) :
    (tr ++ more).any revokes = tr.any revokes := by
  have hnone : more.any revokes = false := by
    rw [List.any_eq_false]
    intro d hd
    rw [revokes_of_issuing (h d hd)]
    exact Bool.false_ne_true
  rw [List.any_append, hnone, Bool.or_false]

/-- What gets through to the replacement does not depend on the revocation. -/
theorem through_of_before (h : Before w tokenHash w' tr) {d : Done} (hd : essential d.op = true) :
    through w'.db d = through w.db d := by
  unfold through
  congr 1
  unfold essential at hd
  split at hd
  · rename_i hop
    rw [hop]
    rfl
  · rename_i hop
    rw [hop]
    exact congrArg (! ·) (h.ids d.choice.id)
  · cases hd

/-- The pair comes out, or the session is lost exactly if it was revoked. -/
theorem replacement_ends (u : Uuid) (horg : OrgText orgID) (h : Before w tokenHash w' tr) :
    (issueTokensForOrg cfg u.string orgID).Ends (exec cfg.env) ok (Rotates w tokenHash) w' tr := by
  refine ends_mono ?_ (issueTokensForOrg_ends u horg (underway_refl w' tr))
  rintro res w'' tr' ⟨more, hissues⟩
  cases hissues with
  | failed hdb htrail hissuing hcause =>
      subst htrail
      have hany : (tr ++ more).any revokes = tr.any revokes := any_revokes_append hissuing
      cases hrevoked : tr.any revokes with
      | false => exact .refused (hdb.trans (h.kept hrevoked)) (hany.trans hrevoked)
      | true =>
          refine .lost (hany.trans hrevoked) (hdb ▸ h.spent hrevoked) ?_
          obtain ⟨d, hd, hessential, hthrough⟩ := hcause
          exact ⟨d, List.mem_append_right _ hd, hessential,
            through_of_before h hessential ▸ hthrough⟩
  | issued _ htrail _ hthrough =>
      subst htrail
      refine .rotated fun d hd hessential => ?_
      rcases List.mem_append.mp hd with hd | hd
      · rw [h.unissued d hd] at hessential
        cases hessential
      · exact through_of_before h hessential ▸ hthrough d hd hessential

end Replacement

/-! ## Both rotations -/

section Rotations

variable {cfg : Config} {ok : Port → Choice → World → Prop} {w w' : World} {tr : List Done}

/-- Looking the presented token up; nothing has been revoked yet. -/
theorem findValid_ends {tokenHash : String} (h : Before w tokenHash w' tr)
    (hkept : tr.any revokes = false) :
    (storeOr .invalidRefresh (.findValid tokenHash)).Ends (exec cfg.env) ok (fun res w'' tr' =>
      Before w tokenHash w'' tr' ∧ tr'.any revokes = false ∧
      ∀ v, res = .ok v → ∃ t, ∃ r ∈ w.db.refreshTokens, r.valid t tokenHash = true ∧
        v = (r.userID.string, (r.orgID.map Uuid.string).getD "")) w' tr := by
  have hany :
      ∀ c, (tr ++ [(⟨.store (.findValid tokenHash), c, w'⟩ : Done)]).any revokes = false := by
    intro c
    rw [any_snoc, hkept]
    rfl
  refine ends_passes (passes_storeOr _ (.findValid tokenHash)) ?_ ?_
  · intro c v _ _ hv
    rw [h.kept hkept] at hv
    obtain ⟨r, hr, hvalid, hrow⟩ := Store.exec_findValid_ok hv
    have hdb : (stored cfg.env (.findValid tokenHash) c w').db = w'.db :=
      Store.exec_reads rfl _ _ _ _
    exact ⟨before_lookup h hdb rfl rfl, hany c, fun _ hres =>
      ⟨_, r, hr, hvalid, (Except.ok.inj hres) ▸ hrow⟩⟩
  · intro c e e' _ _
    exact ⟨before_lookup h rfl rfl rfl, hany c, fun _ hres => (nomatch hres)⟩

theorem refresh_ends (refreshToken : String) (w : World) :
    (refresh cfg refreshToken).Ends (exec cfg.env) ok
      (Rotates w (cfg.env.hashRefreshToken refreshToken)) w [] := by
  refine ends_bind (findValid_ends (before_refl w _) rfl) ?_
    fun _ _ _ h => .refused (h.1.kept h.2.1) h.2.1
  rintro v w₁ tr₁ ⟨h₁, hkept, hfound⟩
  obtain ⟨t, r, hr, hvalid, rfl⟩ := hfound v rfl
  refine ends_bind (ignore_revoke_ends h₁ hkept ⟨t, r, hr, hvalid⟩) ?_ fun _ _ _ h => nomatch h.1
  rintro _ w₂ tr₂ ⟨_, h₂⟩
  refine ends_bind (activeOrg_ends (orgText_getD r.orgID) h₂) ?_
    fun _ _ _ h => h.1.elim fun _ hres => nomatch hres.1
  rintro org w₃ tr₃ ⟨⟨_, hres, horg⟩, h₃⟩
  cases hres
  exact replacement_ends r.userID horg h₃

theorem selectOrg_ends (userID refreshToken orgID : String) (w : World) :
    (selectOrg cfg userID refreshToken orgID).Ends (exec cfg.env) ok
      (Rotates w (cfg.env.hashRefreshToken refreshToken)) w [] := by
  refine ends_check (fun _ => ?_) fun _ => .refused rfl rfl
  have hstart := before_refl w (cfg.env.hashRefreshToken refreshToken)
  refine ends_bind (isActiveMember_ends hstart) ?_
    fun _ _ _ h => .refused (h.1.kept h.2.1) h.2.1
  rintro active w₁ tr₁ ⟨h₁, hkept₁, hmember⟩
  refine ends_check (fun hactive => ?_) fun _ => .refused (h₁.kept hkept₁) hkept₁
  have horg : OrgText (trimSpace orgID) := by
    have hres : active = true := by simpa using hactive
    obtain ⟨org, hparse⟩ := hmember (congrArg Except.ok hres)
    rw [trimSpace_trimSpace] at hparse
    exact .inr ⟨trimSpace_trimSpace _, org, hparse⟩
  refine ends_bind (findValid_ends h₁ hkept₁) ?_ fun _ _ _ h => .refused (h.1.kept h.2.1) h.2.1
  rintro v w₂ tr₂ ⟨h₂, hkept₂, hfound⟩
  obtain ⟨t, r, hr, hvalid, rfl⟩ := hfound v rfl
  refine ends_check (fun hown => ?_) fun _ => .refused (h₂.kept hkept₂) hkept₂
  have huser : r.userID.string = trimSpace userID := by simpa using hown
  rw [← huser]
  refine ends_bind (ignore_revoke_ends h₂ hkept₂ ⟨t, r, hr, hvalid⟩) ?_ fun _ _ _ h => nomatch h.1
  rintro _ w₃ tr₃ ⟨_, h₃⟩
  exact replacement_ends r.userID horg h₃

end Rotations

section Calls

variable {cfg : Config} {call : Call} {choices : Nat → Choice} {w : World}

/-- How a rotation, called by itself, ends. -/
theorem perform_rotates (cfg : Config) (hcall : IsRotation call)
    (choices : Nat → Choice) (w : World) :
    ∃ tokenHash res, (call.perform cfg choices w).1 = res.map Reply.tokens ∧
      Rotates w tokenHash res (call.perform cfg choices w).2
        ((call.program cfg).trail (exec cfg.env) choices w) := by
  have hend : ∃ tokenHash, (call.program cfg).Ends (exec cfg.env) (fun _ _ _ => True)
      (fun out w' tr => ∃ res, out = res.map Reply.tokens ∧
      Rotates w tokenHash res w' tr) w [] := by
    cases hcall with
    | refresh refreshToken =>
        refine ⟨cfg.env.hashRefreshToken refreshToken, ends_map (ends_mono ?_
          (refresh_ends refreshToken w))⟩
        exact fun res _ _ h => ⟨res, rfl, h⟩
    | selectOrg userID refreshToken orgID =>
        refine ⟨cfg.env.hashRefreshToken refreshToken, ends_map (ends_mono ?_
          (selectOrg_ends userID refreshToken orgID w))⟩
        exact fun res _ _ h => ⟨res, rfl, h⟩
  obtain ⟨tokenHash, hend⟩ := hend
  obtain ⟨res, hres, hrotates⟩ := ends_run hend choices fun _ _ => trivial
  exact ⟨tokenHash, res, hres, hrotates⟩

/-- A failed rotation keeps the sessions exactly when, once it has revoked the presented token,
neither the signer nor the store of the new session fails. -/
theorem keepsSessions_iff (hcall : IsRotation call) :
    KeepsSessions cfg call choices w ↔
      Replaced w.db ((call.program cfg).trail (exec cfg.env) choices w) := by
  obtain ⟨tokenHash, res, hres, hrotates⟩ := perform_rotates cfg hcall choices w
  cases hrotates with
  | refused hdb hkept =>
      refine iff_of_true (fun _ _ t tokenHash user org => ?_) fun hrevoked => ?_
      · unfold Session
        rw [hdb]
      · rw [hkept] at hrevoked
        cases hrevoked
  | lost hrevoked hspent hcause =>
      obtain ⟨d, hd, hessential, hthrough⟩ := hcause
      refine iff_of_false (fun hkeeps => ?_) fun hreplaced => ?_
      · obtain ⟨t, user, org, hbefore, hafter⟩ := not_session_of_spent hspent
        exact hafter ((hkeeps _ hres t tokenHash user org).mpr hbefore)
      · rw [hreplaced hrevoked d hd hessential] at hthrough
        cases hthrough
  | rotated hthrough =>
      refine iff_of_true (fun e he => ?_) fun _ => hthrough
      rw [hres] at he
      cases he

end Calls

/-! ## A signer that fails -/

/-- What the environment answers from the instant `t` on, when it draws the identifiers from `k` on.
-/
def answering (t : Time) (k n : Nat) : Choice where
  now := t
  flag := true
  code := "123456"
  id := Uuid.ofNat (k + n)

/-- A code for a new address is asked for and presented: its account has a session. -/
def signedIn : World :=
  Superseded.play toyConfig
    [(.requestOTP "ann@example.com" "email" "", answering second 10),
     (.verifyOTP "ann@example.com" "email" "123456", answering (2 * second) 20)] toyWorld

/-- The account of `signedIn` presents its token. -/
def heldCall : Call :=
  .refresh ((Uuid.ofNat 28).string ++ (Uuid.ofNat 29).string)

/-- The operations with these numbers fail. -/
def failingIn (ks : List Nat) (n : Nat) : Choice where
  now := 3 * second
  fails := ks.contains n
  id := Uuid.ofNat (30 + n)

instance (t : Time) (db : DB) (tokenHash : String) (user : Uuid) (org : Option Uuid) :
    Decidable (Session t db tokenHash user org) :=
  inferInstanceAs (Decidable (∃ r ∈ db.refreshTokens, _))

/-- The revocation fails and so does the signer: the session is still there. -/
theorem keepsSessions_unrevoked :
    (heldCall.perform toyConfig (failingIn [1, 3]) signedIn).1.isOk = false ∧
      KeepsSessions toyConfig heldCall (failingIn [1, 3]) signedIn := by
  have hcall : IsRotation heldCall := .refresh _
  obtain ⟨hfailed, hkept⟩ :
      (heldCall.perform toyConfig (failingIn [1, 3]) signedIn).1.isOk = false ∧
      ((heldCall.program toyConfig).trail (exec toyConfig.env) (failingIn [1, 3]) signedIn).any
        revokes = false := by
    decide +kernel
  refine ⟨hfailed, (keepsSessions_iff hcall).mpr fun hrevoked => ?_⟩
  rw [hkept] at hrevoked
  cases hrevoked

/-- Only the signer fails: the caller has no session any more. -/
theorem session_lost :
    (heldCall.perform toyConfig (failingIn [3]) signedIn).1.isOk = false ∧
      (signedIn.db.refreshTokens.any fun r => r.revokedAt = none) = true ∧
      ((heldCall.perform toyConfig (failingIn [3]) signedIn).2.db.refreshTokens.any
        fun r => r.revokedAt = none) = false ∧
      ¬ KeepsSessions toyConfig heldCall (failingIn [3]) signedIn := by
  obtain ⟨hfailed, hheld, hnone, hbefore⟩ :
      (heldCall.perform toyConfig (failingIn [3]) signedIn).1.isOk = false ∧
      (signedIn.db.refreshTokens.any fun r => r.revokedAt = none) = true ∧
      ((heldCall.perform toyConfig (failingIn [3]) signedIn).2.db.refreshTokens.any
        fun r => r.revokedAt = none) = false ∧
      Session (4 * second) signedIn.db
        (toyEnv.hashRefreshToken ((Uuid.ofNat 28).string ++ (Uuid.ofNat 29).string))
        (Uuid.ofNat 24) none := by
    decide +kernel
  refine ⟨hfailed, hheld, hnone, fun hkeeps => ?_⟩
  obtain ⟨e, he⟩ := exists_error hfailed
  obtain ⟨r, hr, hvalid, _⟩ := (hkeeps e he _ _ _ _).mpr hbefore
  have hrevoked := any_eq_false.mp hnone r hr
  simp [RefreshRow.valid] at hvalid hrevoked
  exact hrevoked hvalid.2

end Rotation
end Service
end OrbitAuth
