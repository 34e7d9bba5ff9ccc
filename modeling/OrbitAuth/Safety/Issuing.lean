import OrbitAuth.Safety.Disabled
import OrbitAuth.Service.Trails

/-!
# Issuing — when a token pair comes out

The calls that answer with a token pair end in the same way: the signer makes the access token, then
the store takes the session.  A pair comes out exactly when both get through, and a pair that does
not come out leaves the database as it was.  The listing of the caller's organizations before it can
fail without consequences.

* `through` — the operation did not fail and drew an identifier that was free;
* `Issues` — the two ways the issuing of a pair can end;
* `issueTokensForOrg_ends`, `issueTokens_ends` — there is no third.
-/

namespace OrbitAuth
namespace Service
namespace Issuing

open Domain Foundations Postgres Token Disabled

/-! ## Operations that get through -/

/-- The row of the operation, if it inserts one under a drawn identifier, can have `id`. -/
def freeFor (db : DB) (id : Uuid) : Port → Bool
  | .store (.createByEmail _) | .store (.createByMobile _) => !db.users.any fun r => r.id = id
  | .store (.storeRefresh _ _ _ _) => !db.refreshTokens.any fun r => r.id = id
  | _ => true

/-- The operation does not fail and draws an identifier that is free in `db`. -/
def through (db : DB) (d : Done) : Bool :=
  !d.choice.fails && freeFor db d.choice.id d.op

/-- The operations on which a pair depends. -/
def essential : Port → Bool
  | .sign _ _ _ | .store (.storeRefresh _ _ _ _) => true
  | _ => false

/-- The operations between the decision to issue a pair and the pair. -/
def issuing : Port → Bool
  | .now | .newID | .sign _ _ _ => true
  | .store (.storeRefresh _ _ _ _) | .store (.listOrgsForUser _) => true
  | _ => false

/-- Since `w` and `tr`, operations `more` were performed and the essential ones got through. -/
structure Underway (w : World) (tr more : List Done) (w' : World) (tr' : List Done) : Prop where
  db : w'.db = w.db
  trail : tr' = tr ++ more
  issuing : ∀ d ∈ more, issuing d.op = true
  through : ∀ d ∈ more, essential d.op = true → through w.db d = true

inductive Issues (w : World) (tr more : List Done) : Except Err TokenPair → World → List Done → Prop
  | failed {e : Err} {w' : World} {tr' : List Done} (hdb : w'.db = w.db) (htrail : tr' = tr ++ more)
      (hissuing : ∀ d ∈ more, issuing d.op = true)
      (hcause : ∃ d ∈ more, essential d.op = true ∧ through w.db d = false) :
      Issues w tr more (.error e) w' tr'
  | issued {pair : TokenPair} {w' : World} {tr' : List Done}
      (hdb : w'.db = { w.db with refreshTokens := w'.db.refreshTokens }) (htrail : tr' = tr ++ more)
      (hissuing : ∀ d ∈ more, issuing d.op = true)
      (hthrough : ∀ d ∈ more, essential d.op = true → through w.db d = true) :
      Issues w tr more (.ok pair) w' tr'

section Underway

variable {w w' w'' : World} {tr more tr' : List Done} {o : Port} {c : Choice}

theorem underway_refl (w : World) (tr : List Done) : Underway w tr [] w tr :=
  ⟨rfl, (List.append_nil tr).symm, fun _ hd => (nomatch hd), fun _ hd => (nomatch hd)⟩

theorem underway_step (h : Underway w tr more w' tr') (hdb : w''.db = w'.db) (ho : issuing o = true)
    (hthrough : essential o = true → Issuing.through w.db ⟨o, c, w'⟩ = true) :
    Underway w tr (more ++ [⟨o, c, w'⟩]) w'' (tr' ++ [⟨o, c, w'⟩]) := by
  refine ⟨hdb.trans h.db, ?_, forall_snoc h.issuing ho, forall_snoc h.through hthrough⟩
  rw [h.trail, List.append_assoc]

/-- An essential operation that does not get through ends the issuing. -/
theorem issues_failed {e : Err} (h : Underway w tr more w' tr') (hdb : w''.db = w'.db)
    (ho : issuing o = true) (hessential : essential o = true)
    (hcause : Issuing.through w.db ⟨o, c, w'⟩ = false) :
    Issues w tr (more ++ [⟨o, c, w'⟩]) (.error e) w'' (tr' ++ [⟨o, c, w'⟩]) := by
  refine .failed (hdb.trans h.db) ?_ (forall_snoc h.issuing ho) ?_
  · rw [h.trail, List.append_assoc]
  · exact ⟨_, List.mem_append_right _ (List.mem_singleton_self _), hessential, hcause⟩

end Underway

/-! ## Issuing a pair -/

section Issue

variable {cfg : Config} {env : Env} {ok : Port → Choice → World → Prop} {w w' : World}
  {tr more tr' : List Done} {orgID : String}

/-- For an account and an organization of the store the signer only fails as a dependency. -/
theorem ends_sign (u : Uuid) (horg : OrgText orgID) (expires : Time)
    {post : Except Err SignedToken → World → List Done → Prop}
    (hok : ∀ c token w', c.fails = false → w'.db = w.db →
      post (.ok token) w' (tr ++ [⟨.sign u.string orgID expires, c, w⟩]))
    (herr : ∀ c e, c.fails = true →
      post (.error e) (w.advance c.now) (tr ++ [⟨.sign u.string orgID expires, c, w⟩])) :
    (sign u.string orgID expires).Ends (exec env) ok post w tr := by
  refine .call fun c _ => ?_
  cases hf : c.fails with
  | true =>
      have hx : exec env (.sign u.string orgID expires) c w =
          (.error .dependency, w.advance c.now) := by
        simp [exec, answer, execSign, attempt, hf]
      rw [hx]
      exact .fail (herr c _ hf)
  | false =>
      obtain ⟨token, htoken, _⟩ := sign_of_orgText env u horg expires (w.advance c.now).now
      have hx : exec env (.sign u.string orgID expires) c w =
          (.ok token, { w.advance c.now with issued := w.issued ++ [token] }) := by
        simp [exec, answer, execSign, attempt, hf, htoken]
      rw [hx]
      exact .done (hok c token _ hf rfl)

/-- A session is stored exactly when the call does not fail and its identifier is free. -/
theorem storeRefresh_ends (u : Uuid) (horg : OrgText orgID) {tokenHash : String} {expiresAt : Time}
    (hexpires : expiresAt ≠ 0) (h : Underway w tr more w' tr') {pair : TokenPair} :
    (store (.storeRefresh u.string orgID tokenHash expiresAt) >>=
      fun _ => pure pair).Ends (exec env) ok
        (fun res w'' tr'' => ∃ more', Issues w tr more' res w'' tr'') w' tr' := by
  have htext : orgID = "" ∨ ∃ org, Uuid.parse orgID = some org := by
    rcases horg with h | ⟨_, h⟩
    · exact .inl h
    · exact .inr h
  refine ends_bind (M := fun res w'' tr'' => ∃ c : Choice,
      tr'' = tr' ++ [⟨.store (.storeRefresh u.string orgID tokenHash expiresAt), c, w'⟩] ∧
      (∀ e, res = .error e → w''.db = w'.db ∧ through w.db
        ⟨.store (.storeRefresh u.string orgID tokenHash expiresAt), c, w'⟩ = false) ∧
      (res = .ok () → w''.db = { w'.db with refreshTokens := w''.db.refreshTokens } ∧ through w.db
        ⟨.store (.storeRefresh u.string orgID tokenHash expiresAt), c, w'⟩ = true)) ?_ ?_ ?_
  · refine ends_passes (passes_store (.storeRefresh u.string orgID tokenHash expiresAt)) ?_ ?_
    · intro c v _ hf hstored
      obtain ⟨user, org, _, _, hfree, hdb⟩ := Store.exec_storeRefresh_ok hstored
      refine ⟨c, rfl, fun _ hres => (nomatch hres), fun _ => ⟨?_, ?_⟩⟩
      · unfold stored
        rw [hdb]
      · rw [h.db] at hfree
        simpa [through, freeFor, hf] using hfree
    · intro c e _ _ herr
      refine ⟨c, rfl, fun _ _ => ⟨rfl, ?_⟩, fun hres => (nomatch hres)⟩
      -- with a free identifier only the call itself can fail
      cases hf : c.fails with
      | true => simp [through, hf]
      | false =>
          refine Bool.eq_false_iff.mpr fun hthrough => ?_
          have hfree : ∀ r ∈ w'.db.refreshTokens, r.id ≠ c.id := by
            rw [h.db]
            simpa [through, freeFor, hf] using hthrough
          have hstored := herr hf
          rw [Store.exec_storeRefresh_of_free htext hexpires hfree] at hstored
          cases hstored
  · rintro _ w'' tr'' ⟨c, rfl, _, hok⟩
    obtain ⟨hdb, hthrough⟩ := hok rfl
    have hstep := underway_step (c := c)
      (o := .store (.storeRefresh u.string orgID tokenHash expiresAt)) h
        (show w'.db = w'.db from rfl) rfl fun _ => hthrough
    rw [h.db] at hdb
    exact .done ⟨_, .issued hdb hstep.trail hstep.issuing hstep.through⟩
  · rintro e w'' tr'' ⟨c, rfl, herr, _⟩
    obtain ⟨hdb, hcause⟩ := herr e rfl
    exact ⟨_, issues_failed h hdb rfl rfl hcause⟩

/-- A pair for a stored account comes out, or an essential operation did not get through. -/
theorem issueTokensForOrg_ends (u : Uuid) (horg : OrgText orgID) (h : Underway w tr more w' tr') :
    (issueTokensForOrg cfg u.string orgID).Ends (exec cfg.env) ok
      (fun res w'' tr'' => ∃ more', Issues w tr more' res w'' tr'') w' tr' := by
  refine ends_bind (M := fun res w₁ tr₁ => (∃ t, res = .ok t) ∧ ∃ more₁,
      Underway w tr more₁ w₁ tr₁) ?_ ?_ fun _ _ _ h₁ => h₁.1.elim fun _ hres => nomatch hres
  · exact ends_now fun c _ => ⟨⟨_, rfl⟩, _, underway_step h rfl rfl fun hessential =>
      nomatch hessential⟩
  · rintro t w₁ tr₁ ⟨_, more₁, h₁⟩
    refine ends_bind (M := fun res w₂ tr₂ => (∀ e, res = .error e → ∃ more₂,
        Issues w tr more₂ (.error e) w₂ tr₂) ∧ ∀ token, res = .ok token → ∃ more₂,
          Underway w tr more₂ w₂ tr₂) ?_ ?_ fun e _ _ h₂ => h₂.1 e rfl
    -- a signer that fails ends the call, and the failure is on the trail
    · refine ends_sign u horg (t + accessTokenTTL) ?_ ?_
      · intro c token w₂ hf hdb
        refine ⟨fun _ hres => (nomatch hres), fun _ _ => ⟨_, underway_step h₁ hdb rfl fun _ => ?_⟩⟩
        simp [through, freeFor, hf]
      · intro c e hf
        refine ⟨fun _ _ => ⟨_, issues_failed h₁ rfl rfl rfl ?_⟩, fun _ hres => (nomatch hres)⟩
        simp [through, hf]
    · rintro access w₂ tr₂ ⟨_, hunderway⟩
      obtain ⟨more₂, h₂⟩ := hunderway access rfl
      -- the two halves of the refresh token, which cannot fail
      have hdraw : ∀ {w₂ : World} {tr₂ more₂ : List Done}, Underway w tr more₂ w₂ tr₂ →
          newID.Ends (exec cfg.env) ok (fun res w₃ tr₃ => (∃ id, res = .ok id) ∧
            ∃ more₃, Underway w tr more₃ w₃ tr₃) w₂ tr₂ := fun h₂ =>
        ends_newID fun c _ => ⟨⟨_, rfl⟩, _, underway_step h₂ rfl rfl fun hessential =>
          nomatch hessential⟩
      refine ends_bind (hdraw h₂) ?_ fun _ _ _ h₃ => h₃.1.elim fun _ hres => nomatch hres
      rintro first w₃ tr₃ ⟨_, more₃, h₃⟩
      refine ends_bind (hdraw h₃) ?_ fun _ _ _ h₄ => h₄.1.elim fun _ hres => nomatch hres
      rintro last w₄ tr₄ ⟨_, more₄, h₄⟩
      have hexpires : t + refreshTokenTTL ≠ 0 := Nat.ne_of_gt (Nat.add_pos_right t (by decide))
      exact storeRefresh_ends u horg hexpires h₄

/-- The organization a login selects is one of the store, or none. -/
theorem loginOrg_ends (u : Uuid) (h : Underway w tr more w' tr') :
    (loginOrg cfg u.string).Ends (exec cfg.env) ok (fun res w'' tr'' =>
      (∃ orgID, res = .ok orgID ∧ OrgText orgID) ∧
      ∃ more', Underway w tr more' w'' tr'') w' tr' := by
  unfold loginOrg
  split
  · refine ends_bind (M := fun res w'' tr'' => (∃ listed, res = .ok listed ∧
        ∀ orgs, listed = .ok orgs → ∀ org ∈ orgs, OrgText org.id) ∧
          ∃ more', Underway w tr more' w'' tr'') ?_ ?_ fun _ _ _ h' => h'.1.elim fun _ hres =>
            nomatch hres.1
    · refine ends_tryStore ?_ ?_
      · intro c orgs _ _ hlisted
        rw [Store.exec_listOrgsForUser] at hlisted
        have hdb : (stored cfg.env (.listOrgsForUser u.string) c w').db = w'.db :=
          Store.exec_reads rfl _ _ _ _
        refine ⟨⟨_, rfl, ?_⟩, _, underway_step h hdb rfl fun hessential => nomatch hessential⟩
        intro orgs' horgs org horg
        cases horgs
        cases hlisted
        obtain ⟨row, _, rfl⟩ := List.mem_map.mp horg
        exact .inr ⟨Uuid.trimSpace_string row.id, row.id, Uuid.parse_string row.id⟩
      -- a list that cannot be read is no error: the session has no organization
      · intro c e _ _
        exact ⟨⟨_, rfl, fun _ hres => (nomatch hres)⟩, _,
          underway_step h rfl rfl fun hessential => nomatch hessential⟩
    · rintro listed w'' tr'' ⟨⟨_, hres, htext⟩, h''⟩
      cases hres
      -- only a single membership selects an organization
      split
      · rename_i org
        exact .done ⟨⟨_, rfl, htext [org] rfl org (List.mem_singleton_self org)⟩, h''⟩
      · exact .done ⟨⟨_, rfl, .inl rfl⟩, h''⟩
  · exact .done ⟨⟨_, rfl, .inl rfl⟩, _, h⟩

theorem issueTokens_ends (u : Uuid) (w : World) (tr : List Done) :
    (issueTokens cfg u.string).Ends (exec cfg.env) ok
      (fun res w' tr' => ∃ more, Issues w tr more res w' tr') w tr := by
  refine ends_bind (loginOrg_ends u (underway_refl w tr)) ?_
    fun _ _ _ h => h.1.elim fun _ hres => nomatch hres.1
  rintro orgID w₁ tr₁ ⟨⟨_, hres, horg⟩, more, h₁⟩
  cases hres
  exact issueTokensForOrg_ends u horg h₁

end Issue

end Issuing
end Service
end OrbitAuth
