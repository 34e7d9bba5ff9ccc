import OrbitAuth.Safety.Disabled
import OrbitAuth.Service.Requests

/-!
# OrgClaim — the organization a session carries

A token pair names an organization twice: in the access token, as a claim, and in the stored refresh
token, as a column.  The two are parsed and written independently of each other.  Which organization
it is comes from one of three rules: a login takes the only one, a refresh keeps the remembered one
while the membership is active, and `SelectOrg` takes the one it is given.

* `Stored` — the row that is stored for a pair;
* `Issued` — what a pair, its row and the memberships have to do with each other;
* `listed_length` — a user is listed as many organizations as there are active memberships;
* `org_claim_sound` — every pair that is ever returned is issued in this sense.
-/

namespace OrbitAuth
namespace Service
namespace OrgClaim

open Domain Foundations Postgres Token

variable {row : RefreshRow} {pair : TokenPair} {w : World}

/-! ## Pairs and rows -/

/-- An organization as text, and none as `""`. -/
def orgText (org : Option Uuid) : String :=
  (org.map Uuid.string).getD ""

def ActiveIn (db : DB) (org user : Uuid) : Prop :=
  ∃ m ∈ db.memberships, m.orgID = org ∧ m.userID = user ∧ m.status = .active

def activeMemberships (db : DB) (user : Uuid) : List MembershipRow :=
  db.memberships.select fun m => m.userID = user && m.status = .active

/-- The row is the one that a call has stored for the pair. -/
structure Stored (cfg : Config) (before after : DB) (pair : TokenPair)
    (row : RefreshRow) : Prop where
  mem : row ∈ after.refreshTokens
  new : ∀ r ∈ before.refreshTokens, r.id ≠ row.id
  only : ∀ r ∈ after.refreshTokens, (∀ s ∈ before.refreshTokens, s.id ≠ r.id) → r = row
  hash : row.tokenHash = cfg.env.hashRefreshToken pair.refresh
  subject : pair.access.claims.subject = row.userID.string

/-- The calls that log a user in. -/
def isLogin : Call → Bool
  | .verifyOTP _ _ _ | .loginWithPassword _ _ | .verifySignup _ _ _ => true
  | _ => false

/-- The pair names one organization, of which its subject is an active member. -/
structure Carries (cfg : Config) (w w' : World) (pair : TokenPair) (row : RefreshRow) : Prop where
  stored : Stored cfg w.db w'.db pair row
  agrees : pair.access.claims.orgID = orgText row.orgID
  member : ∀ org, row.orgID = some org → ActiveIn w.db org row.userID
  unchanged : w'.db.memberships = w.db.memberships

/-- The call performs the operation `o` and the environment chooses `c` for it. -/
def Performs (cfg : Config) (call : Call) (cs : Nat → Choice) (w : World) (o : Port)
    (c : Choice) : Prop :=
  (o, c) ∈ (call.program cfg).steps (exec cfg.env) cs w

/-- How the listings of organizations that a call makes turn out. -/
def Listings (cfg : Config) (call : Call) (cs : Nat → Choice) (w : World) (fails : Bool) : Prop :=
  ∀ userID c, Performs cfg call cs w (.store (.listOrgsForUser userID)) c → c.fails = fails

/-- A call in `w` that ends in `w'` with this pair. -/
structure Issued (cfg : Config) (call : Call) (cs : Nat → Choice) (w w' : World) (pair : TokenPair)
    (row : RefreshRow) : Prop extends Carries cfg w w' pair row where
  refreshed : ∀ token, call = .refresh token → ∃ r ∈ w.db.refreshTokens,
    r.valid w.now (cfg.env.hashRefreshToken token) = true ∧ r.userID = row.userID ∧
      (row.orgID = r.orgID ∨ row.orgID = none)
  chosen : ∀ userID token orgID, call = .selectOrg userID token orgID →
    ∃ org, Uuid.parse (trimSpace orgID) = some org ∧ row.orgID = some org
  selects : isLogin call = true → row.orgID.isSome = true →
    cfg.autoSelectSingleOrg = true ∧ (activeMemberships w.db row.userID).length = 1
  selected : isLogin call = true → Listings cfg call cs w false → cfg.autoSelectSingleOrg = true →
    (activeMemberships w.db row.userID).length = 1 → row.orgID.isSome = true
  /-- A listing that fails does not block the login, which then carries none. -/
  unlisted : isLogin call = true → Listings cfg call cs w true → row.orgID = none

/-! ## What a call leaves alone before it stores a session -/

structure Kept (db db' : DB) : Prop where
  memberships : db'.memberships = db.memberships
  orgs : db'.orgs = db.orgs
  sessions : ∀ id, (∃ r ∈ db'.refreshTokens, r.id = id) ↔ ∃ r ∈ db.refreshTokens, r.id = id

theorem kept_refl (db : DB) : Kept db db :=
  ⟨rfl, rfl, fun _ => Iff.rfl⟩

theorem kept_trans {db₁ db₂ db₃ : DB} (h₁ : Kept db₁ db₂) (h₂ : Kept db₂ db₃) : Kept db₁ db₃ :=
  ⟨h₂.memberships.trans h₁.memberships, h₂.orgs.trans h₁.orgs,
    fun id => (h₂.sessions id).trans (h₁.sessions id)⟩

theorem stored_kept {cfg : Config} {db db₁ after : DB} (hkept : Kept db db₁)
    (h : Stored cfg db₁ after pair row) : Stored cfg db after pair row := by
  have hnew : ∀ id, (∀ r ∈ db.refreshTokens, r.id ≠ id) ↔ ∀ r ∈ db₁.refreshTokens, r.id ≠ id := by
    intro id
    constructor
    · intro h r hr hid
      obtain ⟨r', hr', hid'⟩ := (hkept.sessions id).mp ⟨r, hr, hid⟩
      exact h r' hr' hid'
    · intro h r hr hid
      obtain ⟨r', hr', hid'⟩ := (hkept.sessions id).mpr ⟨r, hr, hid⟩
      exact h r' hr' hid'
  exact ⟨h.mem, (hnew row.id).mpr h.new, fun r hr hfresh => h.only r hr
    ((hnew r.id).mp hfresh), h.hash, h.subject⟩

/-- Operations that touch no membership and no organization, and of the sessions at most the
revocation. -/
def Frames : Port → Prop
  | .store (.revoke _) => True
  | .store o => TableName.memberships ∉ o.writes ∧ TableName.orgs ∉ o.writes ∧
      TableName.refreshTokens ∉ o.writes
  | _ => True

theorem frames_plain (o : Port) (h : o.plain = true) : Frames o := by
  cases o with
  | store o =>
      have hwrites : ∀ n, n ≠ TableName.challenges → n ∉ o.writes :=
        fun n hn => plainStore_writes h hn
      cases o <;> first | trivial | exact ⟨hwrites _ (by decide), hwrites _ (by decide),
        hwrites _ (by decide)⟩
  | _ => trivial

section Frame

variable {env : Env}

theorem exec_kept {o : Port} (ho : Frames o) (c : Choice) (w : World) :
    Kept w.db (exec env o c w).2.db := by
  refine exec_db_rel (R := Kept) kept_refl ?_ c
  intro o' heq now id pick
  subst heq
  by_cases hrevoke : ∃ tokenHash, o' = .revoke tokenHash
  · obtain ⟨tokenHash, rfl⟩ := hrevoke
    refine ⟨Store.exec_same (n := .memberships) (by simp [Store.Op.writes]) _ _ _ _,
      Store.exec_same (n := .orgs) (by simp [Store.Op.writes]) _ _ _ _, fun id => ?_⟩
    rw [Store.exec_revoke_refreshTokens]
    constructor
    · rintro ⟨r, hr, hid⟩
      rcases (mem_update (key_revoked now)).mp hr with ⟨s, hs, _, rfl⟩ | ⟨hold, _⟩
      · exact ⟨s, hs, hid⟩
      · exact ⟨r, hold, hid⟩
    · rintro ⟨r, hr, rfl⟩
      exact Table.key_mem_update (key_revoked now) hr
  · have hquiet : TableName.memberships ∉ o'.writes ∧ TableName.orgs ∉ o'.writes ∧
        TableName.refreshTokens ∉ o'.writes := by
      cases o' <;> first | exact ho | exact absurd ⟨_, rfl⟩ hrevoke
    have hsessions : (o'.exec env now id pick w.db).2.refreshTokens = w.db.refreshTokens :=
      Store.exec_same (n := .refreshTokens) hquiet.2.2 _ _ _ _
    refine ⟨Store.exec_same (n := .memberships) hquiet.1 _ _ _ _,
      Store.exec_same (n := .orgs) hquiet.2.1 _ _ _ _, fun id => ?_⟩
    rw [hsessions]

/-- Whatever else a call does before it stores a session, this is kept. -/
theorem must_frames {α : Type} {p : Action α} (hp : p.Uses Frames) (w : World) :
    p.Must (exec env) (fun _ w' => Kept w.db w'.db) w := by
  have hmakes : p.Makes (fun _ _ => True) Frames fun _ => True := makes_of_uses hp
  refine safe_mono (fun _ _ h => h.2)
    (Program.must_of_makes (I := fun w' : World => Kept w.db w'.db) ?_ hmakes w (kept_refl _))
  intro o c w' ho hkept
  exact ⟨trivial, kept_trans hkept (exec_kept ho c w')⟩

end Frame

/-! ## Issuing -/

/-- The organization that a text names, `""` naming none. -/
def Names (text : String) (org : Option Uuid) : Prop :=
  text = "" ∧ org = none ∨ text ≠ "" ∧ ∃ g, Uuid.parse text = some g ∧ org = some g

theorem names_orgText {text : String} {org named : Option Uuid} (h : Names text org)
    (htext : text = orgText named) : org = named := by
  subst htext
  cases named with
  | none =>
      rcases h with ⟨_, rfl⟩ | ⟨hne, _⟩
      · rfl
      · exact absurd rfl hne
  | some g =>
      rcases h with ⟨hempty, _⟩ | ⟨_, g', hparse, rfl⟩
      · exact absurd hempty (Uuid.string_ne_empty g)
      · have hstring : Uuid.parse g.string = some g' := hparse
        rw [Uuid.parse_string] at hstring
        exact hstring.symm

theorem trimSpace_orgText (org : Option Uuid) : trimSpace (orgText org) = orgText org := by
  cases org with
  | none => decide
  | some g => exact Uuid.trimSpace_string g

/-- The claim and the column come from one text and are the same organization. -/
theorem canonicalOrg_of_names {text claim : String} {org : Option Uuid}
    (htrim : trimSpace text = text) (hclaim : canonicalOrg text = .ok claim) (h : Names text org) :
    claim = orgText org := by
  unfold canonicalOrg at hclaim
  rw [htrim] at hclaim
  rcases h with ⟨rfl, rfl⟩ | ⟨hne, g, hparse, rfl⟩
  · exact (Except.ok.inj hclaim).symm
  · rw [if_neg hne, hparse] at hclaim
    exact (Except.ok.inj hclaim).symm

section Issuing

variable {cfg : Config}

theorem sign_must (subject orgID : String) (expires : Time) (w : World) :
    (sign subject orgID expires).Must (exec cfg.env) (fun token w' => w'.db = w.db ∧
      token.claims.subject = trimSpace subject ∧ canonicalOrg orgID =
        .ok token.claims.orgID) w := by
  refine must_call fun c => ?_
  cases hres : (exec cfg.env (.sign subject orgID expires) c w).1 with
  | error e => exact .fail
  | ok token =>
      have hdb : (exec cfg.env (.sign subject orgID expires) c w).2.db = w.db :=
        exec_db_rel (R := fun db db' => db' = db) (fun _ => rfl) (fun _ h => by cases h) c
      refine .done ⟨hdb, ?_⟩
      -- the answer is an error of the environment or what the signer returns
      simp only [exec, answer, execSign, attempt] at hres
      split at hres
      · rename_i token' htoken
        cases hres
        split at htoken
        · cases htoken
        · exact signAccessTokenWithOrg_claims htoken
      · cases hres

/-- Issuing stores one row, for the user and the organization that the access token names. -/
theorem issueTokensForOrg_stores (user : Uuid) {text : String}
    (htrim : trimSpace text = text) (w : World) :
    (issueTokensForOrg cfg user.string text).Must (exec cfg.env) (fun pair w' => ∃ row,
      Stored cfg w.db w'.db pair row ∧ row.userID = user ∧ Names text row.orgID ∧
        pair.access.claims.orgID = orgText row.orgID ∧ w'.db.memberships = w.db.memberships) w := by
  refine safe_bind (must_now (Q := fun _ w' => w'.db = w.db) fun _ _ h => h) fun t w₁ h₁ => ?_
  refine safe_bind (sign_must _ _ _ w₁) fun access w₂ h₂ => ?_
  obtain ⟨hdb₂, hsubject, hclaim⟩ := h₂
  -- drawing the two halves of the token does not touch the database
  have hid : ∀ w : World, newID.Must (exec cfg.env) (fun _ w' => w'.db = w.db) w :=
    fun w => must_call fun c => .done rfl
  refine safe_bind (hid w₂) fun first w₃ h₃ => ?_
  refine safe_bind (hid w₃) fun second w₄ h₄ => ?_
  have hdb₄ : w₄.db = w.db := h₄.trans (h₃.trans (hdb₂.trans h₁))
  have hstore : (store (.storeRefresh user.string text (cfg.env.hashRefreshToken (first ++ second))
      (t + refreshTokenTTL))).Must (exec cfg.env) (fun _ w' => ∃ row, row ∈ w'.db.refreshTokens ∧
        (∀ r ∈ w.db.refreshTokens, r.id ≠ row.id) ∧
        (∀ r ∈ w'.db.refreshTokens, r = row ∨ r ∈ w.db.refreshTokens) ∧
        row.tokenHash = cfg.env.hashRefreshToken (first ++ second) ∧ row.userID = user ∧
        Names text row.orgID ∧ w'.db.memberships = w.db.memberships) w₄ := by
    refine must_passes (passes_store _) fun c v hv => ?_
    obtain ⟨hanswer, hdb⟩ := exec_store_ok hv
    obtain ⟨u, org, huser, hnames, hfree, hstored⟩ := Store.exec_storeRefresh_ok hanswer
    rw [Uuid.parse_string] at huser
    obtain rfl := Option.some.inj huser
    rw [hdb, hstored]
    rw [hdb₄] at hfree ⊢
    refine ⟨_, mem_put.mpr (.inl rfl), hfree, fun r hr => ?_, rfl, rfl, hnames, rfl⟩
    rcases mem_put.mp hr with h | ⟨hold, _⟩
    · exact .inl h
    · exact .inr hold
  refine safe_bind hstore fun _ w₅ h₅ => ?_
  obtain ⟨row, hmem, hnew, honly, hhash, huser, hnames, hmemberships⟩ := h₅
  refine .done ⟨row, ⟨hmem, hnew, fun r hr hfresh => ?_, hhash, ?_⟩, huser, hnames,
    ?_, hmemberships⟩
  -- the only row that was not there before is the one that was stored
  · rcases honly r hr with rfl | hold
    · rfl
    · exact absurd rfl (hfresh r hold)
  · rw [hsubject, Uuid.trimSpace_string, huser]
  · exact canonicalOrg_of_names htrim hclaim hnames

/-- Issuing after steps that have left everything alone. -/
theorem carries_of_issued {user : Uuid} {w w₁ w' : World} (hkept : Kept w.db w₁.db)
    (hstored : Stored cfg w₁.db w'.db pair row) (huser : row.userID = user)
    (hclaim : pair.access.claims.orgID = orgText row.orgID)
    (hmember : ∀ org, row.orgID = some org → ActiveIn w.db org user)
    (hsame : w'.db.memberships = w₁.db.memberships) : Carries cfg w w' pair row := by
  refine ⟨stored_kept hkept hstored, hclaim, fun org horg => ?_, hsame.trans hkept.memberships⟩
  rw [huser]
  exact hmember org horg

end Issuing

/-! ## The only organization -/

/-- The organizations of a user and the active memberships are equally many. -/
theorem listed_length {db : DB} (hdb : db.Integrity) (user : Uuid) :
    (db.orgs.select fun o => db.memberships.any fun m =>
      m.orgID = o.id && m.userID = user && m.status = .active).length =
        (activeMemberships db user).length := by
  generalize hlisted : (db.orgs.select fun o => db.memberships.any fun m =>
    m.orgID = o.id && m.userID = user && m.status = .active) = listed
  have hactive : ∀ m, m ∈ activeMemberships db user ↔
      m ∈ db.memberships ∧ m.userID = user ∧ m.status = .active := by
    intro m
    simp [activeMemberships]
  have hnodup : ((activeMemberships db user).map MembershipRow.orgID).Nodup := by
    have hkeys : ((activeMemberships db user).map Keyed.key).Nodup :=
      Table.nodup_map_filter db.memberships.nodup _
    have hpairs : (activeMemberships db user).map Keyed.key =
        ((activeMemberships db user).map MembershipRow.orgID).map fun org => (org, user) := by
      rw [List.map_map]
      refine List.map_congr_left fun m hm => ?_
      show (m.orgID, m.userID) = (m.orgID, user)
      rw [((hactive m).mp hm).2.1]
    rw [hpairs] at hkeys
    exact hkeys.of_map
  have hlistedNodup : (listed.map OrgRow.id).Nodup := by
    rw [← hlisted]
    exact Table.nodup_map_filter db.orgs.nodup _
  -- both lists name the same organizations, each once
  have hperm :
      (listed.map OrgRow.id).Perm ((activeMemberships db user).map MembershipRow.orgID) := by
    refine (List.perm_ext_iff_of_nodup hlistedNodup hnodup).mpr fun org => ?_
    simp only [List.mem_map]
    constructor
    · rintro ⟨o, ho, rfl⟩
      rw [← hlisted, mem_select, any_eq_true] at ho
      obtain ⟨_, m, hm, hmatch⟩ := ho
      simp only [Bool.and_eq_true, decide_eq_true_eq] at hmatch
      exact ⟨m, (hactive m).mpr ⟨hm, hmatch.1.2, hmatch.2⟩, hmatch.1.1⟩
    · rintro ⟨m, hm, rfl⟩
      obtain ⟨hmem, huser, hstatus⟩ := (hactive m).mp hm
      obtain ⟨o, ho, hid⟩ := hdb.membershipOrg m hmem
      refine ⟨o, ?_, hid⟩
      rw [← hlisted, mem_select, any_eq_true]
      exact ⟨ho, m, hmem, by simp [hid, huser, hstatus]⟩
  calc
    listed.length = (listed.map OrgRow.id).length := by rw [List.length_map]
    _ = ((activeMemberships db user).map MembershipRow.orgID).length := hperm.length_eq
    _ = (activeMemberships db user).length := by rw [List.length_map]

/-- What a login may carry, when the choices meet `ok`. -/
structure Selects (ok : Port → Choice → Prop) (cfg : Config) (db : DB) (user : Uuid)
    (org : Option Uuid) :
    Prop where
  only : ∀ g, org = some g →
    cfg.autoSelectSingleOrg = true ∧ ActiveIn db g user ∧ (activeMemberships db user).length = 1
  listed : (∀ text c, ok (.store (.listOrgsForUser text)) c → c.fails = false) →
    cfg.autoSelectSingleOrg = true → (activeMemberships db user).length = 1 → org.isSome = true
  unlisted : (∀ text c, ok (.store (.listOrgsForUser text)) c → c.fails = true) → org = none

section Login

variable {cfg : Config} {ok : Port → Choice → Prop}

theorem selects_none {db : DB} {user : Uuid}
    (h : (∀ text c, ok (.store (.listOrgsForUser text)) c → c.fails = false) →
      cfg.autoSelectSingleOrg = true → (activeMemberships db user).length ≠ 1) :
    Selects ok cfg db user none := by
  refine ⟨fun g hg => ?_, fun hall hauto hone => ?_, fun _ => rfl⟩
  · cases hg
  · exact absurd hone (h hall hauto)

theorem singleActiveOrg_mustFor (hauto : cfg.autoSelectSingleOrg = true) (user : Uuid)
    (hdb : w.db.Integrity) : (singleActiveOrg user.string).MustFor (exec cfg.env) ok
      (fun text w' => Kept w.db w'.db ∧ ∃ org, text = orgText org ∧
      Selects ok cfg w.db user org) w := by
  refine .call fun c hc => ?_
  cases hfails : c.fails with
  | true =>
      rw [exec_store_fails cfg.env _ hfails]
      refine .done ⟨kept_refl _, none, rfl, selects_none fun hall => ?_⟩
      rw [hall _ c hc] at hfails
      cases hfails
  | false =>
      rw [exec_store_runs cfg.env _ hfails w, Store.exec_listOrgsForUser]
      have hlength := listed_length hdb user
      generalize hlisted : (w.db.orgs.select fun o => w.db.memberships.any fun m =>
        m.orgID = o.id && m.userID = user && m.status = .active) = listed at hlength ⊢
      have hsorted := List.perm_insertionSort (fun a b : OrgRow =>
        a.createdAt < b.createdAt ∨ a.createdAt = b.createdAt ∧ a.id.val ≤ b.id.val) listed
      generalize listed.insertionSort (fun a b : OrgRow =>
        a.createdAt < b.createdAt ∨ a.createdAt = b.createdAt ∧ a.id.val ≤ b.id.val) =
          sorted at hsorted ⊢
      rcases sorted with _ | ⟨o, _ | ⟨o', rest⟩⟩
      · -- none
        refine .done ⟨kept_refl _, none, rfl, selects_none fun _ _ hone => ?_⟩
        rw [← hlength, ← hsorted.length_eq] at hone
        cases hone
      · -- the only one
        have hone : (activeMemberships w.db user).length = 1 := by
          rw [← hlength, ← hsorted.length_eq]
          rfl
        have hmember : ActiveIn w.db o.id user := by
          have ho : o ∈ listed := hsorted.mem_iff.mp (by simp)
          rw [← hlisted, mem_select, any_eq_true] at ho
          obtain ⟨_, m, hm, hmatch⟩ := ho
          simp only [Bool.and_eq_true, decide_eq_true_eq] at hmatch
          exact ⟨m, hm, hmatch.1.1, hmatch.1.2, hmatch.2⟩
        refine .done
          ⟨kept_refl _, some o.id, rfl, ⟨fun g hg => ?_, fun _ _ _ => rfl, fun hall => ?_⟩⟩
        · obtain rfl := Option.some.inj hg
          exact ⟨hauto, hmember, hone⟩
        · rw [hall _ c hc] at hfails
          cases hfails
      · -- several
        refine .done ⟨kept_refl _, none, rfl, selects_none fun _ _ hone => ?_⟩
        rw [← hlength, ← hsorted.length_eq] at hone
        simp at hone

theorem loginOrg_mustFor (user : Uuid) (hdb : w.db.Integrity) :
    (loginOrg cfg user.string).MustFor (exec cfg.env) ok
      (fun text w' => Kept w.db w'.db ∧ ∃ org, text = orgText org ∧
      Selects ok cfg w.db user org) w := by
  unfold loginOrg
  split
  · rename_i hauto
    exact singleActiveOrg_mustFor hauto user hdb
  · rename_i hmanual
    refine .done ⟨kept_refl _, none, rfl, selects_none fun _ hauto => ?_⟩
    exact absurd hauto hmanual

theorem issueTokens_mustFor (user : Uuid) (hdb : w.db.Integrity) :
    (issueTokens cfg user.string).MustFor (exec cfg.env) ok (fun pair w' => ∃ row,
      Carries cfg w w' pair row ∧ Selects ok cfg w.db row.userID row.orgID) w := by
  refine Program.mustFor_bind (loginOrg_mustFor user hdb) fun text w₁ h₁ => ?_
  obtain ⟨hkept, org, rfl, hselects⟩ := h₁
  refine Program.mustFor_of_must (safe_mono ?_
    (issueTokensForOrg_stores user (trimSpace_orgText org) w₁))
  rintro pair w' ⟨row, hstored, huser, hnames, hclaim, hsame⟩
  have horg : row.orgID = org := names_orgText hnames rfl
  refine ⟨row, carries_of_issued hkept hstored huser hclaim (fun g hg => ?_) hsame, ?_⟩
  · exact (hselects.only g (horg.symm.trans hg)).2.1
  · rw [huser, horg]
    exact hselects

/-! ## Logins -/

/-- The user is named by an identifier in its canonical spelling. -/
def Named (user : User) : Prop :=
  ∃ id : Uuid, user.id = id.string

/-- The store names users that way. -/
def Canonical : (o : Port) → o.Ans → Prop
  | .store (.findByEmail _), r | .store (.findByMobile _), r | .store (.createByEmail _), r
  | .store (.createByMobile _), r => ∀ user : User, r = .ok user → Named user
  | _, _ => True

theorem exec_canonical (env : Env) (o : Port) (c : Choice) (w : World) :
    Canonical o (exec env o c w).1 := by
  cases o with
  | store o =>
      cases o with
      | findByEmail email =>
          intro user h
          obtain ⟨r, _, _, rfl⟩ := Store.exec_findByEmail_ok (exec_store_ok h).1
          exact ⟨r.id, rfl⟩
      | findByMobile mobile =>
          intro user h
          obtain ⟨r, _, _, rfl⟩ := Store.exec_findByMobile_ok (exec_store_ok h).1
          exact ⟨r.id, rfl⟩
      | createByEmail email =>
          intro user h
          obtain ⟨rfl, _⟩ := Store.execCreate_ok (a := .email email) (exec_store_ok h).1
          exact ⟨_, rfl⟩
      | createByMobile mobile =>
          intro user h
          obtain ⟨rfl, _⟩ := Store.execCreate_ok (a := .mobile mobile) (exec_store_ok h).1
          exact ⟨_, rfl⟩
      | _ => trivial
  | _ => trivial

/-- A program that finds out who logs in and leaves the rest alone. -/
abbrev Identifies (q : Action User) : Prop :=
  q.Makes Canonical Frames Named

theorem frames_uses {α : Type} {p : Action α} (hp : p.Uses Frames) :
    p.Makes Canonical Frames fun _ => True :=
  makes_of_uses hp

theorem identifies_findByEmail (email : String) :
    (tryStore (.findByEmail email)).Makes Canonical Frames
      fun r : Except Err User => ∀ user, r = .ok user → Named user :=
  .call (by simp [Frames, Store.Op.writes]) fun _ hr => .done hr

theorem identifies_findByMobile (mobile : String) :
    (tryStore (.findByMobile mobile)).Makes Canonical Frames
      fun r : Except Err User => ∀ user, r = .ok user → Named user :=
  .call (by simp [Frames, Store.Op.writes]) fun _ hr => .done hr

theorem identifies_findOrCreate (identifier channel : String) :
    Identifies (findOrCreate identifier channel) := by
  unfold findOrCreate
  split
  · refine makes_bind (identifies_findByEmail identifier) fun r hr => ?_
    cases r with
    | ok user => exact .done (hr user rfl)
    | error e =>
        dsimp only
        split
        · exact makes_passes (passes_store (.createByEmail identifier))
            (by simp [Frames, Store.Op.writes])
            fun user hr => hr user rfl
        · exact .fail _
  · split
    · refine makes_bind (identifies_findByMobile identifier) fun r hr => ?_
      cases r with
      | ok user => exact .done (hr user rfl)
      | error e =>
          dsimp only
          split
          · exact makes_passes (passes_store (.createByMobile identifier))
              (by simp [Frames, Store.Op.writes]) fun user hr => hr user rfl
          · exact .fail _
    · exact .fail _

theorem identifies_findByIdentifier (identifier : String) :
    Identifies (findByIdentifier cfg identifier) := by
  unfold findByIdentifier
  split
  · exact makes_passes (passes_storeOr _ (.findByMobile _)) (by simp [Frames, Store.Op.writes])
      fun user hr => hr user rfl
  · exact makes_passes (passes_storeOr _ (.findByEmail _)) (by simp [Frames, Store.Op.writes])
      fun user hr => hr user rfl

theorem identifies_matchSignup (ch : OTPChallenge) (email password : String) :
    Identifies (matchSignup cfg ch email password) := by
  have hreject : Identifies (rejectSignup ch) :=
    makes_bind (frames_uses (uses_ignore (frames_plain _ rfl))) fun _ _ => .fail _
  refine makes_bind (identifies_findByEmail email) fun r hr => ?_
  cases r with
  | error e => exact hreject
  | ok user =>
      dsimp only
      split
      · exact hreject
      · exact .done (hr user rfl)

/-- Every login identifies a user and then issues a pair. -/
theorem login_program (cfg : Config) {call : Call} (hlogin : isLogin call = true) :
    ∃ q : Action User, Identifies q ∧
      call.program cfg = .tokens <$> (q >>= fun user => issueTokens cfg user.id) := by
  have hlatest : ∀ {identifier channel : String},
      Frames (.store (.getLatestChallenge identifier channel)) := by simp [Frames, Store.Op.writes]
  -- each login without its last step; the second goal only regroups the binds
  cases call with
  | verifyOTP identifier channel code =>
      refine ⟨do
        failIf (trimSpace identifier = "" || trimSpace channel = "" || code = "") .invalidOTPCode
        let matched ← matchChallenge cfg (trimSpace identifier) (trimSpace channel) code
        store (.consumeChallenge matched.1.id)
        let user ← findOrCreate (trimSpace identifier) (trimSpace channel)
        failIf (user.status = .signupPending) .invalidOTPCode
        pure user, ?_, ?_⟩
      · refine makes_bind (frames_uses (uses_failIf _ _)) fun _ _ => ?_
        refine makes_bind
          (frames_uses (uses_matchChallenge (silent_of_plain frames_plain) hlatest _))
          fun res _ => ?_
        refine makes_bind (frames_uses (uses_store (by simp [Frames, Store.Op.writes]))) fun _ _ =>
          ?_
        refine makes_bind (identifies_findOrCreate _ _) fun user hnamed => ?_
        exact makes_bind (frames_uses (uses_failIf _ _)) fun _ _ => .done hnamed
      · simp only [Call.program, verifyOTP, Program.bind_eq, Program.pure_eq, Program.bind_assoc,
          Program.done_bind]
  | loginWithPassword identifier password =>
      refine ⟨do
        failIf (trimSpace identifier = "" || password = "") .invalidCredentials
        let user ← findByIdentifier cfg (trimSpace identifier)
        failIf (user.status = .signupPending) .invalidCredentials
        failIf (user.status = .disabled) .userDisabled
        failIf (user.passwordHash = "" || !cfg.env.compare user.passwordHash password)
          .invalidCredentials
        ignore (.updateLastLogin user.id)
        pure user, ?_, ?_⟩
      · refine makes_bind (frames_uses (uses_failIf _ _)) fun _ _ => ?_
        refine makes_bind (identifies_findByIdentifier _) fun user hnamed => ?_
        refine makes_bind (frames_uses (uses_failIf _ _)) fun _ _ => ?_
        refine makes_bind (frames_uses (uses_failIf _ _)) fun _ _ => ?_
        refine makes_bind (frames_uses (uses_failIf _ _)) fun _ _ => ?_
        exact makes_bind (frames_uses (uses_ignore (by simp [Frames, Store.Op.writes]))) fun _ _ =>
          .done hnamed
      · simp only [Call.program, loginWithPassword, Program.bind_eq, Program.pure_eq,
          Program.bind_assoc, Program.done_bind]
  | verifySignup email code password =>
      refine ⟨do
        failIf (!cfg.signupOpen) .signupDisabled
        failIf (cfg.env.normalizeEmail email = "" || trimSpace code = "") .invalidOTPCode
        let matched ← matchChallenge cfg (cfg.env.normalizeEmail email) channelEmail
          (trimSpace code)
        let user ← matchSignup cfg matched.1 (cfg.env.normalizeEmail email) password
        store (.consumeChallenge matched.1.id)
        storeMapping .userNotFound .invalidOTPCode (.verifySignup user.id matched.2)
        pure user, ?_, ?_⟩
      · refine makes_bind (frames_uses (uses_failIf _ _)) fun _ _ => ?_
        refine makes_bind (frames_uses (uses_failIf _ _)) fun _ _ => ?_
        refine makes_bind
          (frames_uses (uses_matchChallenge (silent_of_plain frames_plain) hlatest _))
          fun res _ => ?_
        refine makes_bind (identifies_matchSignup _ _ _) fun user hnamed => ?_
        refine makes_bind (frames_uses (uses_store (by simp [Frames, Store.Op.writes]))) fun _ _ =>
          ?_
        exact makes_bind (frames_uses (uses_storeMapping (by simp [Frames, Store.Op.writes])))
          fun _ _ => .done hnamed
      · simp only [Call.program, verifySignup, Program.bind_eq, Program.pure_eq, Program.bind_assoc,
          Program.done_bind]
  | _ => cases hlogin

theorem carries_kept {w w₁ w' : World} (hkept : Kept w.db w₁.db) (h : Carries cfg w₁ w' pair row) :
    Carries cfg w w' pair row := by
  refine ⟨stored_kept hkept h.stored, h.agrees, fun org horg => ?_,
    h.unchanged.trans hkept.memberships⟩
  have hmember := h.member org horg
  unfold ActiveIn at hmember ⊢
  rw [hkept.memberships] at hmember
  exact hmember

theorem selects_kept {db db₁ : DB} {user : Uuid} {org : Option Uuid} (hkept : Kept db db₁)
    (h : Selects ok cfg db₁ user org) : Selects ok cfg db user org := by
  have hsame : activeMemberships db₁ user = activeMemberships db user := by
    unfold activeMemberships
    rw [hkept.memberships]
  refine ⟨fun g hg => ?_, fun hall hauto hone => h.listed hall hauto (by rw [hsame]; exact hone),
    h.unlisted⟩
  obtain ⟨hauto, hmember, hone⟩ := h.only g hg
  unfold ActiveIn at hmember ⊢
  rw [hkept.memberships] at hmember
  exact ⟨hauto, hmember, by rw [← hsame]; exact hone⟩

theorem login_mustFor {q : Action User} (hq : Identifies q) (hdb : w.db.Integrity) :
    (q >>= fun user => issueTokens cfg user.id).MustFor (exec cfg.env) ok (fun pair w' => ∃ row,
      Carries cfg w w' pair row ∧ Selects ok cfg w.db row.userID row.orgID) w := by
  have hexec : ∀ o c (w₁ : World), Frames o → Kept w.db w₁.db ∧ w₁.db.Integrity →
      Canonical o (exec cfg.env o c w₁).1 ∧
        Kept w.db (exec cfg.env o c w₁).2.db ∧ (exec cfg.env o c w₁).2.db.Integrity := by
    intro o c w₁ ho h₁
    refine ⟨exec_canonical _ o c w₁, kept_trans h₁.1 (exec_kept ho c w₁), ?_⟩
    refine exec_db_rel (R := fun db db' => db.Integrity → db'.Integrity) (fun _ h => h) ?_ c h₁.2
    intro o' _ now id pick hint
    exact Store.exec_integrity o' hint
  have hfirst := Program.must_of_makes hexec hq w ⟨kept_refl _, hdb⟩
  refine Program.mustFor_bind (Program.mustFor_of_must hfirst) fun user w₁ h₁ => ?_
  obtain ⟨⟨id, hid⟩, hkept, hint⟩ := h₁
  rw [hid]
  refine Program.mustFor_mono ?_ (issueTokens_mustFor id hint)
  rintro pair w' ⟨row, hcarries, hselects⟩
  exact ⟨row, carries_kept hkept hcarries, selects_kept hkept hselects⟩

end Login

/-! ## Refreshing and selecting -/

section Exchange

variable {cfg : Config}

theorem findValid_found {e : Err} (tokenHash : String) (w : World) :
    (storeOr e (.findValid tokenHash)).Must (exec cfg.env) (fun v w' => w'.db = w.db ∧
      ∃ r ∈ w.db.refreshTokens, r.valid w.now tokenHash = true ∧
      v = (r.userID.string, orgText r.orgID)) w := by
  refine must_passes (passes_storeOr _ (.findValid tokenHash)) fun c v hv => ?_
  obtain ⟨hanswer, hdb⟩ := exec_store_ok hv
  obtain ⟨r, hr, hvalid, rfl⟩ := Store.exec_findValid_ok hanswer
  refine ⟨?_, r, hr, Disabled.valid_mono (le_max_left _ _) hvalid, rfl⟩
  rw [hdb]
  exact Store.exec_reads rfl _ _ _ _

/-- The remembered organization is kept while the membership is active, and else dropped. -/
theorem activeOrg_must (user : Uuid) (org : Option Uuid) (w : World) :
    (activeOrg user.string (orgText org)).Must (exec cfg.env) (fun text w' => Kept w.db w'.db ∧
      ∃ kept, text = orgText kept ∧ (kept = org ∨ kept = none) ∧
        ∀ g, kept = some g → ActiveIn w.db g user) w := by
  refine Program.must_and (must_frames (uses_activeOrg frames_plain _ _) w) ?_
  have hnone : ∀ g, none = some g → ActiveIn w.db g user := fun g hg => by cases hg
  cases org with
  | none => exact .done ⟨none, rfl, .inl rfl, hnone⟩
  | some g =>
      have htext : orgText (some g) ≠ "" := Uuid.string_ne_empty g
      unfold activeOrg
      rw [if_neg htext]
      refine safe_bind (Program.must_reify (Disabled.isActiveMember_must _ _)) fun r w' hr => ?_
      split
      · obtain ⟨_, _, hmember⟩ := hr true rfl
        obtain ⟨m, hm, horg, huser, hstatus⟩ := hmember rfl
        rw [trimSpace_orgText] at horg
        rw [Uuid.trimSpace_string, Uuid.parse_string] at huser
        have hparse : Uuid.parse g.string = some m.orgID := horg
        rw [Uuid.parse_string] at hparse
        refine .done ⟨some g, rfl, .inl rfl, fun g' hg' => ?_⟩
        obtain rfl := Option.some.inj hg'
        exact ⟨m, hm, (Option.some.inj hparse).symm, (Option.some.inj huser).symm, hstatus⟩
      · exact .done ⟨none, rfl, .inr rfl, hnone⟩

theorem revoke_kept (tokenHash : String) (w : World) :
    (ignore (.revoke tokenHash)).Must (exec cfg.env) (fun _ w' => Kept w.db w'.db) w := by
  have hframes : Frames (.store (.revoke tokenHash)) := trivial
  exact must_frames (uses_ignore hframes) w

theorem kept_of_eq {db db' : DB} (h : db' = db) : Kept db db' :=
  h ▸ kept_refl db

theorem refresh_issues (token : String) (w : World) :
    (refresh cfg token).Must (exec cfg.env) (fun pair w' => ∃ row, Carries cfg w w' pair row ∧
      ∃ r ∈ w.db.refreshTokens, r.valid w.now (cfg.env.hashRefreshToken token) = true ∧
        r.userID = row.userID ∧ (row.orgID = r.orgID ∨ row.orgID = none)) w := by
  refine safe_bind (findValid_found _ w) fun found w₁ h₁ => ?_
  obtain ⟨hdb₁, r, hr, hvalid, rfl⟩ := h₁
  refine safe_bind (revoke_kept _ w₁) fun _ w₂ hkept₂ => ?_
  refine safe_bind (activeOrg_must r.userID r.orgID w₂) fun text w₃ h₃ => ?_
  obtain ⟨hkept₃, kept, rfl, hfrom, hmember⟩ := h₃
  have hbefore : Kept w.db w₂.db := kept_trans (kept_of_eq hdb₁) hkept₂
  refine safe_mono ?_ (issueTokensForOrg_stores r.userID (trimSpace_orgText kept) w₃)
  rintro pair w' ⟨row, hstored, huser, hnames, hclaim, hsame⟩
  have horg : row.orgID = kept := names_orgText hnames rfl
  have hissued : Carries cfg w₂ w' pair row :=
    carries_of_issued hkept₃ hstored huser hclaim (fun g hg => hmember g (horg.symm.trans hg)) hsame
  exact ⟨row, carries_kept hbefore hissued, r, hr, hvalid, huser.symm, by rw [horg]; exact hfrom⟩

theorem selectOrg_issues (userID token orgID : String) (w : World) :
    (selectOrg cfg userID token orgID).Must (exec cfg.env) (fun pair w' => ∃ row,
      Carries cfg w w' pair row ∧
        ∃ org, Uuid.parse (trimSpace orgID) = some org ∧ row.orgID = some org) w := by
  refine safe_bind (safe_failIf (Q := fun _ w' => w' = w ∧ trimSpace orgID ≠ "")
    fun h => ⟨rfl, by simp at h; exact h.2⟩) fun _ w₁ h₁ => ?_
  obtain ⟨rfl, hne⟩ := h₁
  refine safe_bind (Disabled.isActiveMember_must _ _) fun active w₂ h₂ => ?_
  obtain ⟨_, hdb₂, hmember⟩ := h₂
  refine safe_bind (safe_failIf (Q := fun _ w₃ => w₃ = w₂ ∧ active = true)
    fun h => ⟨rfl, by simpa using h⟩) fun _ w₃ h₃ => ?_
  obtain ⟨rfl, hactive⟩ := h₃
  obtain ⟨m, hm, horg, huser, hstatus⟩ := hmember hactive
  refine safe_bind (findValid_found _ w₃) fun found w₄ h₄ => ?_
  obtain ⟨hdb₄, r, _, _, rfl⟩ := h₄
  refine safe_bind (safe_failIf (Q := fun _ w₅ => w₅ = w₄ ∧ r.userID.string = trimSpace userID)
    fun h => ⟨rfl, by simpa using h⟩) fun _ w₅ h₅ => ?_
  obtain ⟨rfl, hsubject⟩ := h₅
  refine safe_bind (revoke_kept _ w₅) fun _ w₆ hkept₆ => ?_
  have hkept : Kept w₁.db w₆.db := kept_trans (kept_of_eq (hdb₄.trans hdb₂)) hkept₆
  -- the member, the subject of the token and the caller are one user
  rw [trimSpace_trimSpace] at horg
  rw [trimSpace_trimSpace, ← hsubject, Uuid.parse_string] at huser
  rw [← hsubject]
  refine safe_mono ?_ (issueTokensForOrg_stores r.userID (trimSpace_trimSpace orgID) w₆)
  rintro pair w' ⟨row, hstored, hrow, hnames, hclaim, hsame⟩
  have hchosen : row.orgID = some m.orgID := by
    rcases hnames with ⟨hempty, _⟩ | ⟨_, g, hparse, hg⟩
    · exact absurd hempty hne
    · rw [hg, ← hparse, horg]
  refine ⟨row, carries_of_issued hkept hstored hrow hclaim (fun g hg => ?_) hsame, m.orgID,
    horg, hchosen⟩
  obtain rfl := Option.some.inj (hchosen.symm.trans hg)
  exact ⟨m, hm, rfl, (Option.some.inj huser).symm, hstatus⟩

end Exchange

/-! ## Every call -/

section Calls

variable {cfg : Config} {call : Call} {cs : Nat → Choice} {w : World}

/-- What a reply has to meet: if it is a pair, the pair has been issued. -/
abbrev Replies (cfg : Config) (call : Call) (cs : Nat → Choice) (w : World) (reply : Reply)
    (w' : World) :
    Prop :=
  ∀ pair, reply = .tokens pair → ∃ row, Issued cfg call cs w w' pair row

theorem login_issues (hlogin : isLogin call = true) (hdb : w.db.Integrity) :
    (call.program cfg).MustFor (exec cfg.env) (Performs cfg call cs w)
    (Replies cfg call cs w) w := by
  obtain ⟨q, hq, hprogram⟩ := login_program cfg hlogin
  rw [hprogram]
  refine Program.mustFor_map (Program.mustFor_mono ?_ (login_mustFor hq hdb))
  rintro pair w' ⟨row, hcarries, hselects⟩ pair' heq
  obtain rfl := Reply.tokens.inj heq
  refine ⟨row, hcarries, ?_, ?_, fun _ hsome => ?_, fun _ => hselects.listed,
    fun _ => hselects.unlisted⟩
  · rintro token rfl
    cases hlogin
  · rintro userID token orgID rfl
    cases hlogin
  · obtain ⟨g, hg⟩ := Option.isSome_iff_exists.mp hsome
    obtain ⟨hauto, _, hone⟩ := hselects.only g hg
    exact ⟨hauto, hone⟩

/-- The rules of a login are about logins only. -/
theorem issued_exchange {w' : World} (hcall : isLogin call = false)
    (hcarries : Carries cfg w w' pair row)
    (hrefreshed : ∀ token, call = .refresh token → ∃ r ∈ w.db.refreshTokens,
      r.valid w.now (cfg.env.hashRefreshToken token) = true ∧ r.userID = row.userID ∧
        (row.orgID = r.orgID ∨ row.orgID = none))
    (hchosen : ∀ userID token orgID, call = .selectOrg userID token orgID →
      ∃ org, Uuid.parse (trimSpace orgID) = some org ∧ row.orgID = some org) :
    Issued cfg call cs w w' pair row := by
  have hnot : isLogin call ≠ true := by rw [hcall]; decide
  exact ⟨hcarries, hrefreshed, hchosen, fun h => absurd h hnot, fun h => absurd h hnot,
    fun h => absurd h hnot⟩

/-- Other calls reply with something else. -/
theorem replies_other {α : Type} {f : α → Reply} {p : Action α}
    (hf : ∀ a pair, f a ≠ .tokens pair) :
    (f <$> p).Must (exec cfg.env) (Replies cfg call cs w) w := by
  refine safe_map (safe_mono ?_ (must_true p w))
  intro a w' _ pair heq
  exact absurd heq (hf a pair)

theorem call_issues (hdb : w.db.Integrity) :
    (call.program cfg).MustFor (exec cfg.env) (Performs cfg call cs w)
    (Replies cfg call cs w) w := by
  by_cases hlogin : isLogin call = true
  · exact login_issues hlogin hdb
  · refine Program.mustFor_of_must ?_
    cases call with
    | verifyOTP | loginWithPassword | verifySignup => exact absurd rfl hlogin
    | refresh token =>
        refine safe_map (safe_mono ?_ (refresh_issues token w))
        rintro pair w' ⟨row, hcarries, hfrom⟩ pair' heq
        obtain rfl := Reply.tokens.inj heq
        refine ⟨row, issued_exchange rfl hcarries (fun token' htoken => ?_)
          fun _ _ _ h => by cases h⟩
        cases htoken
        exact hfrom
    | selectOrg userID token orgID =>
        refine safe_map (safe_mono ?_ (selectOrg_issues userID token orgID w))
        rintro pair w' ⟨row, hcarries, hchosen⟩ pair' heq
        obtain rfl := Reply.tokens.inj heq
        refine ⟨row, issued_exchange rfl hcarries (fun _ h => by cases h) fun _ _ _ h => ?_⟩
        cases h
        exact hchosen
    | _ => exact replies_other fun _ _ h => by cases h

end Calls

/-- In every state that calls lead to, however they interleave, a pair that a call returns is
issued. -/
theorem org_claim_sound (cfg : Config) {w₀ : World} (h₀ : w₀.db.Integrity) (calls : List Call)
    (sched : Schedule) (call : Call) (cs : Nat → Choice) {pair : TokenPair} {w' : World}
    (hrun : call.perform cfg cs (runOn cfg (serve cfg w₀ calls) sched).world =
      (.ok (.tokens pair), w')) :
    ∃ row, Issued cfg call cs (runOn cfg (serve cfg w₀ calls) sched).world w' pair row := by
  have hdb := serve_integrity cfg calls h₀ sched
  generalize (runOn cfg (serve cfg w₀ calls) sched).world = w at hrun hdb ⊢
  have hw : ((call.program cfg).run (exec cfg.env) cs w).2 = w' := congrArg Prod.snd hrun
  have hreplies : Replies cfg call cs w (.tokens pair)
      ((call.program cfg).run (exec cfg.env) cs w).2 :=
    Program.mustFor_run (call_issues hdb) cs _ (fun _ hs => hs) (congrArg Prod.fst hrun)
  rw [hw] at hreplies
  exact hreplies pair rfl

/-- Ann registers with an organization and verifies the address. -/
def foundingCalls : List Call :=
  [.registerWithEmail "ann@example.com" "secret" "Ann" "" "acme" "",
    .verifySignup "ann@example.com" "123456" "secret"]

def foundingSched : Schedule :=
  turns 0 1000 100 12 ++ turns 1 1100 200 20

def founded : World :=
  (runOn toyConfig (serve toyConfig toyWorld foundingCalls) foundingSched).world

/-- The organization and the subject of a pair. -/
def orgAndSubject : Except Err Reply → Option (String × String)
  | .ok (.tokens pair) => some (pair.access.claims.orgID, pair.access.claims.subject)
  | _ => none

theorem orgAndSubject_eq {r : Except Err Reply} {org subject : String}
    (h : orgAndSubject r = some (org, subject)) :
    ∃ pair, r = .ok (.tokens pair) ∧ pair.access.claims.orgID = org ∧
      pair.access.claims.subject = subject := by
  unfold orgAndSubject at h
  split at h
  · rename_i pair
    obtain ⟨horg, hsubject⟩ := Prod.mk.inj (Option.some.inj h)
    exact ⟨pair, rfl, horg, hsubject⟩
  · cases h

/-- Ann selects the organization in another spelling. -/
def selection : Call :=
  .selectOrg (Uuid.ofNat 102).string ((Uuid.ofNat 208).string ++ (Uuid.ofNat 209).string)
    "urn:uuid:00000000-0000-0000-0000-000000000067"

set_option maxRecDepth 10000 in
/-- The claim is the organization in its canonical spelling. -/
theorem org_claim_sound_selected :
    toyWorld.db.Integrity ∧ ∃ pair w',
      selection.perform toyConfig (fun n => { now := 2000, id := Uuid.ofNat (300 + n) })
        (runOn toyConfig (serve toyConfig toyWorld foundingCalls) foundingSched).world =
          (.ok (.tokens pair), w') ∧
      pair.access.claims.orgID = (Uuid.ofNat 103).string ∧
      ∃ row, Issued toyConfig selection (fun n => { now := 2000, id := Uuid.ofNat (300 + n) })
        (runOn toyConfig (serve toyConfig toyWorld foundingCalls) foundingSched).world w'
          pair row := by
  have hseen : orgAndSubject (selection.perform toyConfig
      (fun n => { now := 2000, id := Uuid.ofNat (300 + n) })
      (runOn toyConfig (serve toyConfig toyWorld foundingCalls) foundingSched).world).1 =
        some ((Uuid.ofNat 103).string, (Uuid.ofNat 102).string) := by
    decide +kernel
  obtain ⟨pair, hpair, horg, _⟩ := orgAndSubject_eq hseen
  refine ⟨DB.integrity_empty, pair, _, Call.perform_eq hpair, horg, ?_⟩
  exact org_claim_sound toyConfig DB.integrity_empty foundingCalls foundingSched selection _
    (Call.perform_eq hpair)

set_option maxRecDepth 10000 in
/-- Ann logs in while the organizations cannot be listed. -/
theorem unlisted_login_carries_none :
    ¬ ∀ (call : Call) (cs : Nat → Choice) (pair : TokenPair) (user : Uuid), isLogin call = true →
      (call.perform toyConfig cs founded).1 = .ok (.tokens pair) →
      pair.access.claims.subject = user.string →
      (pair.access.claims.orgID ≠ "" ↔
        toyConfig.autoSelectSingleOrg = true ∧ (activeMemberships founded.db user).length = 1) := by
  intro h
  obtain ⟨hseen, hone⟩ :
      orgAndSubject ((Call.loginWithPassword "ann@example.com" "secret").perform toyConfig
        (fun n => { now := 2000, id := Uuid.ofNat (300 + n), fails := n == 2 }) founded).1 =
        some ("", (Uuid.ofNat 102).string) ∧
      (activeMemberships founded.db (Uuid.ofNat 102)).length = 1 := by
    decide +kernel
  obtain ⟨pair, hpair, horg, hsubject⟩ := orgAndSubject_eq hseen
  exact (h _ _ pair (Uuid.ofNat 102) rfl hpair hsubject).mpr ⟨rfl, hone⟩ horg

end OrgClaim
end Service
end OrbitAuth
