import OrbitAuth.Postgres.Commits
import OrbitAuth.Safety.PreHijack
import OrbitAuth.Service.Requests

/-!
# LastRegistration — which registration an activated account comes from

An address can be registered again and again until one registration is verified.  The first call
creates the account, the later ones replace its credentials, within the cooldown or after it.  The
password and the display name always come from the last call.  The organization does not: only the
call that creates the account creates one, and what a later call says about it is dropped.

* `Waiting` — the pending account, with the credentials of one registration and the organization of
  another;
* `first_waiting`, `retry_waiting` — the two kinds of calls;
* `lastWins_iff` — over every sequence: the last registration wins exactly when it asks for no
  organization or for the one of the first.
-/

namespace OrbitAuth
namespace Service
namespace LastRegistration

open Domain Foundations Postgres PreHijack

/-! ## Registrations -/

/-- A call of `RegisterWithEmail` and what the environment answers it. -/
structure Registration where
  email : String
  password : String
  displayName : String
  locale : String
  orgName : String
  inviteToken : String
  choices : Nat → Choice

def Registration.call (r : Registration) : Call :=
  .registerWithEmail r.email r.password r.displayName r.locale r.orgName r.inviteToken

/-- The registration is for the address, comes without an invitation and succeeds. -/
structure Succeeds (cfg : Config) (address : String) (r : Registration) (w : World) : Prop where
  address : cfg.env.normalizeEmail r.email = address
  uninvited : trimSpace r.inviteToken = ""
  succeeds : ∃ reply, (r.call.perform cfg r.choices w).1 = .ok reply

/-- The world after the registrations. -/
def register (cfg : Config) : List Registration → World → World
  | [], w => w
  | r :: rest, w => register cfg rest (r.call.perform cfg r.choices w).2

def AllSucceed (cfg : Config) (address : String) : List Registration → World → Prop
  | [], _ => True
  | r :: rest, w =>
      Succeeds cfg address r w ∧ AllSucceed cfg address rest (r.call.perform cfg r.choices w).2

/-- The user is an active member of an organization with this name. -/
def MemberOf (db : DB) (user : Uuid) (name : String) : Prop :=
  ∃ o ∈ db.orgs, o.name = name ∧ ∃ m ∈ db.memberships, m.orgID = o.id ∧ m.userID = user ∧
  m.status = .active

/-- The account of the address is active and is what the registration asked for. -/
def LastWins (env : Env) (address : String) (last : Registration) (db : DB) : Prop :=
  ∃ r ∈ db.users, r.email = some address ∧ r.status = .active ∧
    VerifiesExactly env r.user.passwordHash last.password ∧
    r.user.displayName = trimSpace last.displayName ∧
    (trimSpace last.orgName ≠ "" → MemberOf db r.id (trimSpace last.orgName))

/-- The account carries the credentials of `last`, and belongs to the organization named `orgName`
if that is not blank and to no other. -/
structure Carries (env : Env) (address : String) (last : Registration) (orgName : String) (db : DB)
    (r : UserRow) : Prop where
  mem : r ∈ db.users
  email : r.email = some address
  password : ∃ salt, r.passwordHash = some (env.hash salt last.password)
  displayName : r.displayName = some (trimSpace last.displayName)
  org : ∀ name, name ≠ "" → (MemberOf db r.id name ↔ name = trimSpace orgName)

/-- The account of the address is pending. -/
def Waiting (env : Env) (address : String) (last : Registration) (orgName : String)
    (db : DB) : Prop :=
  ∃ r, Carries env address last orgName db r ∧ r.unverified = true

/-! ## Operations on other tables -/

/-- Operations that leave accounts, organizations and memberships alone. -/
def Aside : Port → Prop
  | .store o =>
      TableName.users ∉ o.writes ∧ TableName.orgs ∉ o.writes ∧ TableName.memberships ∉ o.writes
  | _ => True

structure Same (db db' : DB) : Prop where
  users : db'.users = db.users
  orgs : db'.orgs = db.orgs
  memberships : db'.memberships = db.memberships

theorem same_refl (db : DB) : Same db db :=
  ⟨rfl, rfl, rfl⟩

theorem silent_aside : Silent Aside := by
  intro o ho _
  cases o with
  | store o =>
      cases o <;> first | (cases ho; done) | simp [Aside, Store.Op.writes]
  | _ => trivial

section Frames

variable {env : Env} {db db' : DB} {address orgName : String} {last : Registration} {r : UserRow}

theorem exec_aside {o : Port} (ho : Aside o) (c : Choice) (w : World) :
    Same w.db (exec env o c w).2.db := by
  refine exec_db_rel (R := Same) same_refl ?_ c
  rintro o' rfl now id pick
  exact ⟨Store.exec_same ho.1 now id pick w.db, Store.exec_same ho.2.1 now id pick w.db,
    Store.exec_same ho.2.2 now id pick w.db⟩

/-- A part of a use case that only touches other tables. -/
theorem must_aside {α : Type} {p : Action α} (hp : p.Uses Aside) (w : World) :
    p.Must (exec env) (fun _ w' => Same w.db w'.db) w := by
  refine safe_keeps (K := fun w' : World => Same w.db w'.db) ?_ ?_ hp w (same_refl w.db)
  · rintro _ w₁ w₂ rfl h
    exact h
  · intro o ho w₁ _ h c
    have hstep : Same w₁.db (exec env o c w₁).2.db := exec_aside ho c w₁
    exact ⟨trivial, trivial, hstep.users.trans h.users, hstep.orgs.trans h.orgs,
      hstep.memberships.trans h.memberships⟩

theorem memberOf_same (h : Same db db') (user : Uuid) (name : String) :
    MemberOf db' user name ↔ MemberOf db user name := by
  unfold MemberOf
  rw [h.orgs, h.memberships]

theorem carries_same (h : Same db db') (hr : Carries env address last orgName db r) :
    Carries env address last orgName db' r where
  mem := h.users ▸ hr.mem
  email := hr.email
  password := hr.password
  displayName := hr.displayName
  org name hname := (memberOf_same h r.id name).trans (hr.org name hname)

theorem waiting_same (h : Same db db') (hw : Waiting env address last orgName db) :
    Waiting env address last orgName db' := by
  obtain ⟨r, hr, hunverified⟩ := hw
  exact ⟨r, carries_same h hr, hunverified⟩

end Frames

/-! ## The writes -/

/-- The organization of a registration with this `org_name`. -/
def OrgFor (orgName : String) (org : Option Organization) : Prop :=
  (trimSpace orgName = "" ∧ org = none) ∨
    trimSpace orgName ≠ "" ∧ ∃ o, org = some o ∧ o.name = trimSpace orgName

/-- The account a registration asks for. -/
structure Asks (env : Env) (address : String) (last : Registration) (user : User) : Prop where
  email : user.email = address
  password : ∃ salt, user.passwordHash = env.hash salt last.password
  displayName : user.displayName = trimSpace last.displayName
  status : user.status = .signupPending
  emailVerified : user.emailVerified = false

section Writes

variable {env : Env} {now : Time} {id : Uuid} {pick : Nat} {db : DB} {address orgName : String}
  {last prev : Registration} {user : User} {t : Time}

/-- A new identifier has no memberships. -/
theorem unenrolled_of_new (hint : db.Integrity) {u : Uuid} (hnew : ∀ r ∈ db.users, r.id ≠ u) :
    ∀ m ∈ db.memberships, m.userID ≠ u := by
  intro m hm huser
  obtain ⟨r, hr, hid⟩ := hint.membershipUser m hm
  exact hnew r hr (hid.trans huser)

/-- The founder of an organization who had no membership belongs to it alone. -/
theorem memberOf_organized {u : Uuid} (hnone : ∀ m ∈ db.memberships, m.userID ≠ u) {org : OrgRow}
    (hfree : ∀ o ∈ db.orgs, o.id ≠ org.id) (events : List Event) (name : String) :
    MemberOf (Store.organized now db org u events) u name ↔ name = org.name := by
  have hfind : db.memberships.find? (org.id, u) = none :=
    find?_eq_none.mpr fun m hm hkey => hnone m hm (Prod.mk.inj hkey).2
  have hmembers : (Store.organized now db org u events).memberships =
      db.memberships.put ⟨org.id, u, .active, now, now⟩ := by
    simp [Store.organized, Store.enrolled, hfind]
  unfold MemberOf
  rw [hmembers]
  constructor
  · rintro ⟨o, ho, rfl, m, hm, horg, huser, _⟩
    rcases mem_put.mp hm with rfl | ⟨hm, _⟩
    · rcases mem_put.mp ho with rfl | ⟨ho, _⟩
      · rfl
      · exact absurd horg.symm (hfree o ho)
    · exact absurd huser (hnone m hm)
  · rintro rfl
    exact ⟨org, mem_put.mpr (.inl rfl), rfl, _, mem_put.mpr (.inl rfl), rfl, rfl, rfl⟩

/-- A registration of a new address creates the account that waits for it. -/
theorem waiting_created (hint : db.Integrity) (hnew : ∀ r ∈ db.users, r.email ≠ some address)
    (hasks : Asks env address last user) {org : Option Organization}
    (horg : OrgFor last.orgName org) {created : Bool}
    (h : ((Store.Op.createSignupUser user org none t).exec env now id pick db).1 = .ok created) :
    created = true ∧ Waiting env address last last.orgName
      ((Store.Op.createSignupUser user org none t).exec env now id pick db).2 := by
  have hcommits := Store.commits_of_exec (o := .createSignupUser user org none t)
    (Store.definite_createSignupUser now user org none t) h
  generalize ((Store.Op.createSignupUser user org none t).exec env now id pick db).2 =
    db' at hcommits ⊢
  obtain ⟨uid, _, ⟨⟨r, hr, hemail⟩, _, _⟩ | ⟨hfree, hcreated, db₁, hjoin, hown⟩⟩ :=
    Store.commits_createSignupUser.mp hcommits
  · exact absurd (hasks.email ▸ hemail) (hnew r hr)
  · obtain ⟨salt, hhash⟩ := hasks.password
    obtain ⟨_, rfl⟩ := Store.commits_pure.mp hjoin
    have hids : ∀ s ∈ db.users, s.id ≠ uid := fun s hs => (hfree s hs).1
    have hnone := unenrolled_of_new hint hids
    have hunverified : (Store.signupRow now uid user t).unverified = true := by
      simp [Store.signupRow, newUser, UserRow.unverified, hasks.status, hasks.emailVerified]
    have hrest : Store.signupRow now uid user t ∈ db'.users ∧
        ∀ name, name ≠ "" → (MemberOf db' uid name ↔ name = trimSpace last.orgName) := by
      -- a blank name founds no organization, and no membership can be of an older account
      rcases horg with ⟨hblank, rfl⟩ | ⟨_, o, rfl, honame⟩
      · obtain ⟨_, rfl⟩ := Store.commits_pure.mp hown
        refine ⟨mem_put.mpr (.inl rfl), fun name hname => ?_⟩
        rw [hblank]
        refine iff_of_false ?_ hname
        rintro ⟨_, _, _, m, hm, _, huser, _⟩
        exact hnone m hm huser
      · obtain ⟨oid, _, _, _, hofree, _, rfl⟩ := Store.commits_ownOrg.mp hown
        have hnone' : ∀ m ∈ (Store.registered now db uid user t).memberships, m.userID ≠ uid :=
          hnone
        exact ⟨mem_put.mpr (.inl rfl), fun name _ => honame ▸ memberOf_organized hnone'
          hofree _ name⟩
    exact ⟨hcreated, _, ⟨hrest.1, congrArg some hasks.email, ⟨salt, congrArg some hhash⟩,
      congrArg some hasks.displayName, hrest.2⟩, hunverified⟩

/-- A later registration finds the account and creates nothing. -/
theorem not_created (hw : Waiting env address prev orgName db) (hasks : Asks env address last user)
    {org : Option Organization} {created : Bool}
    (h : ((Store.Op.createSignupUser user org none t).exec env now id pick db).1 = .ok created) :
    created = false ∧
    ((Store.Op.createSignupUser user org none t).exec env now id pick db).2 = db := by
  obtain ⟨r, hr, _⟩ := hw
  rcases Store.exec_createSignupUser_inv h with ⟨_, hcreated, hdb⟩ | ⟨hfree, _, _⟩
  · exact ⟨hcreated, hdb⟩
  · exact absurd (hasks.email ▸ hr.email) (hfree r hr.mem)

/-- Replacing the credentials of the account. -/
theorem waiting_reissued (hw : Waiting env address prev orgName db)
    (hasks : Asks env address last user) {challenge : Option OTPChallenge} {v : String × Bool}
    (h : ((Store.Op.reissuePendingSignup user challenge none t).exec env now id pick db).1 =
      .ok v) :
    Waiting env address last orgName
      ((Store.Op.reissuePendingSignup user challenge none t).exec env now id pick db).2 := by
  obtain ⟨r, hr, hunverified⟩ := hw
  have hat : r.unverifiedAt user.email = true := by
    rw [UserRow.unverifiedAt, hr.email, hasks.email, hunverified]
    simp
  rcases Store.exec_reissue_inv h with ⟨hhead, _, _⟩ | ⟨_, _, _, hrotate⟩
  · have hmem := mem_select.mpr ⟨hr.mem, hat⟩
    rw [List.head?_eq_none_iff.mp hhead] at hmem
    cases hmem
  · generalize ((Store.Op.reissuePendingSignup user challenge none t).exec env now id pick db).2 =
      db' at hrotate ⊢
    -- rotating the challenge does not touch the account
    have hsame : Same (Store.reissued now db user) db' := by
      cases challenge with
      | none =>
          obtain ⟨_, rfl⟩ := Store.commits_pure.mp hrotate
          exact same_refl _
      | some ch =>
          obtain ⟨_, _, _, _, _, rfl⟩ := Store.commits_rotateChallenge.mp hrotate
          exact ⟨rfl, rfl, rfl⟩
    obtain ⟨salt, hhash⟩ := hasks.password
    refine waiting_same hsame ⟨r.reissued now user.passwordHash user.displayName,
      ⟨?_, hr.email, ⟨salt, congrArg some hhash⟩, congrArg some hasks.displayName, hr.org⟩,
      hunverified⟩
    exact (mem_update (key_reissued _ _ _)).mpr (.inl ⟨r, hr.mem, hat, rfl⟩)

/-- Activating the account changes nothing else about it. -/
theorem carries_verified {r : UserRow} (hr : Carries env address last orgName db r)
    (hunverified : r.unverified = true) {verifiedAt : Option Time} :
    Carries env address last orgName (Store.verified now db r.id verifiedAt)
    (r.activated now verifiedAt) where
  mem := by
    have hwith : r.unverifiedWith r.id = true :=
      Bool.and_eq_true_iff.mpr ⟨decide_eq_true rfl, hunverified⟩
    exact (mem_update (key_activated _ _)).mpr (.inl ⟨r, hr.mem, hwith, rfl⟩)
  email := hr.email
  password := hr.password
  displayName := hr.displayName
  org := hr.org

end Writes

/-! ## The calls -/

section Calls

variable {cfg : Config} {address orgName : String} {last prev : Registration} {w : World}

/-- Hashing writes nothing, and the hash is one of the password. -/
theorem hash_must (password : String) (w : World) :
    (hash password).Must (exec cfg.env)
      (fun h w' => w'.db = w.db ∧ ∃ salt, h = cfg.env.hash salt password) w := by
  refine must_call fun c => ?_
  cases hf : c.fails with
  | true =>
      have hx : exec cfg.env (.hash password) c w = (.error .dependency, w.advance c.now) := by
        simp [exec, answer, attempt, hf]
      rw [hx]
      exact .fail
  | false =>
      have hx : exec cfg.env (.hash password) c w =
          (.ok (cfg.env.hash c.salt password), w.advance c.now) := by
        simp [exec, answer, attempt, hf]
      rw [hx]
      exact .done ⟨rfl, c.salt, rfl⟩

/-- The organization of a registration without an invitation is the one it names. -/
theorem signupOrg_must (orgName : String) (t : Time) (w : World) :
    (signupOrg none orgName t).Must (exec cfg.env)
    (fun org w' => w'.db = w.db ∧ OrgFor orgName org) w := by
  unfold signupOrg
  split
  · rename_i hblank
    exact .done ⟨rfl, .inl ⟨by simpa using hblank, rfl⟩⟩
  · rename_i hgiven
    exact must_call fun c => .done ⟨rfl, .inr ⟨by simpa using hgiven, _, rfl, rfl⟩⟩

/-- What precedes the first write of a registration without an invitation only draws and reads. -/
theorem register_must {post : Unit → World → Prop}
    (haddress : cfg.env.normalizeEmail last.email = address)
    (huninvited : trimSpace last.inviteToken = "")
    (hwrite : ∀ user org t locale w', w'.db = w.db → Asks cfg.env address last user →
      OrgFor last.orgName org →
      (storeMapping .inviteNotFound .invalidInvite (.createSignupUser user org none t) >>=
        fun created =>
        if !created then retryPendingSignup user none locale t else sendSignupCode user locale).Must
          (exec cfg.env) post w') :
    (registerWithEmail cfg last.email last.password last.displayName last.locale last.orgName
      last.inviteToken).Must (exec cfg.env) post w := by
  -- the three checks of the fields
  refine safe_bind (safe_failIf (Q := fun _ w' => w' = w) fun _ => rfl) fun _ w₁ hw₁ => ?_
  refine safe_bind (safe_failIf (Q := fun _ w' => w' = w) fun _ => hw₁) fun _ w₂ hw₂ => ?_
  refine safe_bind (safe_failIf (Q := fun _ w' => w' = w) fun _ => hw₂) fun _ w₃ hw₃ => ?_
  have hinvite : (signupInvite cfg last.inviteToken (cfg.env.normalizeEmail last.email)).Must
      (exec cfg.env) (fun invite w' => invite = none ∧ w' = w) w₃ := by
    unfold signupInvite
    rw [if_pos huninvited]
    exact .done ⟨rfl, hw₃⟩
  refine safe_bind hinvite fun invite w₄ hw₄ => ?_
  obtain ⟨rfl, rfl⟩ := hw₄
  -- the draws: a salt, the time, the identifiers of the account and of its organization
  refine safe_bind (hash_must last.password w₄) fun passwordHash w₅ hw₅ => ?_
  obtain ⟨hdb₅, salt, rfl⟩ := hw₅
  refine safe_bind (must_now (Q := fun _ w' => w'.db = w₄.db) fun w' _ hdb => hdb.trans hdb₅)
    fun t w₆ hdb₆ => ?_
  have hid : newID.Must (exec cfg.env) (fun _ w' => w'.db = w₄.db) w₆ :=
    must_call fun c => .done hdb₆
  refine safe_bind hid fun id w₇ hdb₇ => ?_
  refine safe_bind (signupOrg_must last.orgName t w₇) fun org w₈ hw₈ => ?_
  obtain ⟨hdb₈, horgFor⟩ := hw₈
  exact hwrite _ org t _ w₈ (hdb₈.trans hdb₇) ⟨haddress, ⟨salt, rfl⟩, rfl, rfl, rfl⟩ horgFor

theorem aside_upsert (ch : OTPChallenge) : Aside (.store (.upsertChallenge ch)) :=
  ⟨by simp [Store.Op.writes], by simp [Store.Op.writes], by simp [Store.Op.writes]⟩

/-- The first registration. -/
theorem first_must (hint : w.db.Integrity) (hnew : ∀ r ∈ w.db.users, r.email ≠ some address)
    (haddress : cfg.env.normalizeEmail last.email = address)
    (huninvited : trimSpace last.inviteToken = "") :
    (registerWithEmail cfg last.email last.password last.displayName last.locale last.orgName
      last.inviteToken).Must (exec cfg.env)
        (fun _ w' => Waiting cfg.env address last last.orgName w'.db) w := by
  refine register_must haddress huninvited fun user org t locale w₁ hdb hasks horg => ?_
  refine safe_bind (M := fun created w₂ => created = true ∧
      Waiting cfg.env address last last.orgName w₂.db) ?_ ?_
  · refine must_passes (passes_storeMapping _ _ (.createSignupUser user org none t))
      fun c created hres => ?_
    obtain ⟨hcreated, hafter⟩ := exec_store_ok hres
    rw [hafter, hdb]
    exact waiting_created hint hnew hasks horg (hdb ▸ hcreated)
  · rintro created w₂ ⟨rfl, hwaiting⟩
    have hcode : (sendSignupCode user locale).Uses Aside :=
      uses_bind (uses_newOTPChallenge silent_aside aside_upsert _ _) fun _ => uses_send trivial
    exact safe_mono (fun _ w₃ hsame => waiting_same hsame hwaiting) (must_aside hcode w₂)

/-- The store call that replaces the credentials. -/
theorem reissue_must {user : User} {challenge : Option OTPChallenge} {t : Time}
    (hw : Waiting cfg.env address prev orgName w.db) (hasks : Asks cfg.env address last user) :
    (store (.reissuePendingSignup user challenge none t)).Must (exec cfg.env)
      (fun _ w' => Waiting cfg.env address last orgName w'.db) w := by
  refine must_passes (passes_store (.reissuePendingSignup user challenge none t)) fun c v hres => ?_
  obtain ⟨hreissued, hafter⟩ := exec_store_ok hres
  rw [hafter]
  exact waiting_reissued hw hasks hreissued

/-- Within the cooldown and after it the account gets the new credentials. -/
theorem reissueSignup_must {user : User} {locale : String} {t : Time}
    (hw : Waiting cfg.env address prev orgName w.db) (hasks : Asks cfg.env address last user) :
    (reissueSignup user locale t).Must (exec cfg.env)
      (fun _ w' => Waiting cfg.env address last orgName w'.db) w := by
  have hcooldown : (signupCooldownActive user.email t).Uses Aside :=
    uses_signupCooldownActive ⟨nofun, nofun, nofun⟩ t
  refine safe_bind (must_aside hcooldown w) fun active w₁ hsame₁ => ?_
  have hw₁ := waiting_same hsame₁ hw
  split
  · exact safe_bind (reissue_must hw₁ hasks) fun _ _ hw₂ => .done hw₂
  · refine safe_bind (must_aside (uses_buildOTPChallenge silent_aside _ _) w₁)
      fun built w₂ hsame₂ => ?_
    refine safe_bind (reissue_must (waiting_same hsame₂ hw₁) hasks) fun answer w₃ hw₃ => ?_
    rcases answer with ⟨userID, reissued⟩
    dsimp only
    split
    · exact safe_mono (fun _ w₄ hsame => waiting_same hsame hw₃) (must_aside (uses_send trivial) w₃)
    · exact .done hw₃

/-- A later registration. -/
theorem retry_must (hint : w.db.Integrity) (hw : Waiting cfg.env address prev orgName w.db)
    (haddress : cfg.env.normalizeEmail last.email = address)
    (huninvited : trimSpace last.inviteToken = "") :
    (registerWithEmail cfg last.email last.password last.displayName last.locale last.orgName
      last.inviteToken).Must (exec cfg.env)
        (fun _ w' => Waiting cfg.env address last orgName w'.db) w := by
  refine register_must haddress huninvited fun user org t locale w₁ hdb hasks _ => ?_
  refine safe_bind (M := fun created w₂ => created = false ∧ w₂.db = w.db) ?_ ?_
  · refine must_passes (passes_storeMapping _ _ (.createSignupUser user org none t))
      fun c created hres => ?_
    obtain ⟨hcreated, hafter⟩ := exec_store_ok hres
    rw [hafter, hdb]
    exact not_created hw hasks (hdb ▸ hcreated)
  · rintro created w₂ ⟨rfl, hdb₂⟩
    refine must_call fun c => ?_
    have hdb₃ : (exec cfg.env (.store (.findByEmail user.email)) c w₂).2.db = w.db :=
      (exec_db_rel (R := fun db db' => db' = db) (fun _ => rfl)
        (by rintro _ ⟨⟩ now id pick; exact Store.exec_reads rfl now id pick w₂.db) c).trans hdb₂
    have hw₃ := hdb₃ ▸ hw
    cases hres : (exec cfg.env (.store (.findByEmail user.email)) c w₂).1 with
    | error e => exact reissueSignup_must hw₃ hasks
    | ok existing =>
        obtain ⟨s, hs, hemail, rfl⟩ := Store.exec_findByEmail_ok (exec_store_ok hres).1
        obtain ⟨r, hr, hunverified⟩ := hw
        -- the address has one account, and that is pending
        have hone : s = r :=
          hint.email s (hdb₂ ▸ hs) r hr.mem address (hasks.email ▸ hemail) hr.email
        have hpass : (decide (s.user.status ≠ .signupPending) || s.user.emailVerified) = false := by
          have hparts : r.status = .signupPending ∧ r.emailVerifiedAt = none := by
            simpa [UserRow.unverified] using hunverified
          rw [hone]
          simp [UserRow.user, hparts]
        dsimp only [Program.bind]
        rw [hpass]
        exact reissueSignup_must hw₃ hasks

/-- The account that a verification checks the password of. -/
theorem matchSignup_must {ch : OTPChallenge} {password : String} :
    (matchSignup cfg ch address password).Must (exec cfg.env)
      (fun user _ => ∃ s ∈ w.db.users, s.email = some address ∧ user.id = s.id.string) w := by
  have hreject : ∀ w', (rejectSignup ch).Must (exec cfg.env)
      (fun user _ => ∃ s ∈ w.db.users, s.email = some address ∧ user.id = s.id.string) w' :=
    fun w' => safe_bind (must_true _ w') fun _ _ _ => .fail
  refine must_call fun c => ?_
  cases hres : (exec cfg.env (.store (.findByEmail address)) c w).1 with
  | error e => exact hreject _
  | ok user =>
      obtain ⟨s, hs, hemail, rfl⟩ := Store.exec_findByEmail_ok (exec_store_ok hres).1
      dsimp only [Program.bind]
      split
      · exact hreject _
      · exact .done ⟨s, hs, hemail, rfl⟩

/-- A verification activates the account and changes nothing else about it. -/
theorem verify_must (hint : w.db.Integrity) (hw : Waiting cfg.env address last orgName w.db)
    {email code password : String} (haddress : cfg.env.normalizeEmail email = address) :
    (verifySignup cfg email code password).Must (exec cfg.env)
      (fun _ w' => ∃ r, Carries cfg.env address last orgName w'.db r ∧ r.status = .active) w := by
  obtain ⟨r, hr, hunverified⟩ := hw
  refine safe_bind (safe_failIf (Q := fun _ w' => w' = w) fun _ => rfl) fun _ w₁ hw₁ => ?_
  refine safe_bind (safe_failIf (Q := fun _ w' => w' = w) fun _ => hw₁) fun _ w₂ hw₂ => ?_
  subst hw₂
  rw [haddress]
  have hmatched : (matchChallenge cfg address channelEmail (trimSpace code)).Uses Aside :=
    uses_matchChallenge silent_aside ⟨nofun, nofun, nofun⟩ _
  refine safe_bind (must_aside hmatched w₂) fun matched w₃ h₃ => ?_
  rcases matched with ⟨ch, t⟩
  refine safe_bind (Program.must_and matchSignup_must
    (must_aside (uses_matchSignup silent_aside ch address password) w₃)) fun user w₄ h₄ => ?_
  obtain ⟨⟨s, hs, hemail, hid⟩, h₄⟩ := h₄
  -- addresses are unique, so the account that is found is the one that waits
  have hone : s = r := hint.email s (h₃.users ▸ hs) r hr.mem address hemail hr.email
  subst hone
  have hr₄ := carries_same h₄ (carries_same h₃ hr)
  have hconsume : (store (.consumeChallenge ch.id)).Uses Aside :=
    uses_store ⟨by simp [Store.Op.writes], by simp [Store.Op.writes], by simp [Store.Op.writes]⟩
  refine safe_bind (must_aside hconsume w₄) fun _ w₅ h₅ => ?_
  have hr₅ := carries_same h₅ hr₄
  refine safe_bind (M := fun _ w₆ => ∃ r, Carries cfg.env address last orgName w₆.db r ∧
      r.status = .active) ?_ ?_
  -- the account is activated with what it carries
  · refine must_passes (passes_storeMapping _ _ (.verifySignup user.id t)) fun c v hres => ?_
    obtain ⟨_, hafter⟩ := exec_store_ok hres
    rw [hafter, hid, Store.exec_verifySignup_of_pending hr₅.mem hunverified]
    exact ⟨_, carries_verified hr₅ hunverified, rfl⟩
  · rintro _ w₆ ⟨r, hr₆, hactive⟩
    have hissue : (issueTokens cfg user.id).Uses Aside := by
      refine uses_issueTokens silent_aside (fun _ _ => trivial) fun _ _ _ => ?_
      exact ⟨by simp [Store.Op.writes], by simp [Store.Op.writes], by simp [Store.Op.writes]⟩
    exact safe_mono (fun _ _ hsame => ⟨r, carries_same hsame hr₆, hactive⟩) (must_aside hissue w₆)

end Calls

/-! ## Sequences of registrations -/

section Sequences

variable {cfg : Config} {address orgName : String} {first prev last : Registration}
  {rest : List Registration} {w : World}

theorem first_waiting (hint : w.db.Integrity) (hnew : ∀ r ∈ w.db.users, r.email ≠ some address)
    (h : Succeeds cfg address last w) :
    Waiting cfg.env address last last.orgName (last.call.perform cfg last.choices w).2.db := by
  obtain ⟨reply, hreply⟩ := h.succeeds
  have hmust : (last.call.program cfg).Must (exec cfg.env)
      (fun _ w' => Waiting cfg.env address last last.orgName w'.db) w :=
    safe_map (first_must hint hnew h.address h.uninvited)
  exact must_run hmust _ _ hreply

theorem retry_waiting (hint : w.db.Integrity) (hw : Waiting cfg.env address prev orgName w.db)
    (h : Succeeds cfg address last w) :
    Waiting cfg.env address last orgName (last.call.perform cfg last.choices w).2.db := by
  obtain ⟨reply, hreply⟩ := h.succeeds
  have hmust : (last.call.program cfg).Must (exec cfg.env)
      (fun _ w' => Waiting cfg.env address last orgName w'.db) w :=
    safe_map (retry_must hint hw h.address h.uninvited)
  exact must_run hmust _ _ hreply

/-- Further registrations replace the credentials and leave the organization. -/
theorem register_waiting (hint : w.db.Integrity) (hw : Waiting cfg.env address prev orgName w.db)
    (h : AllSucceed cfg address rest w) :
    (register cfg rest w).db.Integrity ∧
      Waiting cfg.env address ((prev :: rest).getLast (List.cons_ne_nil _ _)) orgName
        (register cfg rest w).db := by
  induction rest generalizing prev w with
  | nil => exact ⟨hint, hw⟩
  | cons r rest ih =>
      have hint' := perform_integrity cfg r.call r.choices hint
      exact ih hint' (retry_waiting hint hw h.1) h.2

/-- For every sequence of registrations of a new address that succeed, and a verification that
succeeds: the last registration wins exactly when it asks for no organization or for the one that
the first asked for. -/
theorem lastWins_iff (hideal : cfg.env.IdealHasher) (hint : w.db.Integrity)
    (hnew : ∀ r ∈ w.db.users, r.email ≠ some address)
    (hregister : AllSucceed cfg address (first :: rest) w)
    {email code password : String} (haddress : cfg.env.normalizeEmail email = address)
    {choices : Nat → Choice} {reply : Reply}
    (hverify : ((Call.verifySignup email code password).perform cfg choices
      (register cfg (first :: rest) w)).1 = .ok reply) :
    LastWins cfg.env address ((first :: rest).getLast (List.cons_ne_nil _ _))
        ((Call.verifySignup email code password).perform cfg choices
          (register cfg (first :: rest) w)).2.db ↔
      trimSpace ((first :: rest).getLast (List.cons_ne_nil _ _)).orgName = "" ∨
        trimSpace ((first :: rest).getLast (List.cons_ne_nil _ _)).orgName =
          trimSpace first.orgName := by
  obtain ⟨hint', hw⟩ := register_waiting (perform_integrity cfg first.call first.choices hint)
    (first_waiting hint hnew hregister.1) hregister.2
  generalize (first :: rest).getLast (List.cons_ne_nil _ _) = last at hw ⊢
  have hmust : ((Call.verifySignup email code password).program cfg).Must (exec cfg.env)
      (fun _ w' => ∃ r, Carries cfg.env address last first.orgName w'.db r ∧ r.status = .active)
      (register cfg (first :: rest) w) :=
    safe_map (verify_must hint' hw haddress)
  obtain ⟨r, hr, hactive⟩ := must_run hmust _ _ hverify
  have hint'' := perform_integrity cfg (.verifySignup email code password) choices hint'
  obtain ⟨salt, hhash⟩ := hr.password
  constructor
  · rintro ⟨s, hs, hemail, _, _, _, horg⟩
    -- the address has one account
    have hone : s = r := hint''.email s hs r hr.mem address hemail hr.email
    by_cases hblank : trimSpace last.orgName = ""
    · exact .inl hblank
    · exact .inr ((hr.org _ hblank).mp (hone ▸ horg hblank))
  · intro hsame
    have hexact : VerifiesExactly cfg.env r.user.passwordHash last.password := by
      rw [UserRow.user, hhash]
      exact verifiesExactly_hash hideal salt last.password
    have hname : r.user.displayName = trimSpace last.displayName := by
      rw [UserRow.user, hr.displayName]
      rfl
    refine ⟨r, hr.mem, hr.email, hactive, hexact, hname, fun hgiven => ?_⟩
    exact (hr.org _ hgiven).mpr (hsame.resolve_left hgiven)

end Sequences

/-! ## An organization that is dropped -/

/-- What the environment answers at the instant `t`, when it draws the identifiers from `k` on. -/
def drawing (t : Time) (k : Nat) (n : Nat) : Choice where
  now := t
  id := Uuid.ofNat (k + n)
  code := "123456"

/-- A registration of one address at the instant `t`. -/
def registration (password displayName orgName : String) (t : Time) (k : Nat) : Registration where
  email := "ann@example.com"
  password := password
  displayName := displayName
  locale := ""
  orgName := orgName
  inviteToken := ""
  choices := drawing t k

/-- Somebody registers the address; two minutes later its owner does, with this organization. -/
def twice (orgName : String) : List Registration :=
  [registration "squatter" "Squatter" "" second 100, registration "owner" " Ann " orgName
    (121 * second) 200]

def verifies : Call :=
  .verifySignup "ann@example.com" "123456" "owner"

/-- Both of them get an answer. -/
def bothAnswered (orgName : String) : Bool :=
  ((registration "squatter" "Squatter" "" second 100).call.perform toyConfig (drawing second 100)
      toyWorld).1.isOk &&
    ((registration "owner" " Ann " orgName (121 * second) 200).call.perform toyConfig
      (drawing (121 * second) 200)
      (register toyConfig [registration "squatter" "Squatter" "" second 100] toyWorld)).1.isOk

theorem twice_succeed (orgName : String) (h : bothAnswered orgName = true) :
    AllSucceed toyConfig "ann@example.com" (twice orgName) toyWorld := by
  obtain ⟨hfirst, hsecond⟩ := Bool.and_eq_true_iff.mp h
  have haddress : toyEnv.normalizeEmail "ann@example.com" = "ann@example.com" := by decide
  have hblank : trimSpace "" = "" := by decide
  exact ⟨⟨haddress, hblank, exists_ok hfirst⟩, ⟨haddress, hblank, exists_ok hsecond⟩, trivial⟩

/-- Without an organization the owner's registration wins. -/
theorem lastWins_owner :
    LastWins toyEnv "ann@example.com" (registration "owner" " Ann " "" (121 * second) 200)
      (verifies.perform toyConfig (drawing (122 * second) 300)
      (register toyConfig (twice "") toyWorld)).2.db := by
  obtain ⟨hboth, hverified⟩ : bothAnswered "" = true ∧
      (verifies.perform toyConfig (drawing (122 * second) 300)
      (register toyConfig (twice "") toyWorld)).1.isOk = true := by
    decide +kernel
  obtain ⟨reply, hreply⟩ := exists_ok hverified
  exact (lastWins_iff toyEnv_ideal DB.integrity_empty (fun r hr => absurd hr (not_mem_empty r))
    (twice_succeed "" hboth) (by decide) hreply).mpr (.inl (by decide))

/-- The owner asks for an organization and has none after the verification. -/
theorem org_dropped :
    AllSucceed toyConfig "ann@example.com" (twice "acme") toyWorld ∧
      (verifies.perform toyConfig (drawing (122 * second) 300)
      (register toyConfig (twice "acme") toyWorld)).1.isOk =
        true ∧
      ¬ LastWins toyEnv "ann@example.com" (registration "owner" " Ann " "acme" (121 * second) 200)
        (verifies.perform toyConfig (drawing (122 * second) 300)
          (register toyConfig (twice "acme") toyWorld)).2.db := by
  obtain ⟨hboth, hverified, hnone⟩ : bothAnswered "acme" = true ∧
      (verifies.perform toyConfig (drawing (122 * second) 300)
        (register toyConfig (twice "acme") toyWorld)).1.isOk = true ∧
      (verifies.perform toyConfig (drawing (122 * second) 300)
        (register toyConfig (twice "acme") toyWorld)).2.db.orgs.rows = [] := by
    decide +kernel
  refine ⟨twice_succeed "acme" hboth, hverified, ?_⟩
  rintro ⟨r, _, _, _, _, _, horg⟩
  have hgiven : trimSpace "acme" ≠ "" := by decide
  obtain ⟨o, ho, _⟩ := horg hgiven
  rw [Table.mem_def, hnone] at ho
  cases ho

end LastRegistration
end Service
end OrbitAuth
