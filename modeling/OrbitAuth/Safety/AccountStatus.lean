import OrbitAuth.Service.Requests

/-!
# AccountStatus — the status of an account and the verification of its address agree

A row is `signup_pending` exactly when it has an email that is not verified.  The pair is written by
seven statements; the one that could break it is the seeding of a demo account by mobile, which
activates the row it finds without looking at the email.  It cannot find a pending row, because
pending rows have no mobile: that is the second half of the invariant `Consistent`.

* `eval_consistent` — the step lemma for statements with the arguments the store gives them,
* `status_agrees` — from an empty database, after every interleaving of calls.
-/

namespace OrbitAuth
namespace Service
namespace AccountStatus

open Domain Foundations Postgres

variable {db : DB}

/-- Pending means: an email, and not verified. -/
def Agrees (r : UserRow) : Prop :=
  r.status = .signupPending ↔ r.email.isSome = true ∧ r.emailVerifiedAt = none

structure Consistent (users : Table UserRow) : Prop where
  agrees : ∀ r ∈ users, Agrees r
  mobile : ∀ r ∈ users, r.mobile.isSome = true → r.status ≠ .signupPending

theorem agrees_of_verified {r : UserRow} (hstatus : r.status ≠ .signupPending)
    (hverified : r.emailVerifiedAt.isSome = true) : Agrees r := by
  constructor
  · intro h
    exact absurd h hstatus
  · rintro ⟨_, hnone⟩
    rw [hnone] at hverified
    cases hverified

/-! ## Statements -/

/-- The arguments with which the store calls write accounts. -/
def Sound : Sql → Prop
  | .createUserWithEmail _ _ status => status ≠ .signupPending
  | .createSignupUser _ _ _ _ status verified => status = .signupPending ↔ verified = none
  | .verifySignupUser _ verified => verified.isSome = true
  | .upsertDemoUserByEmail _ email _ _ _ => email.isSome = true
  | .upsertDemoUserByMobile _ email _ _ _ => email = none
  | _ => True

/-- A row written over the old version of an account, or as a new account. -/
theorem consistent_put {t : Table UserRow} {r : UserRow} (ht : Consistent t) (hr : Agrees r)
    (hmobile : r.mobile.isSome = true → r.status ≠ .signupPending) : Consistent (t.put r) where
  agrees := by
    intro s hs
    rcases mem_put.mp hs with rfl | ⟨hs, _⟩
    · exact hr
    · exact ht.agrees s hs
  mobile := by
    intro s hs
    rcases mem_put.mp hs with rfl | ⟨hs, _⟩
    · exact hmobile
    · exact ht.mobile s hs

theorem consistent_update {t : Table UserRow} {p : UserRow → Bool} {f : UserRow → UserRow}
    (ht : Consistent t) (hkey : ∀ r, Keyed.key (f r) = Keyed.key r)
    (hf : ∀ r ∈ t, p r = true → Agrees (f r) ∧
    ((f r).mobile.isSome = true → (f r).status ≠ .signupPending)) :
    Consistent (t.update p f) where
  agrees := by
    intro s hs
    rcases (mem_update hkey).mp hs with ⟨r, hr, hp, rfl⟩ | ⟨hs, _⟩
    · exact (hf r hr hp).1
    · exact ht.agrees s hs
  mobile := by
    intro s hs
    rcases (mem_update hkey).mp hs with ⟨r, hr, hp, rfl⟩ | ⟨hs, _⟩
    · exact (hf r hr hp).2
    · exact ht.mobile s hs

/-- An upsert by mobile finds a row with that mobile. -/
theorem upsertDemoUserByMobile_cases {now : Time} {id : Uuid} {mobile : Option String}
    {hash name : String} {v : Unit} {ws : List Write}
    (h : upsertDemoUserByMobile now db id none mobile hash name = .ok (v, ws)) :
    (∃ r ∈ db.users, r.mobile.isSome = true ∧
        (db.applyAll ws).users = db.users.put (r.reseeded now none mobile hash name)) ∨
      (db.applyAll ws).users =
        db.users.put (newUser now id none mobile (some hash) (some name) .active none) := by
  rcases upsertDemoUser_iff.mp h with ⟨r, hfind, _, rfl⟩ | ⟨_, _, rfl⟩
  · have hconflict := List.find?_some hfind
    simp only [Bool.and_eq_true, decide_eq_true_eq] at hconflict
    exact .inl ⟨r, List.mem_of_find?_eq_some hfind, hconflict.2 ▸ hconflict.1, rfl⟩
  · exact .inr rfl

theorem eval_consistent {env : Env} {now : Time} {pick : Nat} {s : Sql} {v : s.Val}
    {ws : List Write} (h : s.eval env now pick db = .ok (v, ws)) (hs : Sound s)
    (hdb : Consistent db.users) : Consistent (db.applyAll ws).users := by
  by_cases hmobile :
    ∃ id email mobile hash name, s = .upsertDemoUserByMobile id email mobile hash name
  · obtain ⟨id, email, mobile, hash, name, rfl⟩ := hmobile
    obtain rfl : email = none := hs
    rcases upsertDemoUserByMobile_cases h with ⟨r, hr, hrmobile, hafter⟩ | hafter
    · -- the row that is activated was not pending, so its email is verified or absent
      rw [hafter]
      have hnot : ¬ (r.email.isSome = true ∧ r.emailVerifiedAt = none) :=
        fun hboth => hdb.mobile r hr hrmobile ((hdb.agrees r hr).mpr hboth)
      refine consistent_put hdb ?_ (by simp [UserRow.reseeded])
      simpa [Agrees, UserRow.reseeded] using hnot
    · rw [hafter]
      exact consistent_put hdb (by simp [Agrees, newUser]) (by simp [newUser])
  · have hchange := eval_users h
    generalize (db.applyAll ws).users = t at hchange
    cases hchange with
    | same => exact hdb
    | inserted r hins _ =>
        have hrow : Agrees r ∧ (r.mobile.isSome = true → r.status ≠ .signupPending) := by
          cases s with
          | createUserWithEmail id email status =>
              cases hins
              exact ⟨agrees_of_verified hs rfl, fun h => by cases h⟩
          | createUserWithMobile id mobile =>
              cases hins
              simp [Agrees, newUser]
          | createSignupUser id email hash name status verified =>
              cases hins
              refine ⟨?_, fun h => by cases h⟩
              have hs : status = .signupPending ↔ verified = none := hs
              simpa [Agrees, newUser] using hs
          | upsertDemoUserByEmail id email mobile hash name =>
              cases hins
              have hs : email.isSome = true := hs
              simp [Agrees, newUser, hs]
          | upsertDemoUserByMobile id email mobile hash name =>
              exact absurd ⟨id, email, mobile, hash, name, rfl⟩ hmobile
          | _ => cases hins
        exact consistent_put hdb hrow.1 hrow.2
    | loggedIn id =>
        exact consistent_update hdb (key_loggedIn now) fun r hr _ =>
          ⟨hdb.agrees r hr, hdb.mobile r hr⟩
    | reissued email hash name =>
        exact consistent_update hdb (key_reissued now hash name) fun r hr _ =>
          ⟨hdb.agrees r hr, hdb.mobile r hr⟩
    | verified id at_ =>
        refine consistent_update hdb (key_activated now at_) fun r _ _ => ⟨?_, ?_⟩
        · exact agrees_of_verified (by simp [UserRow.activated]) hs
        · simp [UserRow.activated]
    | reseeded id email mobile hash name hstmt r _ _ =>
        rcases hstmt with rfl | rfl
        · have hs : email.isSome = true := hs
          refine consistent_put hdb (agrees_of_verified ?_ ?_) ?_
          · simp [UserRow.reseeded]
          · simp [UserRow.reseeded, hs]
          · simp [UserRow.reseeded]
        · exact absurd ⟨id, email, mobile, hash, name, rfl⟩ hmobile
    | purged before =>
        exact ⟨fun r hr => hdb.agrees r (mem_delete.mp hr).1,
          fun r hr => hdb.mobile r (mem_delete.mp hr).1⟩

/-! ## Store calls -/

theorem sound_of_frame {s : Sql} (h : TableName.users ∉ s.writes) : Sound s := by
  cases s <;> first | trivial | simp [Sql.writes] at h

/-- A sign-up is created pending without a verification, or active with one. -/
theorem sound_createSignupUser {user : User} {verified : Bool} {t : Time} (ht : t ≠ 0)
    (hstatus : user.status = if verified then .active else .signupPending)
    (hverified : user.emailVerified = verified) (id : Uuid) :
    Sound (.createSignupUser id user.email user.passwordHash user.displayName user.status
      (if user.emailVerified then Store.timestamptz t else none)) := by
  cases verified with
  | true => simp [Sound, hstatus, hverified, Store.timestamptz, ht]
  | false => simp [Sound, hstatus, hverified]

theorem body_sound {cfg : Config} {call : Call} {o : Store.Op} (h : Asks cfg call o) (now : Time)
    (id : Uuid) : (o.body now id).Uses Sound := by
  refine uses_mono (fun s hs => ?_) (Store.body_users now id o)
  by_cases hwrites : TableName.users ∈ s.writes
  · cases hs hwrites with
    | createByEmail email => simp [Sound]
    | createByMobile mobile => trivial
    | updateLastLogin userID u => trivial
    | seedByMobile mobile hash name => rfl
    | seedByEmail email mobile hash name => rfl
    | createSignupUser user org invite t u =>
        obtain ⟨_, ht, hstatus, hverified, _⟩ := h
        exact sound_createSignupUser ht hstatus hverified u
    | reissue user challenge invite t => trivial
    | activate user challenge invite t u => exact Store.timestamptz_isSome h.2.1
    | verifySignup userID t u => exact Store.timestamptz_isSome h
    | purge before => trivial
  · exact sound_of_frame hwrites

theorem exec_consistent {cfg : Config} {call : Call} {o : Store.Op} {env : Env} {now : Time}
    {id : Uuid} {pick : Nat} (h : Asks cfg call o) (hdb : Consistent db.users) :
    Consistent (o.exec env now id pick db).2.users := by
  have hrel : Consistent db.users → Consistent (o.exec env now id pick db).2.users := by
    refine Store.exec_rel (R := fun db db' => Consistent db.users → Consistent db'.users)
      (fun _ h => h) (fun _ _ _ h₁ h₂ h => h₂ (h₁ h)) ?_ (body_sound h now id) pick db
    intro s pick db v ws hs heval hdb
    exact eval_consistent heval hs hdb
  exact hrel hdb

/-! ## Runs -/

/-- A row is pending exactly when it has an unverified email; so an active account with an email is
verified. -/
def StatusAgrees (db : DB) : Prop :=
  (∀ r ∈ db.users, r.status = .signupPending ↔ r.email.isSome = true ∧ r.emailVerifiedAt = none) ∧
    ∀ r ∈ db.users, r.status = .active → r.email.isSome = true → r.emailVerifiedAt.isSome = true

theorem statusAgrees_of_consistent (h : Consistent db.users) : StatusAgrees db := by
  refine ⟨h.agrees, ?_⟩
  intro r hr hactive hemail
  cases hverified : r.emailVerifiedAt with
  | some t => rfl
  | none =>
      have hpending := (h.agrees r hr).mpr ⟨hemail, hverified⟩
      rw [hactive] at hpending
      cases hpending

/-- Status and verification agree after every interleaving of calls from an empty database. -/
theorem status_agrees (cfg : Config) (calls : List Call) {w : World} (hdb : w.db = DB.empty)
    (hnow : w.now ≠ 0) (sched : Schedule) :
    StatusAgrees (runOn cfg (serve cfg w calls) sched).world.db := by
  have hempty : Consistent w.db.users := by
    rw [hdb]
    exact ⟨fun r hr => absurd hr (not_mem_empty r), fun r hr => absurd hr (not_mem_empty r)⟩
  have hrun := serve_keeps cfg calls (fun _ _ _ => True)
    (fun db => Consistent db.users) ?_ hnow hempty sched (Pool.along_true sched _)
  · exact statusAgrees_of_consistent hrun.1
  · intro p i c call o _ _ _ hasks hI now _ id pick
    exact exec_consistent hasks hI

/-- Somebody registers. -/
theorem status_agrees_registered :
    toyWorld.db = DB.empty ∧ toyWorld.now ≠ 0 ∧
      let w := (runOn toyConfig (serve toyConfig toyWorld
        [.registerWithEmail "ann@example.com" "secret" "Ann" "" "" ""]) (turns 0 1000 100 20)).world
      StatusAgrees w.db ∧ ∃ r ∈ w.db.users, r.status = .signupPending := by
  refine ⟨rfl, by decide, ?_, by decide +kernel⟩
  exact status_agrees toyConfig _ rfl (by decide) _

end AccountStatus
end Service
end OrbitAuth
