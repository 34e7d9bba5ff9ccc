import OrbitAuth.Postgres.Commits
import OrbitAuth.Safety.Superseded
import OrbitAuth.Service.Trails

/-!
# FailedInvite — what an invitation that was not sent leaves behind

`InviteMember` stores the invitation, which supersedes the pending one of the same organization and
address, and commits before it notifies the recipient.  When the notification fails the new
invitation is revoked, but the one it superseded is not brought back: the recipient still holds its
token, and that token is good for nothing any more.

* `Pending` — the invitations that can be accepted;
* `Invites` — the ways the call can end;
* `keepsInvitations_iff` — the calls that change no pending invitation when they fail.
-/

namespace OrbitAuth
namespace Service
namespace FailedInvite

open Domain Foundations Postgres

/-! ## Pending invitations -/

/-- The organization has invited the address, under this identifier and token, until `expiresAt`. -/
def Pending (db : DB) (org : Uuid) (email : String) (id : Uuid) (tokenHash : String)
    (expiresAt : Time) :
    Prop :=
  ∃ r ∈ db.invites, r.status = .pending ∧ r.orgID = org ∧ r.email = email ∧ r.id = id ∧
    r.tokenHash = tokenHash ∧ r.expiresAt = expiresAt

/-- The error does not report that the compensating revoke failed as well. -/
def compensated : Err → Bool
  | .revokeFailed _ _ => false
  | _ => true

/-- If the call fails and its compensation does not, the pending invitations are those of before. -/
def KeepsInvitations (cfg : Config) (orgID inviterID email : String)
    (choices : Nat → Choice) (w : World) :
    Prop :=
  ∀ e, ((Call.inviteMember orgID inviterID email).perform cfg choices w).1 = .error e →
    compensated e = true → ∀ org address id tokenHash expiresAt,
      Pending ((Call.inviteMember orgID inviterID email).perform cfg choices w).2.db org
          address id tokenHash expiresAt ↔
        Pending w.db org address id tokenHash expiresAt

/-- The organization has a pending invitation for the address. -/
def alreadyInvited (env : Env) (db : DB) (orgID email : String) : Bool :=
  match Uuid.parse (trimSpace orgID) with
  | some org => db.invites.any (InviteRow.pendingFor env org (env.normalizeEmail email))
  | none => false

/-- `RevokeInvite` was performed, which `InviteMember` does after a failed notification, and did not
fail. -/
def compensates (d : Done) : Bool :=
  match d.op with
  | .store (.revokeInvite _ _) => !d.choice.fails
  | _ => false

/-! ## Superseding and revoking -/

section Tables

variable {env : Env} {t : Table InviteRow} {r s : InviteRow} {org : Uuid} {email : String}

/-- The invitations after the new one `r` was stored and revoked again. -/
def undone (env : Env) (t : Table InviteRow) (email : String) (r : InviteRow) : Table InviteRow :=
  ((t.update (InviteRow.pendingFor env r.orgID email) InviteRow.revoked).put r).update
    (InviteRow.stillPending r.id r.orgID) InviteRow.revoked

theorem stillPending_self (hpending : r.status = .pending) :
    r.stillPending r.id r.orgID = true := by
  simp [InviteRow.stillPending, hpending]

/-- What is pending then was pending before and was not superseded. -/
theorem mem_undone (hpending : r.status = .pending) (hfree : ∀ s ∈ t, s.id ≠ r.id) :
    s ∈ undone env t email r ∧ s.status = .pending ↔
      s ∈ t ∧ s.status = .pending ∧ s.pendingFor env r.orgID email = false := by
  unfold undone
  rw [mem_update key_inviteRevoked, mem_put, mem_update key_inviteRevoked]
  constructor
  · rintro ⟨⟨_, _, _, rfl⟩ | ⟨rfl | ⟨⟨_, _, _, rfl⟩ | ⟨hs, hother⟩, _⟩, hstill⟩, hstatus⟩
    · cases hstatus
    · rw [stillPending_self hpending] at hstill
      cases hstill
    · cases hstatus
    · exact ⟨hs, hstatus, hother⟩
  · rintro ⟨hs, hstatus, hother⟩
    refine ⟨.inr ⟨.inr ⟨.inr ⟨hs, hother⟩, hfree s hs⟩, ?_⟩, hstatus⟩
    simp [InviteRow.stillPending, hfree s hs]

/-- The pending invitations are the same exactly when none was superseded. -/
theorem pending_undone_iff {db db' : DB} (hdb : db'.invites = undone env db.invites email r)
    (hpending : r.status = .pending) (hfree : ∀ s ∈ db.invites, s.id ≠ r.id) :
    (∀ org address id tokenHash expiresAt, Pending db' org address id tokenHash expiresAt ↔
        Pending db org address id tokenHash expiresAt) ↔
      db.invites.any (InviteRow.pendingFor env r.orgID email) = false := by
  rw [any_eq_false]
  constructor
  · intro hsame s hs
    refine Bool.eq_false_iff.mpr fun hfor => ?_
    have hstatus : s.status = .pending := by
      simp only [InviteRow.pendingFor, Bool.and_eq_true, decide_eq_true_eq] at hfor
      exact hfor.2
    -- a superseded invitation would have to be pending still
    obtain ⟨s', hs', hstatus', _, _, hid, _⟩ :=
      (hsame s.orgID s.email s.id s.tokenHash s.expiresAt).mpr
        ⟨s, hs, hstatus, rfl, rfl, rfl, rfl, rfl⟩
    rw [hdb] at hs'
    obtain ⟨hold, _, hother⟩ := (mem_undone hpending hfree).mp ⟨hs', hstatus'⟩
    rw [eq_of_key hold hs hid, hfor] at hother
    cases hother
  · intro hnone org address id tokenHash expiresAt
    constructor
    · rintro ⟨s, hs, hstatus, hrest⟩
      rw [hdb] at hs
      obtain ⟨hold, _, _⟩ := (mem_undone hpending hfree).mp ⟨hs, hstatus⟩
      exact ⟨s, hold, hstatus, hrest⟩
    · rintro ⟨s, hs, hstatus, hrest⟩
      have hkept : s ∈ undone env db.invites email r :=
        ((mem_undone hpending hfree).mpr ⟨hs, hstatus, hnone s hs⟩).1
      exact ⟨s, hdb ▸ hkept, hstatus, hrest⟩

end Tables

/-! ## The call -/

inductive Invites (env : Env) (w : World) (orgID email : String) : Except Err Invite → World →
    List Done → Prop
  | sent {invite : Invite} {w' : World} {tr : List Done} (hquiet : tr.any compensates = false) :
      Invites env w orgID email (.ok invite) w' tr
  | kept {e : Err} {w' : World} {tr : List Done} (hdb : w'.db = w.db)
      (hquiet : tr.any compensates = false) :
      Invites env w orgID email (.error e) w' tr
  | pending {e : Err} {w' : World} {tr : List Done} (herr : compensated e = false)
      (hquiet : tr.any compensates = false) : Invites env w orgID email (.error e) w' tr
  | undone {e : Err} {w' : World} {tr : List Done} (r : InviteRow) (herr : compensated e = true)
      (hrevoked : tr.any compensates = true) (horg : Uuid.parse orgID = some r.orgID)
      (hpending : r.status = .pending) (hfree : ∀ s ∈ w.db.invites, s.id ≠ r.id)
      (hdb : w'.db.invites = undone env w.db.invites email r) :
      Invites env w orgID email (.error e) w' tr

section Calls

variable {cfg : Config} {env : Env} {ok : Port → Choice → World → Prop} {w w' : World}
  {tr : List Done} {orgID email : String}

theorem compensates_of_idle {d : Done} (h : idle d.op = true) : compensates d = false := by
  unfold compensates
  split
  · rename_i hop
    rw [hop] at h
    cases h
  · rfl

theorem quiet_of_still (h : Still w [] w' tr) : tr.any compensates = false := by
  obtain ⟨more, rfl, hidle⟩ := h.trail
  rw [List.any_eq_false]
  intro d hd
  rw [compensates_of_idle (hidle d hd)]
  exact Bool.false_ne_true

/-- Up to the creation of the invitation the call only reads. -/
theorem reading_ends {α : Type} {p : Action α} (hp : p.Uses fun o => idle o = true)
    (h : Still w [] w' tr) :
    p.Ends (exec env) ok (fun _ w'' tr' => Still w [] w'' tr') w' tr :=
  ends_mono (fun _ _ _ h' => still_trans h h') (ends_idle hp w' tr)

theorem kept_of_still {e : Err} (h : Still w [] w' tr) :
    Invites env w orgID email (.error e) w' tr :=
  .kept h.db (quiet_of_still h)

/-- The invitation was created in the last operation. -/
structure Created (env : Env) (w : World) (email : String) (r : InviteRow) (w' : World)
    (tr : List Done) :
    Prop where
  quiet : tr.any compensates = false
  pending : r.status = .pending
  free : ∀ s ∈ w.db.invites, s.id ≠ r.id
  invites : w'.db.invites =
    (w.db.invites.update (InviteRow.pendingFor env r.orgID email) InviteRow.revoked).put r

/-- The notification goes out, or the invitation is revoked, or the revocation fails too. -/
theorem sendInvite_ends {n : InviteNotification} {inviteID : String} {r : InviteRow}
    {invite : Invite} (horg : Uuid.parse orgID = some r.orgID)
    (hid : Uuid.parse inviteID = some r.id) (h : Created env w email r w' tr) :
    (sendInvite n orgID inviteID >>= fun _ => pure invite).Ends (exec env) ok
      (Invites env w orgID email) w' tr := by
  have hquiet : ∀ (c : Choice) (w' : World),
      (tr ++ [(⟨.send (.orgInvite n), c, w'⟩ : Done)]).any compensates = false := by
    intro c w'
    rw [any_snoc, h.quiet]
    rfl
  refine .call fun c _ => ?_
  cases hf : c.fails with
  | false =>
      have hx : exec env (.send (.orgInvite n)) c w' =
          (.ok (), { w'.advance c.now with sent := w'.sent ++ [.orgInvite n] }) := by
        simp [exec, answer, execSend, attempt, hf, World.advance]
      rw [hx]
      exact .done (.sent (hquiet c w'))
  | true =>
      have hx : exec env (.send (.orgInvite n)) c w' = (.error .dependency, w'.advance c.now) := by
        simp [exec, answer, execSend, attempt, hf]
      rw [hx]
      refine .call fun c' _ => ?_
      -- nothing ran in between, so the revocation finds the invitation as it was stored
      have hopen : Store.Open (w'.advance c.now).db r.id r.orgID := by
        refine ⟨r, ?_, stillPending_self h.pending⟩
        change r ∈ w'.db.invites
        rw [h.invites]
        exact mem_put.mpr (.inl rfl)
      obtain ⟨hres, hinvites⟩ := @Store.exec_revokeInvite_of_open env
        (max (w'.advance c.now).now c'.now) c'.id c'.pick _ _ _ _ _ horg hid hopen
      cases hf' : c'.fails with
      | true =>
          rw [exec_store_fails env _ hf']
          refine .fail (.pending rfl ?_)
          rw [any_snoc, hquiet, compensates]
          simp [hf']
      | false =>
          rw [exec_store_runs env _ hf', hres]
          refine .fail (.undone r rfl ?_ horg h.pending h.free ?_)
          · rw [any_snoc, compensates]
            simp [hf']
          · refine hinvites.trans ?_
            change w'.db.invites.update _ _ = _
            rw [h.invites]
            rfl

/-- The transaction that stores the invitation, and the notification after it. -/
theorem create_ends {n : InviteNotification} {invite reply : Invite} (horg : invite.orgID = orgID)
    (hemail : invite.email = email) (hpending : invite.status = .pending) (h : Still w [] w' tr) :
    (store (.createInvite invite) >>= fun _ => sendInvite n orgID invite.id >>=
      fun _ => pure reply).Ends (exec env) ok (Invites env w orgID email) w' tr := by
  have hquiet : ∀ c :
      Choice, (tr ++ [(⟨.store (.createInvite invite), c, w'⟩ : Done)]).any
        compensates = false := by
    intro c
    rw [any_snoc, quiet_of_still h]
    rfl
  -- between the two calls the row is stored and nothing is compensated yet
  refine ends_bind (M := fun res w'' tr' => (∀ e, res = .error e → w''.db = w.db ∧
      tr'.any compensates = false) ∧
      (res = .ok () → ∃ r : InviteRow, Uuid.parse invite.orgID = some r.orgID ∧
        Uuid.parse invite.id = some r.id ∧ Created env w email r w'' tr')) ?_ ?_ ?_
  · refine ends_passes (passes_store (.createInvite invite)) ?_ ?_
    · intro c v _ _ hstored
      obtain ⟨r, hid, hrow, hstatus, hfree, hinvites⟩ := Store.exec_createInvite_inv hstored
      refine ⟨fun _ hres => (nomatch hres),
        fun _ => ⟨r, hrow, hid, hquiet c, hstatus.trans hpending, ?_, ?_⟩⟩
      · rw [← h.db]
        exact hfree
      · rw [← h.db, ← hemail]
        exact hinvites
    · intro c e e' _ _
      exact ⟨fun _ _ => ⟨h.db, hquiet c⟩, fun hres => (nomatch hres)⟩
  · rintro _ w'' tr' ⟨_, hcreated⟩
    obtain ⟨r, hrow, hid, h'⟩ := hcreated rfl
    exact sendInvite_ends (horg ▸ hrow) hid h'
  · rintro e w'' tr' ⟨hkept, _⟩
    exact .kept (hkept e rfl).1 (hkept e rfl).2

theorem inviteMember_ends (orgID inviterID email : String) (w : World) :
    (inviteMember cfg orgID inviterID email).Ends (exec cfg.env) ok
      (Invites cfg.env w (trimSpace orgID) (cfg.env.normalizeEmail email)) w [] := by
  have hmember : (requireActiveMember (trimSpace orgID) (trimSpace inviterID)).Uses fun o =>
      idle o = true :=
    uses_bind (uses_memberLookup fun _ _ => rfl) fun _ => uses_failIf _ _
  refine ends_check (fun _ => ?_) fun _ => kept_of_still (still_refl w [])
  refine ends_check (fun _ => ?_) fun _ => kept_of_still (still_refl w [])
  refine ends_bind (reading_ends hmember (still_refl w [])) ?_
    fun _ _ _ h => kept_of_still h
  intro _ w₁ tr₁ h₁
  refine ends_bind (reading_ends (uses_store rfl) h₁) ?_ fun _ _ _ h => kept_of_still h
  intro org w₂ tr₂ h₂
  refine ends_bind (reading_ends (uses_store rfl) h₂) ?_ fun _ _ _ h => kept_of_still h
  intro inviter w₃ tr₃ h₃
  refine ends_bind (reading_ends (.call rfl uses_orReturn) h₃) ?_ fun _ _ _ h => kept_of_still h
  intro token w₄ tr₄ h₄
  refine ends_bind (reading_ends (uses_now rfl) h₄) ?_ fun _ _ _ h => kept_of_still h
  intro t w₅ tr₅ h₅
  refine ends_bind (reading_ends (uses_newID rfl) h₅) ?_ fun _ _ _ h => kept_of_still h
  intro id w₆ tr₆ h₆
  exact create_ends rfl rfl rfl h₆

/-- How `InviteMember`, called by itself, ends. -/
theorem perform_invites (cfg : Config) (orgID inviterID email : String)
    (choices : Nat → Choice) (w : World) :
    ∃ res, ((Call.inviteMember orgID inviterID email).perform cfg choices w).1 =
      res.map Reply.invite ∧
      Invites cfg.env w (trimSpace orgID) (cfg.env.normalizeEmail email) res
        ((Call.inviteMember orgID inviterID email).perform cfg choices w).2
        (((Call.inviteMember orgID inviterID email).program cfg).trail (exec cfg.env)
          choices w) := by
  have hend : ((Call.inviteMember orgID inviterID email).program cfg).Ends (exec cfg.env)
      (fun _ _ _ => True) (fun out w' tr => ∃ res, out = res.map Reply.invite ∧
        Invites cfg.env w (trimSpace orgID) (cfg.env.normalizeEmail email) res w' tr) w [] := by
    refine ends_map (ends_mono ?_ (inviteMember_ends orgID inviterID email w))
    exact fun res _ _ h => ⟨res, rfl, h⟩
  have hrun := ends_run hend choices fun _ _ => trivial
  rw [List.nil_append] at hrun
  exact hrun

end Calls

/-- A failed `InviteMember` changes no pending invitation exactly when it does not get as far as to
revoke what it created, or had superseded nothing by it. -/
theorem keepsInvitations_iff (cfg : Config) (orgID inviterID email : String)
    (choices : Nat → Choice) (w : World) :
    KeepsInvitations cfg orgID inviterID email choices w ↔
      ((((Call.inviteMember orgID inviterID email).program cfg).trail (exec cfg.env) choices w).any
          compensates = true → alreadyInvited cfg.env w.db orgID email = false) := by
  obtain ⟨res, hres, hinvites⟩ := perform_invites cfg orgID inviterID email choices w
  -- only the last of the four ways for the call to end revokes what it created
  cases hinvites with
  | sent hquiet =>
      refine iff_of_true (fun e he => ?_) fun hrevoked => ?_
      · rw [hres] at he
        cases he
      · rw [hquiet] at hrevoked
        cases hrevoked
  | kept hdb hquiet =>
      refine iff_of_true (fun _ _ _ org address id tokenHash expiresAt => ?_) fun hrevoked => ?_
      · unfold Pending
        rw [hdb]
      · rw [hquiet] at hrevoked
        cases hrevoked
  | pending herr hquiet =>
      refine iff_of_true (fun e he hcompensated => ?_) fun hrevoked => ?_
      · rw [hres] at he
        rw [← Except.error.inj he, herr] at hcompensated
        cases hcompensated
      · rw [hquiet] at hrevoked
        cases hrevoked
  | undone r herr hrevoked horg hpending hfree hdb =>
      have hsame := pending_undone_iff hdb hpending hfree
      unfold KeepsInvitations alreadyInvited
      rw [horg]
      constructor
      · intro hkeeps _
        exact hsame.mp (hkeeps _ hres herr)
      · intro hnone e _ _
        exact hsame.mpr (hnone hrevoked)

/-! ## A notification that fails -/

/-- What the environment answers at the instant `t`: it draws the identifiers from `k` on and this
secret, and the operations with these numbers fail. -/
def environment (t : Time) (k : Nat) (secret : String) (failing : List Nat) (n : Nat) : Choice where
  now := t
  fails := failing.contains n
  id := Uuid.ofNat (k + n)
  code := "123456"
  secret := secret

/-- Ann invites Bob. -/
def annInvites : Call :=
  .inviteMember (Uuid.ofNat 103).string (Uuid.ofNat 102).string "bob@example.com"

/-- Ann registers with an organization and invites Bob, who gets the token `first`. -/
def bobInvited : World :=
  Superseded.play toyConfig
    [(.registerWithEmail "ann@example.com" "secret" "Ann" "" "acme" "", environment 1000 100 "" []),
     (annInvites, environment 1100 200 "first" [])] toyWorld

/-- Ann invites Bob again and only the notification fails: both invitations are revoked. -/
theorem invitation_lost :
    (annInvites.perform toyConfig (environment 1200 300 "second" [7]) bobInvited).1 =
      .error .dependency ∧
      bobInvited.db.invites.rows.map (fun r => (r.tokenHash, r.status)) =
        [("sha256:first", .pending)] ∧
      (annInvites.perform toyConfig (environment 1200 300 "second" [7])
          bobInvited).2.db.invites.rows.map (fun r => (r.tokenHash, r.status)) =
        [("sha256:first", .revoked), ("sha256:second", .revoked)] ∧
      ¬ KeepsInvitations toyConfig (Uuid.ofNat 103).string (Uuid.ofNat 102).string "bob@example.com"
        (environment 1200 300 "second" [7]) bobInvited := by
  obtain ⟨hfailed, hbefore, hafter⟩ :
      (annInvites.perform toyConfig (environment 1200 300 "second" [7]) bobInvited).1 =
        .error .dependency ∧
      bobInvited.db.invites.rows.map (fun r => (r.tokenHash, r.status)) =
        [("sha256:first", .pending)] ∧
      (annInvites.perform toyConfig (environment 1200 300 "second" [7])
          bobInvited).2.db.invites.rows.map (fun r => (r.tokenHash, r.status)) =
        [("sha256:first", .revoked), ("sha256:second", .revoked)] := by
    decide +kernel
  refine ⟨hfailed, hbefore, hafter, fun hkeeps => ?_⟩
  have hfirst : ("sha256:first", InviteStatus.pending) ∈
      bobInvited.db.invites.rows.map fun r => (r.tokenHash, r.status) := by
    rw [hbefore]
    exact List.mem_singleton_self _
  obtain ⟨r, hr, hpair⟩ := List.mem_map.1 hfirst
  have hstatus : r.status = .pending := congrArg Prod.snd hpair
  obtain ⟨s, hs, hpending, _⟩ :=
    (hkeeps _ hfailed rfl r.orgID r.email r.id r.tokenHash r.expiresAt).mpr
      ⟨r, hr, hstatus, rfl, rfl, rfl, rfl, rfl⟩
  have hmem := List.mem_map_of_mem (f := fun r : InviteRow => (r.tokenHash, r.status)) hs
  rw [hpending] at hmem
  exact absurd (hafter ▸ hmem) (by simp)

end FailedInvite
end Service
end OrbitAuth
