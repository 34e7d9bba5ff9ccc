import OrbitAuth.Safety.Invitations

/-!
# Invite expiry — is an invitation accepted after it has expired?

The database does not look at `expires_at`: it accepts what is pending, and the use cases compare
the expiry with the clock.  `AcceptInvite` reads the clock once and stores that instant.  A
registration reads it twice, before and after it hashes the password; the first reading is compared
with the expiry and the second one is stored.

* `Carries` — the instant with which an invitation is used, as the history of the call shows it;
* `accepted_in_time` — if no registration reads the clock again after its invitation has expired,
  every accepted invitation was accepted before it expired;
* `accepted_late` — a registration whose invitation expires while the password is hashed.
-/

namespace OrbitAuth
namespace Service
namespace InviteExpiry

open Domain Foundations Postgres
open Invitations (Acceptance)

/-- Every accepted invitation was accepted before it expired. -/
def InTime (db : DB) : Prop :=
  ∀ i ∈ db.invites, i.status = .accepted → ∃ t, i.acceptedAt = some t ∧ t < i.expiresAt

def isInviteCall : Call → Bool
  | .inviteMember _ _ _ | .acceptInvite _ _ | .registerWithEmail _ _ _ _ _ _ => true
  | _ => false

/-- The invitation a call has looked up before its first look at the clock. -/
def checked? : List (Answered ports) → Option Invite
  | ⟨.store (.findInviteByTokenHash _), .ok invite⟩ :: ⟨.now, _⟩ :: _ => some invite
  | _ => none

/-- A call that looks at the clock again does so before its invitation has expired. -/
def onTime (p : ServicePool) (i : Nat) (c : Choice) : Bool :=
  match p.head? i, checked? (p.history i) with
  | some .now, some invite => max p.world.now c.now < invite.expiresAt
  | _, _ => true

/-! ## The table of invitations -/

/-- No invitation is lost and none gets another expiry. -/
def Keeps (db db' : DB) : Prop :=
  ∀ i ∈ db.invites, ∃ i' ∈ db'.invites, i'.id = i.id ∧ i'.orgID = i.orgID ∧
  i'.expiresAt = i.expiresAt

theorem keeps_refl (db : DB) : Keeps db db :=
  fun i hi => ⟨i, hi, rfl, rfl, rfl⟩

theorem keeps_trans {db₁ db₂ db₃ : DB} (h₁₂ : Keeps db₁ db₂) (h₂₃ : Keeps db₂ db₃) :
    Keeps db₁ db₃ := by
  intro i hi
  obtain ⟨i₂, hi₂, hid, horg, hexpires⟩ := h₁₂ i hi
  obtain ⟨i₃, hi₃, hid', horg', hexpires'⟩ := h₂₃ i₂ hi₂
  exact ⟨i₃, hi₃, hid'.trans hid, horg'.trans horg, hexpires'.trans hexpires⟩

/-- Statements that neither accept nor delete invitations. -/
def Harmless : Sql → Prop
  | .acceptOrganizationInvite _ _ _ | .purgeUnverifiedSignups _ | .deleteEmptyOrganizations => False
  | .createOrganizationInvite _ _ _ _ _ status _ _ => status = .pending
  | _ => True

section Tables

variable {env : Env} {now : Time} {id : Uuid} {pick : Nat} {db : DB}

/-- Revoking changes the status alone. -/
theorem revoked_keeps {t : Table InviteRow} (p : InviteRow → Bool) :
    (∀ i ∈ t, ∃ i' ∈ t.update p InviteRow.revoked,
        i'.id = i.id ∧ i'.orgID = i.orgID ∧ i'.expiresAt = i.expiresAt) ∧
      ∀ i ∈ t.update p InviteRow.revoked, i.status = .accepted → i ∈ t := by
  refine ⟨?_, ?_⟩
  · intro i hi
    have hmem := update_mem (p := p) key_inviteRevoked hi
    refine ⟨_, hmem, ?_⟩
    split <;> exact ⟨rfl, rfl, rfl⟩
  · intro i hi hstatus
    rcases (mem_update key_inviteRevoked).mp hi with ⟨i', _, _, rfl⟩ | ⟨hi, _⟩
    · cases hstatus
    · exact hi

theorem eval_harmless {s : Sql} {v : s.Val} {ws : List Write} (hs : Harmless s)
    (h : s.eval env now pick db = .ok (v, ws)) :
    Keeps db (db.applyAll ws) ∧ (InTime db → InTime (db.applyAll ws)) := by
  unfold Keeps InTime
  have hchange := eval_invites h
  generalize (db.applyAll ws).invites = t at hchange
  cases hchange with
  | same => exact ⟨keeps_refl db, fun hdb => hdb⟩
  -- both revocations touch pending rows only
  | superseded org email =>
      have hkeeps := revoked_keeps (t := db.invites) (InviteRow.pendingFor env org email)
      exact ⟨hkeeps.1, fun hdb i hi hstatus => hdb i (hkeeps.2 i hi hstatus) hstatus⟩
  | revoked iid org =>
      have hkeeps := revoked_keeps (t := db.invites) (InviteRow.stillPending iid org)
      exact ⟨hkeeps.1, fun hdb i hi hstatus => hdb i (hkeeps.2 i hi hstatus) hstatus⟩
  -- a new row is pending and under a new identifier
  | inserted r expires created hfree _ _ _ =>
      have hpending : r.status = .pending := hs
      refine ⟨?_, ?_⟩
      · intro i hi
        exact ⟨i, mem_put.mpr (.inr ⟨hi, (hfree i hi).1⟩), rfl, rfl, rfl⟩
      · intro hdb i hi hstatus
        rcases mem_put.mp hi with rfl | ⟨hi, _⟩
        · rw [hpending] at hstatus
          cases hstatus
        · exact hdb i hi hstatus
  -- the rest writes what a harmless statement does not
  | accepted iid org acceptedAt => exact hs.elim
  | purged before => exact hs.elim
  | deserted => exact hs.elim

/-- A call that writes invitations with harmless statements only. -/
theorem exec_harmless {o : Store.Op} (ho : ∀ s, Store.WritesInvites o s → Harmless s) :
    Keeps db (o.exec env now id pick db).2 ∧
    (InTime db → InTime (o.exec env now id pick db).2) := by
  have hbody : (o.body now id).Uses Harmless := by
    refine uses_mono ?_ (Store.body_invites now id o)
    intro s hs
    by_cases hn : TableName.invites ∈ s.writes
    · exact ho s (hs hn)
    · cases s <;> first | trivial | exact absurd (by simp [Sql.writes]) hn
  refine Store.exec_rel (R := fun db db' => Keeps db db' ∧ (InTime db → InTime db')) ?_ ?_
    ?_ hbody pick db
  · exact fun db => ⟨keeps_refl db, fun h => h⟩
  · exact fun _ _ _ h₁₂ h₂₃ => ⟨keeps_trans h₁₂.1 h₂₃.1, fun h => h₂₃.2 (h₁₂.2 h)⟩
  · exact fun s pick db v ws hs heval => eval_harmless hs heval

/-- The instant with which the invitation is used. -/
def instant : Acceptance → Time
  | .accept _ _ _ t => t
  | .create _ _ _ t => t
  | .reissue _ _ _ t => t

/-- The call writes at most the invitation it names. -/
theorem exec_acceptance_invites (a : Acceptance) :
    (a.op.exec env now id pick db).2.invites = db.invites ∨
      ∃ iid org, Uuid.parse a.inviteID = some iid ∧ Uuid.parse a.orgID = some org ∧
        (a.op.exec env now id pick db).2.invites =
          db.invites.update (InviteRow.stillPending iid org)
            (InviteRow.accepted (Store.timestamptz (instant a))) := by
  rcases Store.exec_commits env now id pick a.op db with ⟨_, _, hcommits⟩ | hsame
  · generalize (a.op.exec env now id pick db).2 = db' at hcommits ⊢
    cases a with
    | accept inviteID orgID userID t =>
        obtain ⟨iid, org, user, hid, horg, _, _, _, _, _, rfl⟩ :=
          Store.commits_acceptInvite.mp hcommits
        exact .inr ⟨iid, org, hid, horg, rfl⟩
    | create user org invite t =>
        -- only the new account's own invitation is accepted, and only if the address was free
        obtain ⟨uid, _, ⟨_, _, rfl⟩ | ⟨_, _, db₁, hjoin, hown⟩⟩ :=
          Store.commits_createSignupUser.mp hcommits
        · exact .inl rfl
        · obtain ⟨oid, iid, horg, hid, _, _, _, rfl⟩ := Store.commits_joinInvite.mp hjoin
          refine .inr ⟨iid, oid, hid, horg, ?_⟩
          cases org with
          | none => rw [(Store.commits_pure.mp hown).2]; rfl
          | some o =>
              obtain ⟨_, _, _, _, _, _, rfl⟩ := Store.commits_ownOrg.mp hown
              rfl
    | reissue user challenge invite t =>
        obtain ⟨r, org, iid, _, horg, hid, _, _, _, hredeems⟩ :=
          Invitations.commits_reissue_invited hcommits
        exact .inr ⟨iid, org, hid, horg, hredeems.invites⟩
  · exact .inl (congrArg DB.invites hsame)

/-- What the two properties say depends on the invitations alone. -/
theorem keeps_of_same {db' : DB} (h : db'.invites = db.invites) :
    Keeps db db' ∧ (InTime db → InTime db') := by
  unfold Keeps InTime
  rw [h]
  exact ⟨keeps_refl db, fun hdb => hdb⟩

/-- An invitation that is used before it expires. -/
theorem exec_acceptance (a : Acceptance) (hclock : instant a ≠ 0) {i : InviteRow}
    (hi : i ∈ db.invites) (hid : a.inviteID = i.id.string) (hexpires : instant a < i.expiresAt) :
    Keeps db (a.op.exec env now id pick db).2 ∧
      (InTime db → InTime (a.op.exec env now id pick db).2) := by
  rcases exec_acceptance_invites a with hsame | ⟨iid, org, hiid, _, hinvites⟩
  · exact keeps_of_same hsame
  · have hstamp : Store.timestamptz (instant a) = some (instant a) := if_neg hclock
    obtain rfl : i.id = iid := by simpa [hid, Uuid.parse_string] using hiid
    rw [hstamp] at hinvites
    unfold Keeps InTime
    rw [hinvites]
    refine ⟨?_, ?_⟩
    · intro j hj
      have hmem := update_mem (p := InviteRow.stillPending i.id org)
        (key_inviteAccepted (some (instant a))) hj
      refine ⟨_, hmem, ?_⟩
      split <;> exact ⟨rfl, rfl, rfl⟩
    · intro hdb j hj hstatus
      rcases (mem_update (key_inviteAccepted _)).mp hj with ⟨j', hj', hopen, rfl⟩ | ⟨hj, _⟩
      · -- the accepted row is the one that was looked up
        have hkey : j'.id = i.id := by
          simp only [InviteRow.stillPending, Bool.and_eq_true, decide_eq_true_eq] at hopen
          exact hopen.1.1
        obtain rfl : j' = i := eq_of_key hj' hi hkey
        exact ⟨instant a, rfl, hexpires⟩
      · exact hdb j hj hstatus

/-- Without an invitation a sign-up leaves the invitations alone. -/
theorem exec_uninvited (user : User) (org : Option Organization) (challenge : Option OTPChallenge)
    (t : Time) :
    ((Store.Op.createSignupUser user org none t).exec env now id pick db).2.invites = db.invites ∧
      ((Store.Op.reissuePendingSignup user challenge none t).exec env now id pick db).2.invites =
        db.invites := by
  refine ⟨?_, ?_⟩
  · rcases Store.exec_commits env now id pick (.createSignupUser user org none t) db with
      ⟨_, _, hcommits⟩ | hsame
    · generalize ((Store.Op.createSignupUser user org none t).exec env now id pick db).2 = db'
        at hcommits ⊢
      -- neither the account nor the organization is an invitation
      obtain ⟨uid, _, ⟨_, _, rfl⟩ | ⟨_, _, db₁, hjoin, hown⟩⟩ :=
        Store.commits_createSignupUser.mp hcommits
      · rfl
      · obtain ⟨_, rfl⟩ := Store.commits_pure.mp hjoin
        cases org with
        | none =>
            obtain ⟨_, rfl⟩ := Store.commits_pure.mp hown
            rfl
        | some o =>
            obtain ⟨_, _, _, _, _, _, rfl⟩ := Store.commits_ownOrg.mp hown
            rfl
    · exact congrArg DB.invites hsame
  · rcases Store.exec_commits env now id pick (.reissuePendingSignup user challenge none t) db with
      ⟨_, _, hcommits⟩ | hsame
    · generalize ((Store.Op.reissuePendingSignup user challenge none t).exec env now id pick db).2 =
        db' at hcommits ⊢
      obtain ⟨r, _, _, db₁, hrotate, hactivate⟩ := Store.commits_reissuePendingSignup.mp hcommits
      obtain ⟨_, challenges, rfl⟩ := Invitations.rotates_of_commits hrotate
      obtain ⟨_, rfl⟩ := Store.commits_pure.mp hactivate
      rfl
    · exact congrArg DB.invites hsame

end Tables

/-! ## Histories -/

/-- The call has looked up the invitation it now uses, found it unexpired, and uses it with that
instant or a later reading of the clock. -/
def Carries (tr : List (Answered ports)) (a : Acceptance) : Prop :=
  ∃ tokenHash invite t rest,
    tr = ⟨.store (.findInviteByTokenHash tokenHash), .ok invite⟩ :: ⟨.now, t⟩ :: rest ∧
      a.inviteID = invite.id ∧
      (instant a = t ∧ t < invite.expiresAt ∨ (⟨.now, instant a⟩ : Answered ports) ∈ rest)

/-- What a call may ask for after the history `tr`. -/
def Timely (tr : List (Answered ports)) : Port → Prop
  | .store (.acceptInvite inviteID orgID userID t) => Carries tr (.accept inviteID orgID userID t)
  | .store (.createSignupUser user org (some invite) t) => Carries tr (.create user org invite t)
  | .store (.reissuePendingSignup user ch (some invite) t) => Carries tr (.reissue user ch invite t)
  | .store (.createInvite invite) => invite.status = .pending
  | .store (.purgeUnverifiedSignups _) => False
  | _ => True

/-- The looked-up invitation is still there. -/
def Kept (db : DB) (invite : Invite) : Prop :=
  ∃ i ∈ db.invites, invite.id = i.id.string ∧ invite.expiresAt = i.expiresAt

/-- What the history of a call says about the database. -/
structure Vouched (db : DB) (tr : List (Answered ports)) : Prop where
  found : ∀ tokenHash invite,
    (⟨.store (.findInviteByTokenHash tokenHash), .ok invite⟩ : Answered ports) ∈ tr → Kept db invite
  clock : ∀ t, (⟨.now, t⟩ : Answered ports) ∈ tr → t ≠ 0
  again : ∀ invite, checked? tr = some invite →
    ∀ t, (⟨.now, t⟩ : Answered ports) ∈ tr.drop 2 → t < invite.expiresAt

section Steps

variable {env : Env} {db db' : DB} {tr : List (Answered ports)}

theorem kept_mono (hkeeps : Keeps db db') {invite : Invite} (h : Kept db invite) :
    Kept db' invite := by
  obtain ⟨i, hi, hid, hexpires⟩ := h
  obtain ⟨i', hi', hid', _, hexpires'⟩ := hkeeps i hi
  exact ⟨i', hi', by rw [hid, hid'], by rw [hexpires, hexpires']⟩

theorem vouched_nil (db : DB) : Vouched db [] where
  found _ _ h := absurd h List.not_mem_nil
  clock _ h := absurd h List.not_mem_nil
  again _ h := nomatch h

theorem vouched_mono (hkeeps : Keeps db db') (h : Vouched db tr) : Vouched db' tr :=
  { h with found := fun tokenHash invite hmem => kept_mono hkeeps (h.found tokenHash invite hmem) }

/-- An invitation used after such a history is used before it expires. -/
theorem carries_due {a : Acceptance} (hcarries : Carries tr a) (h : Vouched db tr) :
    instant a ≠ 0 ∧ ∃ i ∈ db.invites, a.inviteID = i.id.string ∧ instant a < i.expiresAt := by
  obtain ⟨tokenHash, invite, t, rest, rfl, hid, hinstant⟩ := hcarries
  obtain ⟨i, hi, hiid, hexpires⟩ := h.found tokenHash invite (by simp)
  have hread : (⟨.now, instant a⟩ : Answered ports) ∈ [⟨.now, t⟩] ++ rest ∧
      instant a < invite.expiresAt := by
    rcases hinstant with ⟨rfl, hlt⟩ | hmem
    · exact ⟨by simp, hlt⟩
    · exact ⟨by simp [hmem], h.again invite rfl _ hmem⟩
  exact ⟨h.clock _ (List.mem_cons_of_mem _ hread.1), i, hi, hid.trans hiid, hexpires ▸ hread.2⟩

/-- What a call may ask for loses no invitation and accepts none late. -/
theorem exec_timely {o : Store.Op} (ho : Timely tr (.store o)) (h : Vouched db tr) (now : Time)
    (id : Uuid) (pick : Nat) :
    Keeps db (o.exec env now id pick db).2 ∧
    (InTime db → InTime (o.exec env now id pick db).2) := by
  -- the three calls that accept one, each on what its trail carries
  have haccept : ∀ a : Acceptance, Carries tr a →
      Keeps db (a.op.exec env now id pick db).2 ∧
        (InTime db → InTime (a.op.exec env now id pick db).2) := by
    intro a hcarries
    obtain ⟨hclock, i, hi, hid, hexpires⟩ := carries_due hcarries h
    exact exec_acceptance a hclock hi hid hexpires
  cases o with
  | acceptInvite inviteID orgID userID t => exact haccept (.accept inviteID orgID userID t) ho
  | createSignupUser user org invite t =>
      cases invite with
      | some invite => exact haccept (.create user org invite t) ho
      | none => exact keeps_of_same (exec_uninvited user org none t).1
  | reissuePendingSignup user challenge invite t =>
      cases invite with
      | some invite => exact haccept (.reissue user challenge invite t) ho
      | none => exact keeps_of_same (exec_uninvited user none challenge t).2
  | createInvite invite =>
      refine exec_harmless ?_
      intro s hs
      cases hs with
      | supersede => trivial
      | create => exact ho
  | revokeInvite orgID inviteID =>
      refine exec_harmless ?_
      intro s hs
      cases hs with
      | revoke => trivial
  -- the service never asks for the purge within a call
  | purgeUnverifiedSignups before => exact ho.elim
  | _ => exact keeps_of_same (Store.exec_same (n := .invites) (by simp [Store.Op.writes])
      now id pick db)

/-- The first two answers decide what was checked. -/
theorem checked?_snoc (a b x : Answered ports) (rest : List (Answered ports)) :
    checked? (a :: b :: (rest ++ [x])) = checked? (a :: b :: rest) := by
  rcases a with ⟨o, r⟩
  rcases b with ⟨o', r'⟩
  cases o with
  | store s =>
      cases s with
      | findInviteByTokenHash tokenHash => cases r <;> cases o' <;> rfl
      | _ => rfl
  | _ => rfl

/-- The next answer of a call. -/
theorem vouched_snoc {o : Port} {ans : o.Ans} (h : Vouched db tr)
    (hfound : ∀ tokenHash invite,
    (⟨.store (.findInviteByTokenHash tokenHash), .ok invite⟩ : Answered ports) =
      ⟨o, ans⟩ → Kept db invite)
    (hread : ∀ t, (⟨.now, t⟩ : Answered ports) = ⟨o, ans⟩ →
      t ≠ 0 ∧ ∀ invite, checked? tr = some invite → t < invite.expiresAt) :
    Vouched db (tr ++ [⟨o, ans⟩]) where
  found tokenHash invite hmem := by
    rcases List.mem_append.mp hmem with hmem | hmem
    · exact h.found tokenHash invite hmem
    · exact hfound tokenHash invite (List.mem_singleton.mp hmem)
  clock t hmem := by
    rcases List.mem_append.mp hmem with hmem | hmem
    · exact h.clock t hmem
    · exact (hread t (List.mem_singleton.mp hmem)).1
  again invite hchecked t hmem := by
    rcases tr with _ | ⟨a, _ | ⟨b, rest⟩⟩
    · simp at hmem
    · simp at hmem
    · have hbefore : checked? (a :: b :: rest) = some invite :=
        (checked?_snoc a b _ rest) ▸ hchecked
      rcases List.mem_append.mp hmem with hmem | hmem
      · exact h.again invite hbefore t hmem
      · exact (hread t (List.mem_singleton.mp hmem)).2 invite hbefore

/-- One step of a run. -/
theorem vouched_step {p : ServicePool} {i : Nat} {c : Choice} {o : Port} {k : o.Ans → Action Reply}
    (hnow : p.world.now ≠ 0) (hdb : InTime p.world.db)
    (hvouched : ∀ j, Vouched p.world.db (p.history j)) (hok : onTime p i c = true)
    (hi : p.threads[i]? = some (.call o k)) (htimely : Timely (p.history i) o) :
    let p' := p.called (exec env) i c o k
    p'.world.now ≠ 0 ∧ InTime p'.world.db ∧ ∀ j, Vouched p'.world.db (p'.history j) := by
  intro p'
  have hlater : (exec env o c p.world).2.now ≠ 0 :=
    Nat.ne_of_gt (lt_of_lt_of_le (Nat.pos_of_ne_zero hnow) (exec_now_le env o c p.world))
  have hchange : Keeps p.world.db (exec env o c p.world).2.db ∧
      (InTime p.world.db → InTime (exec env o c p.world).2.db) := by
    refine exec_db_rel (R := fun db db' => Keeps db db' ∧ (InTime db → InTime db'))
      (fun db => ⟨keeps_refl db, fun h => h⟩) ?_ c
    rintro o' rfl now id pick
    exact exec_timely htimely (hvouched i) now id pick
  refine ⟨hlater, hchange.2 hdb, ?_⟩
  intro j
  have hmono : Vouched (exec env o c p.world).2.db (p.history j) :=
    vouched_mono hchange.1 (hvouched j)
  by_cases hji : j = i
  · subst hji
    rw [Pool.called_history_self]
    refine vouched_snoc hmono ?_ ?_
    -- a lookup vouches for the row it has just read
    · intro tokenHash invite hans
      obtain ⟨rfl, hans⟩ := Answered.mk.inj hans
      have hfound := exec_store_ok (eq_of_heq hans).symm
      obtain ⟨r, hr, _, rfl⟩ := Store.exec_findInviteByTokenHash_ok hfound.1
      exact kept_mono hchange.1 ⟨r, hr, rfl, rfl⟩
    -- a clock reading vouches for the check that is made with it
    · intro t hans
      obtain ⟨rfl, hans⟩ := Answered.mk.inj hans
      obtain rfl : t = max p.world.now c.now := eq_of_heq hans
      refine ⟨hlater, ?_⟩
      intro invite hchecked
      have hhead : p.head? j = some .now := Pool.head?_of_threads hi
      simpa [onTime, hhead, hchecked] using hok
  -- the other threads have answered nothing new
  · rw [Pool.called_history_other p c o k hji]
    exact hmono

end Steps

/-! ## The calls -/

section Calls

variable {cfg : Config}

theorem timely_plain {tr : List (Answered ports)} (o : Port) (h : o.plain = true) :
    Timely tr o := by
  cases o with
  | store o => cases o <;> trivial
  | _ => trivial

theorem carries_snoc {tr : List (Answered ports)} {a : Acceptance} (h : Carries tr a)
    (x : Answered ports) : Carries (tr ++ [x]) a := by
  obtain ⟨tokenHash, invite, t, rest, rfl, hid, hinstant⟩ := h
  refine ⟨tokenHash, invite, t, rest ++ [x], rfl, hid, ?_⟩
  rcases hinstant with hfirst | hagain
  · exact .inl hfirst
  · exact .inr (List.mem_append_left _ hagain)

theorem inviteMember_orderly (orgID inviterID email : String) :
    (inviteMember cfg orgID inviterID email).Orderly Timely (fun _ _ => True) [] := by
  have huses : (inviteMember cfg orgID inviterID email).Uses fun o => ∀ tr, Timely tr o :=
    uses_inviteMember (fun o h tr => timely_plain o h)
    (fun _ hpending _ => hpending) fun _ _ _ => trivial
  exact orderly_of_uses (M := fun _ => True) (fun tr _ _ ho => ho tr)
    (fun _ _ h => h) huses [] trivial

/-- `AcceptInvite` stores the instant that it has compared with the expiry. -/
theorem acceptInvite_orderly (userID token : String) :
    (acceptInvite cfg userID token).Orderly Timely (fun _ _ => True) [] := by
  refine orderly_bind orderly_failIf fun _ tr₀ h₀ => ?_
  obtain ⟨rfl, _⟩ := h₀
  refine orderly_bind (orderly_passes (passes_storeMapping _ _ _) trivial) fun invite tr₁ h₁ => ?_
  subst h₁
  refine orderly_bind (orderly_now trivial) fun t tr₂ h₂ => ?_
  subst h₂
  refine orderly_bind orderly_failIf fun _ tr₃ h₃ => ?_
  obtain ⟨rfl, hfresh⟩ := h₃
  have hexpires : t < invite.expiresAt := by
    simp only [Bool.or_eq_false_iff, decide_eq_false_iff_not, not_le] at hfresh
    exact hfresh.2
  refine orderly_bind (orderly_passes (passes_storeMapping _ _ _) trivial) fun user tr₄ h₄ => ?_
  subst h₄
  refine orderly_bind orderly_failIf fun _ tr₅ h₅ => ?_
  obtain ⟨rfl, _⟩ := h₅
  have hpasses := passes_storeMapping .inviteNotFound .invalidInvite
    (.acceptInvite invite.id invite.orgID (trimSpace userID) t)
  refine orderly_bind (orderly_passes hpasses ?_) fun _ _ _ => .done trivial
  exact ⟨_, invite, t, _, rfl, rfl, .inl ⟨rfl, hexpires⟩⟩

/-- The invitation of a registration was looked up, and the clock was read once. -/
theorem signupInvite_orderly (token email : String) :
    (signupInvite cfg token email).Orderly Timely
      (fun tr invite? => ∀ invite, invite? = some invite →
        ∃ tokenHash t, tr = [⟨.store (.findInviteByTokenHash tokenHash), .ok invite⟩, ⟨.now, t⟩])
      [] := by
  unfold signupInvite
  split
  · exact .done fun invite h => nomatch h
  · refine orderly_bind (orderly_passes (passes_storeMapping _ _ _) trivial) fun invite tr₁ h₁ => ?_
    subst h₁
    refine orderly_bind (orderly_now trivial) fun t tr₂ h₂ => ?_
    subst h₂
    refine orderly_bind orderly_failIf fun _ tr₃ h₃ => ?_
    obtain ⟨rfl, _⟩ := h₃
    refine .done ?_
    rintro invite' hinvite
    cases hinvite
    exact ⟨_, t, rfl⟩

/-- What is stored is the instant read after the password was hashed. -/
theorem submitSignup_orderly {email passwordHash displayName locale orgName : String}
    {invite? : Option Invite} {tr : List (Answered ports)}
    (htr : ∀ invite, invite? = some invite → ∃ tokenHash t rest,
      tr = ⟨.store (.findInviteByTokenHash tokenHash), .ok invite⟩ :: ⟨.now, t⟩ :: rest) :
    (submitSignup email passwordHash displayName locale orgName invite?).Orderly Timely
      (fun _ _ => True) tr := by
  refine orderly_bind (orderly_now trivial) fun t tr₁ h₁ => ?_
  subst h₁
  -- what the trail carries once the clock is read, and keeps carrying
  let carried (tr : List (Answered ports)) : Prop := ∀ invite, invite? = some invite →
    ∀ a : Acceptance, a.inviteID = invite.id → instant a = t → Carries tr a
  have hstart : carried (tr ++ [⟨.now, t⟩]) := by
    intro invite hinvite a hid hinstant
    obtain ⟨tokenHash, t₀, rest, rfl⟩ := htr invite hinvite
    exact ⟨tokenHash, invite, t₀, rest ++ [⟨.now, t⟩], rfl, hid, .inr (by simp [hinstant])⟩
  have hplain : ∀ o : Port, o.plain = true → ∀ tr, carried tr → Timely tr o :=
    fun o h _ _ => timely_plain o h
  have hcreate : ∀ user org tr, carried tr →
      Timely tr (.store (.createSignupUser user org invite? t)) := by
    intro user org tr htr
    cases hinvite : invite? with
    | none => trivial
    | some invite => exact htr invite hinvite (.create user org invite t) rfl rfl
  have hreissue : ∀ user ch tr, carried tr →
      Timely tr (.store (.reissuePendingSignup user ch invite? t)) := by
    intro user ch tr htr
    cases hinvite : invite? with
    | none => trivial
    | some invite => exact htr invite hinvite (.reissue user ch invite t) rfl rfl
  refine orderly_mono (fun _ _ h => h) (fun _ _ _ => trivial)
    (orderly_of_uses (M := carried)
      (fun tr o hM (ho : ∀ tr, carried tr → Timely tr o) => ho tr hM) ?_ ?_ _ hstart)
  -- a longer trail carries what the shorter one did
  · intro tr x hM invite hinvite a hid hinstant
    exact carries_snoc (hM invite hinvite a hid hinstant) x
  · refine uses_bind (uses_newID fun _ _ => trivial) fun id => ?_
    refine uses_bind (uses_signupOrg hplain _ _ _) fun org => ?_
    refine uses_bind (uses_storeMapping (hcreate _ _)) fun created => ?_
    split
    · exact uses_retryPendingSignup hplain (fun _ _ => trivial) fun ch => hreissue _ ch
    · split
      · exact .done _
      · exact uses_sendSignupCode hplain (fun _ _ _ => trivial) _ _

theorem registerWithEmail_orderly (email password displayName locale orgName inviteToken : String) :
    (registerWithEmail cfg email password displayName locale orgName inviteToken).Orderly Timely
      (fun _ _ => True) [] := by
  refine orderly_bind orderly_failIf fun _ tr₀ h₀ => ?_
  obtain ⟨rfl, _⟩ := h₀
  refine orderly_bind orderly_failIf fun _ tr₁ h₁ => ?_
  obtain ⟨rfl, _⟩ := h₁
  refine orderly_bind orderly_failIf fun _ tr₂ h₂ => ?_
  obtain ⟨rfl, _⟩ := h₂
  refine orderly_bind (signupInvite_orderly _ _) fun invite? tr₃ h₃ => ?_
  have hhash :
      (hash password).Orderly Timely (fun tr _ => ∃ r, tr = tr₃ ++ [⟨.hash password, r⟩]) tr₃ := by
    refine .call trivial fun r => ?_
    cases r with
    | ok h => exact .done ⟨_, rfl⟩
    | error e => exact .fail
  refine orderly_bind hhash fun passwordHash tr₄ h₄ => submitSignup_orderly ?_
  obtain ⟨r, rfl⟩ := h₄
  intro invite hinvite
  obtain ⟨tokenHash, t, rfl⟩ := h₃ invite hinvite
  exact ⟨tokenHash, t, [⟨.hash password, r⟩], rfl⟩

end Calls

/-! ## Whole runs -/

/-- If no registration reads the clock again after its invitation has expired, no invitation is
accepted after it expired. -/
theorem accepted_in_time {cfg : Config} {calls : List Call} {w : World} {sched : Schedule}
    (hcalls : ∀ call ∈ calls, isInviteCall call = true) (hclock : w.now ≠ 0) (hw : InTime w.db)
    (hok : Pool.Along (exec cfg.env) (fun p i c => onTime p i c = true) (serve cfg w calls) sched) :
    InTime (runOn cfg (serve cfg w calls) sched).world.db := by
  have horderly : (serve cfg w calls).Orderly fun _ => Timely := by
    intro i q hq
    have hmap : (calls.map (Call.program cfg))[i]? = some q := hq
    rw [List.getElem?_map, Option.map_eq_some_iff] at hmap
    obtain ⟨call, hi, rfl⟩ := hmap
    have hcall := hcalls call (List.mem_of_getElem? hi)
    cases call with
    | inviteMember =>
        exact orderly_bind (inviteMember_orderly _ _ _) fun _ _ _ => .done trivial
    | acceptInvite => exact orderly_bind (acceptInvite_orderly _ _) fun _ _ _ => .done trivial
    | registerWithEmail =>
        exact orderly_bind (registerWithEmail_orderly _ _ _ _ _ _) fun _ _ _ => .done trivial
    | _ => cases hcall
  have hrun := Pool.run_orderly
    (J := fun p => p.world.now ≠ 0 ∧ InTime p.world.db ∧ ∀ j, Vouched p.world.db (p.history j))
    ?_ hok horderly ⟨hclock, hw, fun _ => vouched_nil _⟩
  · exact hrun.2.1
  · rintro p i c o k hp ⟨hnow, hdb, hvouched⟩ hstep hi
    have htimely := Pool.next_of_head? hp (Pool.head?_of_threads hi)
    exact vouched_step hnow hdb hvouched hstep hi htimely

/-- An organization with an open invitation for Bob. -/
def openInvite : World :=
  { toyWorld with
    db := { DB.empty with
      users := Table.empty.put (toyUser 2)
      orgs := Table.empty.put ⟨Uuid.ofNat 1, "acme", 1, 1⟩
      invites := Table.empty.put ⟨Uuid.ofNat 5, Uuid.ofNat 1, "bob@example.com",
        toyEnv.hashInviteToken "welcome", Uuid.ofNat 2, .pending, 9000, none, 1⟩ } }

def bobRegisters : Call :=
  .registerWithEmail "bob@example.com" "hunter2" "Bob" "" "" "welcome"

/-- Hashing the password takes a second. -/
def swiftHash : Schedule :=
  turns 0 1000 300 3 ++ turns 0 2000 400 3

set_option maxRecDepth 10000 in
/-- Bob's registration accepts the invitation in time. -/
theorem accepted_in_time_bob :
    (∃ i ∈ (runOn toyConfig (serve toyConfig openInvite [bobRegisters]) swiftHash).world.db.invites,
      i.status = .accepted) ∧
    InTime (runOn toyConfig (serve toyConfig openInvite [bobRegisters]) swiftHash).world.db := by
  have hcalls : ∀ call ∈ [bobRegisters], isInviteCall call =
    true := by simp [bobRegisters, isInviteCall]
  have hclock : openInvite.now ≠ 0 := by decide
  have hstart : InTime openInvite.db := by
    intro i hi hstatus
    rcases mem_put.mp hi with rfl | ⟨hold, _⟩
    · cases hstatus
    · exact absurd hold (not_mem_empty i)
  obtain ⟨hok, haccepted⟩ : Pool.Along (exec toyConfig.env) (fun p i c => onTime p i c = true)
        (serve toyConfig openInvite [bobRegisters]) swiftHash ∧
      ∃ i ∈ (runOn toyConfig (serve toyConfig openInvite [bobRegisters])
        swiftHash).world.db.invites, i.status = .accepted := by decide +kernel
  exact ⟨haccepted, accepted_in_time hcalls hclock hstart hok⟩

/-- Ann founds an organization and invites Bob, who registers with the invitation. -/
def signupByInvite : List Call :=
  [.registerWithEmail "ann@example.com" "secret" "Ann" "" "acme" "",
    .inviteMember (Uuid.ofNat 103).string (Uuid.ofNat 102).string "bob@example.com", bobRegisters]

/-- Hashing Bob's password takes seven days. -/
def slowHash : Schedule :=
  draws "welcome" 0 1000 100 12 ++ draws "welcome" 1 1100 200 8 ++ draws "welcome" 2 1200 300 3 ++
    draws "welcome" 2 (inviteTTL + 2000) 400 3

set_option maxRecDepth 10000 in
/-- The invitation expires while the password is hashed and is accepted all the same. -/
theorem accepted_late :
    (∀ call ∈ signupByInvite, isInviteCall call = true) ∧ toyWorld.now ≠ 0 ∧ InTime toyWorld.db ∧
      ¬ InTime (runOn toyConfig (serve toyConfig toyWorld signupByInvite) slowHash).world.db := by
  have hlate : ∃ i ∈ (runOn toyConfig (serve toyConfig toyWorld signupByInvite)
      slowHash).world.db.invites, i.status = .accepted ∧
        i.acceptedAt = some (inviteTTL + 2000) ∧ i.expiresAt ≤ inviteTTL + 2000 := by decide +kernel
  refine ⟨by simp [signupByInvite, bobRegisters, isInviteCall], by decide, ?_, ?_⟩
  · intro i hi
    exact absurd hi (not_mem_empty i)
  · intro hintime
    obtain ⟨i, hi, hstatus, haccepted, hexpires⟩ := hlate
    obtain ⟨t, ht, hlt⟩ := hintime i hi hstatus
    rw [haccepted] at ht
    cases ht
    exact absurd hlt (not_lt.mpr hexpires)

end InviteExpiry
end Service
end OrbitAuth
