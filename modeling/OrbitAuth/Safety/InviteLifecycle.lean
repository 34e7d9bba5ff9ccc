import OrbitAuth.Foundations.Contention
import OrbitAuth.Postgres.Transactions
import OrbitAuth.Service.Requests

/-!
# InviteLifecycle — an invitation is used once and then stays as it is

Invitations are created pending and become accepted or revoked by conditional updates.  Three
transactions accept and two revoke, most of them under the lock of the organization and
`RevokeInvite` without it; any of them may be rolled back after its update.  What makes this safe is
the row: the update sees it pending and holds it to the end.

* `Final` — an invitation that is not pending stays as it is, statement by statement;
* `Won` — what a transaction knows that has accepted an invitation;
* `pendingIndex` — the unique index over organization and address of the pending ones;
* `invitations_single_use` — over every interleaving: each invitation is accepted by one transaction
  at most, is final once it is not pending, is dated exactly when accepted, and at most one is
  pending for an organization and address.
-/

namespace OrbitAuth
namespace Service
namespace InviteLifecycle

open Domain Foundations Postgres

variable {now : Time}

/-! ## Statements -/

/-- An invitation that is not pending any more stays as it is. -/
def Final (x y : Option InviteRow) : Prop :=
  ∀ r, x = some r → r.status ≠ .pending → y = some r

theorem final_refl (x : Option InviteRow) : Final x x :=
  fun _ h _ => h

theorem final_trans {x y z : Option InviteRow} (h₁ : Final x y) (h₂ : Final y z) : Final x z :=
  fun r hx hr => h₂ r (h₁ r hx hr) hr

/-- `accepted_at` is set exactly when the invitation is accepted. -/
def Dated (x : Option InviteRow) : Prop :=
  ∀ r, x = some r → (r.acceptedAt.isSome = true ↔ r.status = .accepted)

/-- Statements that delete no invitation. -/
def Lasting : Sql → Prop
  | .purgeUnverifiedSignups _ | .deleteEmptyOrganizations => False
  | _ => True

/-- Statements that date what they accept and create nothing accepted. -/
def Dates : Sql → Prop
  | .createOrganizationInvite _ _ _ _ _ status _ _ => status ≠ .accepted
  | .acceptOrganizationInvite _ _ acceptedAt => acceptedAt.isSome = true
  | _ => True

/-- What a pending invitation is unique by. -/
def pendingValue (env : Env) (r : InviteRow) : Option (Uuid × String) :=
  if r.status = .pending then some (r.orgID, env.sqlLower r.email) else none

section Statements

variable {env : Env} {now : Time} {pick : Nat} {db : DB} {s : Sql} {v : s.Val} {ws : List Write}

/-- Both conditional updates pass over what is not pending. -/
theorem find?_update_final {t : Table InviteRow} {p : InviteRow → Bool} {f : InviteRow → InviteRow}
    (hf : ∀ r, Keyed.key (f r) = Keyed.key r)
    (hp : ∀ r, p r = true → r.status = .pending) (id : Uuid) :
    Final (t.find? id) ((t.update p f).find? id) := by
  intro r hr hstatus
  obtain ⟨hmem, hkey⟩ := find?_eq_some.mp hr
  have hpass : p r = false := by
    by_contra hmatch
    exact hstatus (hp r (by simpa using hmatch))
  exact find?_eq_some.mpr ⟨(mem_update hf).mpr (.inr ⟨hmem, hpass⟩), hkey⟩

theorem pending_of_pendingFor {org : Uuid} {email : String} (r : InviteRow)
    (h : r.pendingFor env org email = true) : r.status = .pending := by
  simp only [InviteRow.pendingFor, Bool.and_eq_true, decide_eq_true_eq] at h
  exact h.2

theorem pending_of_stillPending {id org : Uuid} (r : InviteRow) (h : r.stillPending id org = true) :
    r.status = .pending := by
  simp only [InviteRow.stillPending, Bool.and_eq_true, decide_eq_true_eq] at h
  exact h.2

theorem eval_final (hs : Lasting s) (h : s.eval env now pick db = .ok (v, ws)) (id : Uuid) :
    Final (db.invites.find? id) ((db.applyAll ws).invites.find? id) := by
  have hchange := eval_invites h
  generalize (db.applyAll ws).invites = t at hchange ⊢
  cases hchange with
  | same => exact final_refl _
  | superseded org email => exact find?_update_final key_inviteRevoked pending_of_pendingFor id
  | inserted r _ _ hfree _ _ _ =>
      intro r' hr' _
      obtain ⟨hmem, hkey⟩ := find?_eq_some.mp hr'
      have hne : r.id ≠ id := fun heq => (hfree r' hmem).1 (hkey.trans heq.symm)
      rw [find?_put, key_invite, if_neg hne]
      exact hr'
  | revoked id org => exact find?_update_final key_inviteRevoked pending_of_stillPending _
  | accepted id org acceptedAt =>
      exact find?_update_final (key_inviteAccepted acceptedAt) pending_of_stillPending _
  | purged => exact hs.elim
  | deserted => exact hs.elim

/-- An update that dates as it should. -/
theorem dated_update {t : Table InviteRow} {p : InviteRow → Bool}
    {f : InviteRow → InviteRow} {id : Uuid} (hf : ∀ r, Keyed.key (f r) = Keyed.key r)
    (hdate : ∀ r, p r = true → (r.acceptedAt.isSome = true ↔ r.status = .accepted) →
      ((f r).acceptedAt.isSome = true ↔ (f r).status = .accepted))
    (h : Dated (t.find? id)) : Dated ((t.update p f).find? id) := by
  intro r hr
  obtain ⟨hmem, hkey⟩ := find?_eq_some.mp hr
  rcases (mem_update hf).mp hmem with ⟨r', hr', hmatch, rfl⟩ | ⟨hold, _⟩
  · have hfind : t.find? id = some r' := find?_eq_some.mpr ⟨hr', (hf r').symm.trans hkey⟩
    exact hdate r' hmatch (h r' hfind)
  · exact h r (find?_eq_some.mpr ⟨hold, hkey⟩)

theorem dated_delete {t : Table InviteRow} {p : InviteRow → Bool} {id : Uuid}
    (h : Dated (t.find? id)) :
    Dated ((t.delete p).find? id) := by
  intro r hr
  obtain ⟨hmem, hkey⟩ := find?_eq_some.mp hr
  exact h r (find?_eq_some.mpr ⟨(mem_delete.mp hmem).1, hkey⟩)

/-- A pending invitation has no date, so revoking it leaves none. -/
theorem dated_revoked {r : InviteRow} (hpending : r.status = .pending)
    (h : r.acceptedAt.isSome = true ↔ r.status = .accepted) :
    r.revoked.acceptedAt.isSome = true ↔ r.revoked.status = .accepted := by
  have hnone : ¬ r.acceptedAt.isSome = true := by
    rw [h, hpending]
    decide
  exact ⟨fun hsome => absurd hsome hnone, fun heq => by cases heq⟩

theorem eval_dated (hs : Dates s) (h : s.eval env now pick db = .ok (v, ws)) (id : Uuid)
    (hdated : Dated (db.invites.find? id)) : Dated ((db.applyAll ws).invites.find? id) := by
  have hchange := eval_invites h
  generalize (db.applyAll ws).invites = t at hchange ⊢
  cases hchange with
  | same => exact hdated
  | superseded org email =>
      exact dated_update key_inviteRevoked
        (fun r hr => dated_revoked (pending_of_pendingFor r hr)) hdated
  | inserted r _ _ _ hnew _ _ =>
      intro r' hr'
      rw [find?_put] at hr'
      split at hr'
      · obtain rfl := Option.some.inj hr'
        rw [hnew]
        exact ⟨fun hsome => absurd hsome (by simp), fun heq => absurd heq hs⟩
      · exact hdated r' hr'
  | revoked id org =>
      exact dated_update key_inviteRevoked
        (fun r hr => dated_revoked (pending_of_stillPending r hr)) hdated
  | accepted id org acceptedAt =>
      exact dated_update (key_inviteAccepted acceptedAt)
        (fun _ _ _ => ⟨fun _ => rfl, fun _ => hs⟩) hdated
  | purged => exact dated_delete hdated
  | deserted => exact dated_delete hdated

/-- Every statement keeps the pending invitations unique. -/
theorem eval_pendingUnique (h : s.eval env now pick db = .ok (v, ws))
    (hdb : db.invites.Unique (pendingValue env)) :
    (db.applyAll ws).invites.Unique (pendingValue env) := by
  have hnull : ∀ {r : InviteRow} {x : Uuid × String}, r.status ≠ .pending →
      pendingValue env r ≠ some x := by
    intro r x hr
    simp [pendingValue, hr]
  have hchange := eval_invites h
  generalize (db.applyAll ws).invites = t at hchange ⊢
  cases hchange with
  | same => exact hdb
  | superseded org email =>
      exact unique_update hdb key_inviteRevoked fun _ _ hx => absurd hx
        (hnull (by simp [InviteRow.revoked]))
  | inserted r _ _ hfree _ _ _ =>
      refine unique_put hdb fun s hs _ x hx hsx => ?_
      simp only [pendingValue] at hx hsx
      split at hx
      · rename_i hpending
        split at hsx
        · rename_i hspending
          -- another pending row with this value would have been a conflict
          obtain ⟨horg, hemail⟩ :=
            Prod.mk.inj ((Option.some.inj hsx).trans (Option.some.inj hx).symm)
          have hconflict := (hfree s hs).2.2 hpending
          simp [InviteRow.pendingFor, horg, hemail, hspending] at hconflict
        · cases hsx
      · cases hx
  | revoked id org =>
      exact unique_update hdb key_inviteRevoked fun _ _ hx => absurd hx
        (hnull (by simp [InviteRow.revoked]))
  | accepted id org acceptedAt =>
      exact unique_update hdb (key_inviteAccepted acceptedAt) fun _ _ hx =>
        absurd hx (hnull (by simp [InviteRow.accepted]))
  | purged => exact unique_delete hdb
  | deserted => exact unique_delete hdb

end Statements

/-! ## Rows over a run -/

/-- The store calls that delete no invitation: all but the purge. -/
def Retains : Store.Op → Prop
  | .purgeUnverifiedSignups _ => False
  | _ => True

theorem uses_lasting {o : Store.Op} (ho : Retains o) (now : Time) (id : Uuid) :
    (o.body now id).Uses Lasting := by
  refine uses_mono (fun s hs => ?_) (Store.body_invites now id o)
  cases s with
  | purgeUnverifiedSignups => cases hs (by simp [Sql.writes]) with | purge => exact ho
  | deleteEmptyOrganizations => cases hs (by simp [Sql.writes]) with | desert => exact ho
  | _ => trivial

/-- The service creates invitations pending and accepts them at an instant its clock has shown. -/
theorem uses_dates {cfg : Config} {call : Call} {o : Store.Op}
    (hasks : Asks cfg call o) (now : Time) (id : Uuid) : (o.body now id).Uses Dates := by
  refine uses_mono (fun s hs => ?_) (Store.body_invites now id o)
  cases s with
  | createOrganizationInvite =>
      cases hs (by simp [Sql.writes]) with
      | create invite =>
          have hpending : invite.status = .pending := hasks
          simp [Dates, hpending]
  | acceptOrganizationInvite =>
      cases hs (by simp [Sql.writes]) with
      | accept => exact Store.timestamptz_isSome hasks
      | signup => exact Store.timestamptz_isSome hasks.2.1
      | reissue => exact Store.timestamptz_isSome hasks.2.1
  | _ => trivial

/-- The invitation in the committed state after a schedule. -/
def inviteAfter (env : Env) (db : DB) (calls : List StoreCall) (id : Uuid) (sched : StoreSchedule) :
    Option InviteRow :=
  (runAll env (beginAll db calls) sched).committed.invites.find? id

section Rows

variable {env : Env} {calls : List StoreCall} {R : Option InviteRow → Option InviteRow → Prop}
  {allowed : Sql → Prop}

/-- `R` relates the row before and after every statement that is allowed. -/
def Respects (env : Env) (allowed : Sql → Prop) (R : Option InviteRow → Option InviteRow → Prop) :
    Prop :=
  ∀ (s : Sql) now pick db v ws, allowed s → s.eval env now pick db = .ok (v, ws) →
    ∀ id, R (db.invites.find? id) ((db.applyAll ws).invites.find? id)

theorem respects_final : Respects env Lasting Final :=
  fun _ _ _ _ _ _ hs h id => eval_final hs h id

theorem respects_dated : Respects env Dates fun x y => Dated x → Dated y :=
  fun _ _ _ _ _ _ hs h id => eval_dated hs h id

theorem engine_respects (hrefl : ∀ x, R x x) (hR : Respects env allowed R) {s : Sql}
    (hs : allowed s) (c : Tick) (db : DB) (k : LockKey) :
    R ((inviteRows env).part k db)
      ((inviteRows env).part k ((engine env).applyAll db ((engine env).eval s c db).2)) := by
  cases k with
  | invite id =>
      refine engine_rel (R := fun db db' => R (db.invites.find? id) (db'.invites.find? id))
        (fun _ => hrefl _) c db fun v ws h => ?_
      exact hR s c.now c.pick db v ws hs h id
  | _ => exact hrefl _

/-- What every statement does to an invitation, a run does. -/
theorem rows_move (hrefl : ∀ x, R x x) (htrans : ∀ x y z, R x y → R y z → R x z)
    (hR : Respects env allowed R)
    (huses : ∀ t ∈ calls, (t.op.body t.now t.id).Uses allowed) (db : DB) (id : Uuid)
    (sched more : StoreSchedule) :
    R (inviteAfter env db calls id sched) (inviteAfter env db calls id (sched ++ more)) := by
  refine System.run_moves (owned_inviteRows env) (fun _ _ => trivial) (R := fun _ => R)
    (fun _ => hrefl) (fun _ => htrans) (fun s hs c w k => engine_respects hrefl hR hs c w k) ?_ db
      sched more (.invite id)
  intro p hp
  obtain ⟨t, ht, rfl⟩ := List.mem_map.mp hp
  exact uses_bimap (huses t ht) _ _

end Rows

/-! ## The index over pending invitations -/

section Pending

variable (env : Env)

/-- `CREATE UNIQUE INDEX … (org_id, LOWER(email)) WHERE status = 'pending'`. -/
def pendingIndex : Index (engine env) Uuid (Uuid × String) where
  entry id db := (db.invites.find? id).bind (pendingValue env)
  sets
    | .putInvite r, id => if r.id = id then some (pendingValue env r) else none
    | .delInvite i, id => if i = id then some none else none
    | _, _ => none
  key v := .pendingInvite v.1 v.2
  entry_apply db x id := by
    show ((db.apply x).invites.find? id).bind (pendingValue env) = _
    cases x with
    | putInvite r =>
        simp only [DB.apply, find?_put, key_invite]
        split <;> rfl
    | delInvite i =>
        simp only [DB.apply, find?_erase]
        split <;> rfl
    | _ => rfl
  locked s c db x hx id v hv := by
    cases heval : s.eval env c.now c.pick db with
    | error e =>
        rw [(engine_error heval).1] at hx
        cases hx
    | ok out =>
        rw [(engine_ok heval).1] at hx
        rw [(engine_ok heval).2]
        refine List.mem_append_right _ (List.mem_flatMap.mpr ⟨x, hx, ?_⟩)
        cases x with
        | putInvite r =>
            -- the value is set, so the row is pending and its value is locked
            simp only [pendingValue] at hv
            split at hv
            · split at hv
              · rename_i hpending
                obtain rfl := Option.some.inj (Option.some.inj hv)
                simp [Write.locks, hpending]
              · cases Option.some.inj hv
            · cases hv
        | delInvite i =>
            simp only at hv
            split at hv
            · cases Option.some.inj hv
            · cases hv
        | _ => cases hv

/-- At most one invitation is pending for an organization and a lower-cased address. -/
def PendingUnique (db : DB) : Prop :=
  db.invites.Unique (pendingValue env)

variable {env}

theorem unique_iff {db : DB} : (pendingIndex env).Unique db ↔ PendingUnique env db := by
  constructor
  · intro h r hr s hs v hrv hsv
    have hkey : r.id = s.id := by
      refine h r.id s.id v ?_ ?_
      · exact (congrArg (Option.bind · (pendingValue env)) (find?_of_mem hr)).trans hrv
      · exact (congrArg (Option.bind · (pendingValue env)) (find?_of_mem hs)).trans hsv
    exact eq_of_key hr hs hkey
  · intro h i j v hi hj
    obtain ⟨r, hr, hrv⟩ := Option.bind_eq_some_iff.mp hi
    obtain ⟨s, hs, hsv⟩ := Option.bind_eq_some_iff.mp hj
    obtain ⟨hrmem, hrkey⟩ := find?_eq_some.mp hr
    obtain ⟨hsmem, hskey⟩ := find?_eq_some.mp hs
    have hrow : r = s := h r hrmem s hsmem v hrv hsv
    exact hrkey.symm.trans ((congrArg Keyed.key hrow).trans hskey)

theorem run_pendingUnique {db : DB} (hdb : PendingUnique env db) (calls : List StoreCall)
    (sched : StoreSchedule) :
    PendingUnique env (runAll env (beginAll db calls) sched).committed := by
  refine unique_iff.mp (System.run_unique (D := pendingIndex env) ?_ (unique_iff.mpr hdb) _ sched)
  intro s c w hw
  exact engine_rel (R := fun db db' => (pendingIndex env).Unique db → (pendingIndex env).Unique db')
    (fun _ h => h) c w (fun v ws h hu => unique_iff.mpr (eval_pendingUnique h (unique_iff.mp hu)))
      hw

end Pending

/-! ## Who accepts -/

/-- The answers of the three transactions that accept invitation `id`. -/
def Accepts : StoreReply → Uuid → Prop
  | ⟨.acceptInvite inviteID _ _ _, .ok _⟩, id => Uuid.parse inviteID = some id
  | ⟨.createSignupUser _ _ (some invite) _, .ok created⟩, id =>
      created = true ∧ Uuid.parse invite.id = some id
  | ⟨.reissuePendingSignup _ _ (some invite) _, .ok answer⟩, id =>
      answer.2 = true ∧ Uuid.parse invite.id = some id
  | _, _ => False

def Accepted (x : Option InviteRow) : Prop :=
  ∃ r, x = some r ∧ r.status = .accepted

def Wins (a : StoreReply) (k : LockKey) : Prop :=
  ∃ id, k = .invite id ∧ Accepts a id

theorem accepted_final {x y : Option InviteRow} (h : Final x y) (hx : Accepted x) : Accepted y := by
  obtain ⟨r, hr, hstatus⟩ := hx
  refine ⟨r, h r hr ?_, hstatus⟩
  rw [hstatus]
  decide

section Winners

variable {env : Env} {β : Type} {l : TxState} {id : Uuid} {text : String}

/-- What the transaction has made of the invitations it holds. -/
abbrev Careful (env : Env) (l : TxState) : Prop :=
  (inviteRows env).Moves (fun _ => Final) l

/-- The transaction holds the invitation, which was not accepted and is now. -/
def Took (env : Env) (id : Uuid) (l : TxState) : Prop :=
  .invite id ∈ l.held ∧ ¬ Accepted (l.base.invites.find? id) ∧
    Accepted (((engine env).view l).invites.find? id)

/-- The transaction has accepted the invitation with this identifier. -/
def Won (env : Env) (text : String) (l : TxState) : Prop :=
  Careful env l ∧ ∃ id, Uuid.parse text = some id ∧ Took env id l

theorem careful_statement {s : Sql} (hs : Lasting s) {c : Tick} (hok : (inviteRows env).Ok l)
    (hl : Careful env l) : Careful env ((engine env).statement s c l).2 :=
  Partition.moves_statement (fun _ => final_refl) (fun _ _ _ _ => final_trans) hok hl
    (engine_respects final_refl respects_final hs c _)

theorem took_rely {l' : TxState} (h : (inviteRows env).Rely l l') (hl : Took env id l) :
    Took env id l' := by
  obtain ⟨hheld, hfree, htaken⟩ := hl
  have hbase : l'.base.invites.find? id = l.base.invites.find? id := h.part _ hheld
  have hview : ((engine env).view l').invites.find? id = ((engine env).view l).invites.find? id :=
    Partition.part_view h hheld
  refine ⟨by rw [h.held]; exact hheld, ?_, ?_⟩
  · rw [hbase]
    exact hfree
  · rw [hview]
    exact htaken

theorem took_statement {s : Sql} (hs : Lasting s) {c : Tick} (hl : Took env id l) :
    Took env id ((engine env).statement s c l).2 := by
  obtain ⟨hheld, hfree, htaken⟩ := hl
  refine ⟨held_statement hheld, hfree, ?_⟩
  have hrespects : Respects env Lasting Final := respects_final
  have hstep := engine_respects final_refl hrespects hs c ((engine env).view l) (.invite id)
  rw [Engine.statement_view]
  exact accepted_final hstep htaken

theorem keeps_careful {α : Type} {p : Store.Tx β α} (hp : p.Uses Lasting) (hl : Careful env l) :
    (inviteRows env).Keeps p (fun _ l => Careful env l) l :=
  Partition.keeps_moves (owned_inviteRows env) (fun _ => final_refl) (fun _ _ _ _ => final_trans)
    (fun _ hs c w k => engine_respects final_refl respects_final hs c w k) hp hl

/-- Later statements do not undo an acceptance. -/
theorem keeps_won {α : Type} {p : Store.Tx β α} (hp : p.Uses Lasting) (hl : Won env text l) :
    (inviteRows env).Keeps p (fun _ l => Won env text l) l := by
  refine safe_keeps (K := Won env text) ?_ ?_ hp l hl
  · rintro _ l l' hrely ⟨hcareful, id, hid, htook⟩
    exact ⟨Partition.moves_rely hrely hcareful, id, hid, took_rely hrely htook⟩
  · rintro s hs l hok ⟨hcareful, id, hid, htook⟩ c
    exact ⟨Partition.ok_owned (owned_inviteRows env) hok, trivial,
      careful_statement hs hok hcareful, id, hid, took_statement hs htook⟩

/-- The conditional update.  If it affects a row, the transaction saw the invitation pending; nobody
can have accepted it before, because what is accepted is seen accepted. -/
theorem keeps_accept {context : String} {org : Uuid} {acceptedAt : Option Time}
    (hl : Careful env l) :
    (inviteRows env).Keeps (Store.stmt context (.acceptOrganizationInvite id org acceptedAt) :
      Store.Tx β Nat) (fun n l => Careful env l ∧ (n ≠ 0 → Took env id l)) l := by
  refine keeps_stmt fun l' hok hrely c n ws heval => ⟨?_, ?_, ?_⟩
  · exact fun x hx k hk w =>
      owned_inviteRows env (.acceptOrganizationInvite id org acceptedAt) c ((engine env).view l') x
        (by rw [(engine_ok heval).1]; exact hx) k (fun hmem => hk (List.mem_append_right _ hmem)) w
  · have hlasting : Lasting (.acceptOrganizationInvite id org acceptedAt) := trivial
    exact careful_statement hlasting hok (Partition.moves_rely hrely hl)
  · intro hn
    have hout := heval
    simp only [Sql.eval, acceptOrganizationInvite, Except.ok.injEq, Prod.mk.injEq] at hout
    obtain ⟨hcount, hwrites⟩ := hout
    obtain ⟨r, hr⟩ := List.exists_mem_of_length_pos (Nat.pos_of_ne_zero (hcount.symm ▸ hn))
    obtain ⟨hmem, hmatch⟩ := mem_select.mp hr
    have hid : r.id = id := by
      simp only [InviteRow.stillPending, Bool.and_eq_true, decide_eq_true_eq] at hmatch
      exact hmatch.1.1
    have hseen : ((engine env).view l').invites.find? id = some r :=
      find?_eq_some.mpr ⟨hmem, hid⟩
    refine ⟨?_, ?_, ?_⟩
    · -- the row is among those written, hence locked
      refine List.mem_append_right _ ?_
      rw [(engine_ok heval).2, ← hwrites]
      refine List.mem_append_right _
        (List.mem_flatMap.mpr ⟨.putInvite (r.accepted acceptedAt), ?_, ?_⟩)
      · exact List.mem_map_of_mem (List.mem_map.mpr ⟨r, hr, rfl⟩)
      · simp [Write.locks, InviteRow.accepted, hid]
    · intro hbefore
      have hstill : Accepted (((engine env).view l').invites.find? id) :=
        accepted_final (Partition.moves_part (R := fun _ => Final) (fun _ => final_refl) hok.2
          (Partition.moves_rely hrely hl) (.invite id)) hbefore
      obtain ⟨r', hr', hstatus⟩ := hstill
      rw [hseen] at hr'
      obtain rfl := Option.some.inj hr'
      rw [pending_of_stillPending r hmatch] at hstatus
      cases hstatus
    · rw [seen_statement heval, ← hwrites]
      have hrows := DB.invites_update ((engine env).view l') (InviteRow.stillPending id org)
        (InviteRow.accepted acceptedAt)
      refine ⟨r.accepted acceptedAt, ?_, rfl⟩
      refine (congrArg (Table.find? · id) hrows).trans (find?_eq_some.mpr ⟨?_, hid⟩)
      exact (mem_update (key_inviteAccepted acceptedAt)).mpr (.inl ⟨r, hmem, hmatch, rfl⟩)

theorem keeps_consumeInvite {contexts : String × String} {org user : Uuid}
    {orgText userText : String} {acceptedAt occurredAt : Time} (htext : Uuid.parse text = some id)
    (hl : Careful env l) :
    (inviteRows env).Keeps (Store.consumeInvite now contexts id org user orgText userText acceptedAt
      occurredAt : Store.Tx β Unit) (fun _ l => Won env text l) l := by
  refine safe_bind (keeps_accept hl) fun n l hn => ?_
  refine safe_bind (M := fun _ l => Won env text l)
    (keeps_failIf fun hsome => ?_) fun _ l hwon => ?_
  · exact ⟨hn.1, id, htext, hn.2 (by simpa using hsome)⟩
  · refine keeps_won ?_ hwon
    exact uses_bind (Store.uses_stmt trivial) fun _ =>
      Store.uses_emitEvents (fun _ => trivial) _ _

theorem keeps_acceptInvite {inviteID orgID userID : String} {acceptedAt : Time}
    (hl : Careful env l) :
    (inviteRows env).Keeps (Store.acceptInvite now inviteID orgID userID acceptedAt)
      (fun _ l => Won env inviteID l) l := by
  have hids : (inviteRows env).Keeps (Store.inviteIDs orgID inviteID : Store.Tx Unit (Uuid × Uuid))
      (fun ids l => Uuid.parse inviteID = some ids.2 ∧ Careful env l) l := by
    refine safe_bind (keeps_careful (Store.uses_parseID _ _) hl) fun org l hl => ?_
    refine safe_bind (M := fun u l => Uuid.parse inviteID = some u ∧ Careful env l)
      (keeps_parseID fun u hu => ⟨hu, hl⟩) fun u l h => ?_
    exact .done h
  refine safe_bind hids fun ids l h => ?_
  refine safe_bind (keeps_careful (Store.uses_parseID _ _) h.2) fun user l hl => ?_
  refine safe_bind (keeps_careful (Store.uses_stmtOne trivial) hl) fun _ l hl => ?_
  refine safe_bind (keeps_careful (Store.uses_refuseSuspended (fun _ _ => trivial) _ _) hl)
    fun _ l hl => ?_
  exact keeps_consumeInvite h.1 hl

theorem keeps_createSignupUser {user : User} {org : Option Organization} {invite : Invite}
    {acceptedAt : Time} (hl : Careful env l) :
    (inviteRows env).Keeps (Store.createSignupUser now user org (some invite) acceptedAt)
      (fun created l => Careful env l ∧ (created = true → Won env invite.id l)) l := by
  refine safe_bind (keeps_careful (Store.uses_parseID _ _) hl) fun userID l hl => ?_
  refine safe_bind (keeps_careful (Store.uses_stmt trivial) hl) fun n l hl => ?_
  split
  · exact .done ⟨hl, fun heq => by cases heq⟩
  · refine safe_bind (keeps_careful (Store.uses_emitEvents (fun _ => trivial) _ _) hl)
      fun _ l hl => ?_
    have hjoin : (inviteRows env).Keeps (Store.joinInvite now userID user.id acceptedAt
        (Store.orNow now acceptedAt) (some invite)) (fun _ l => Won env invite.id l) l := by
      refine safe_bind (keeps_careful (Store.uses_parseID _ _) hl) fun _ l hl => ?_
      refine safe_bind (M := fun u l => Uuid.parse invite.id = some u ∧ Careful env l)
        (keeps_parseID fun u hu => ⟨hu, hl⟩) fun u l h => ?_
      refine safe_bind (keeps_careful (Store.uses_stmtOne trivial) h.2) fun _ l hl => ?_
      exact keeps_consumeInvite h.1 hl
    refine safe_bind hjoin fun _ l hwon => ?_
    refine safe_bind (keeps_won (Store.uses_ownOrg (fun _ _ => trivial) (fun _ _ _ _ => trivial)
      (fun _ => trivial) org) hwon) fun _ l hwon => ?_
    exact .done ⟨hwon.1, fun _ => hwon⟩

theorem keeps_reissuePendingSignup {user : User} {challenge : Option OTPChallenge}
    {invite : Invite} {acceptedAt : Time} (hl : Careful env l) :
    (inviteRows env).Keeps (Store.reissuePendingSignup now user challenge (some invite) acceptedAt)
      (fun _ l => Won env invite.id l) l := by
  refine safe_bind (keeps_careful (.call trivial fun _ => .done _) hl) fun res l hl => ?_
  cases res with
  | error e => cases e <;> exact .fail
  | ok userID =>
      refine safe_bind (keeps_careful (Store.uses_rotateChallenge (fun _ _ => trivial)
        (fun _ _ _ _ _ => trivial)) hl) fun _ l hl => ?_
      have hactivate :
          (inviteRows env).Keeps (Store.activateByInvite now userID acceptedAt (some invite))
          (fun _ l => Won env invite.id l) l := by
        refine safe_bind (keeps_careful (Store.uses_parseID _ _) hl) fun _ l hl => ?_
        refine safe_bind (keeps_careful (Store.uses_parseID _ _) hl) fun _ l hl => ?_
        refine safe_bind (M := fun u l => Uuid.parse invite.id = some u ∧ Careful env l)
          (keeps_parseID fun u hu => ⟨hu, hl⟩) fun u l h => ?_
        refine safe_bind (keeps_careful (Store.uses_stmt trivial) h.2) fun n l hl => ?_
        split
        · exact .fail
        · refine safe_bind (keeps_careful (Store.uses_stmtOne trivial) hl) fun _ l hl => ?_
          exact keeps_consumeInvite h.1 hl
      exact safe_bind hactivate fun _ l hwon => .done hwon

/-- What a store call knows when it commits. -/
def Ended (env : Env) (a : StoreReply) (l : TxState) : Prop :=
  Careful env l ∧ (inviteRows env).Takes (fun _ => Accepted) Wins a l

theorem ended_of_won {a : StoreReply} (hl : Won env text l)
    (ha : ∀ id, Accepts a id → Uuid.parse text = some id) : Ended env a l := by
  obtain ⟨hcareful, id, hid, htook⟩ := hl
  refine ⟨hcareful, ?_⟩
  rintro k ⟨id', rfl, haccepts⟩
  have hsame : id = id' := Option.some.inj (hid.symm.trans (ha id' haccepts))
  exact hsame ▸ htook

theorem ended_of_careful {a : StoreReply} (hl : Careful env l) (ha : ∀ id, ¬ Accepts a id) :
    Ended env a l := by
  refine ⟨hl, ?_⟩
  rintro k ⟨id, _, haccepts⟩
  exact absurd haccepts (ha id)

theorem transaction_ended {t : StoreCall} (ht : Retains t.op) (hl : Careful env l) :
    (inviteRows env).Keeps (t.op.body t.now t.id) (fun v l => Ended env ⟨t.op, .ok v⟩ l) l := by
  have hplain := keeps_careful (uses_lasting ht t.now t.id) hl
  obtain ⟨now, drawn, o⟩ := t
  cases o with
  | acceptInvite inviteID orgID userID acceptedAt =>
      refine safe_mono (fun _ l hwon => ?_) (keeps_acceptInvite hl)
      exact ended_of_won hwon fun _ ha => ha
  | createSignupUser user org invite acceptedAt =>
      cases invite with
      | none => exact safe_mono (fun _ _ h => ended_of_careful h fun _ => id) hplain
      | some invite =>
          refine safe_mono (fun created l h => ?_) (keeps_createSignupUser hl)
          cases created with
          | true => exact ended_of_won (h.2 rfl) fun _ ha => ha.2
          | false => exact ended_of_careful h.1 fun _ ha => by cases ha.1
  | reissuePendingSignup user challenge invite acceptedAt =>
      cases invite with
      | none => exact safe_mono (fun _ _ h => ended_of_careful h fun _ => id) hplain
      | some invite =>
          refine safe_mono (fun _ l hwon => ?_) (keeps_reissuePendingSignup hl)
          exact ended_of_won hwon fun _ ha => ha.2
  | _ => exact safe_mono (fun _ _ h => ended_of_careful h fun _ => id) hplain

end Winners

/-! ## Interleavings -/

/-- In every interleaving of store calls other than the purge, an invitation is accepted by one
transaction at most, one that is not pending stays as it is, and at most one is pending for an
organization and address; for the calls the service makes, an invitation is dated exactly when it is
accepted. -/
theorem invitations_single_use {env : Env} {db : DB} {calls : List StoreCall}
    (hdb : PendingUnique env db) (hcalls : ∀ t ∈ calls, Retains t.op) (sched more : StoreSchedule) :
    (∀ (i j : Nat) a b id,
      (runAll env (beginAll db calls) sched).sessions[i]? = some (.committed a) →
      (runAll env (beginAll db calls) sched).sessions[j]? = some (.committed b) →
      Accepts a id → Accepts b id → i = j ∧ Accepted (inviteAfter env db calls id sched)) ∧
    (∀ r ∈ (runAll env (beginAll db calls) sched).committed.invites, r.status ≠ .pending →
      r ∈ (runAll env (beginAll db calls) (sched ++ more)).committed.invites) ∧
    PendingUnique env (runAll env (beginAll db calls) sched).committed ∧
    ((∀ t ∈ calls, ∃ cfg call, Asks cfg call t.op) →
      (∀ r ∈ db.invites, r.acceptedAt.isSome = true ↔ r.status = .accepted) →
      ∀ r ∈ (runAll env (beginAll db calls) sched).committed.invites,
        r.acceptedAt.isSome = true ↔ r.status = .accepted) := by
  refine ⟨?_, ?_, run_pendingUnique hdb calls sched, ?_⟩
  · -- accepting takes a row that was not accepted, and nothing is taken twice
    have hawarded : (runAll env (beginAll db calls) sched).Awarded (inviteRows env)
        (fun _ => Accepted) Wins := by
      have hstable : Nat → (inviteRows env).Stable (Ended env) := by
        intro _ a l l' hrely h
        exact ⟨Partition.moves_rely hrely h.1, Partition.stable_takes a l l' hrely h.2⟩
      refine System.run_winner (fun _ _ _ _ _ _ => trivial) hstable ?_ (fun _ => trivial) ?_ sched
      · intro _ a l h
        exact ⟨fun k hk => accepted_final (h.1 k hk), h.2⟩
      · intro i p hp
        rw [List.getElem?_map, Option.map_eq_some_iff] at hp
        obtain ⟨t, ht, rfl⟩ := hp
        refine safe_bimap (transaction_ended (hcalls t (List.mem_of_getElem? ht)) ?_)
        intro k hk
        cases hk
    intro i j a b id hi hj ha hb
    exact ⟨hawarded.once i j a b (.invite id) hi hj ⟨id, rfl, ha⟩ ⟨id, rfl, hb⟩,
      hawarded.taken i a (.invite id) hi ⟨id, rfl, ha⟩⟩
  · -- the rest of the schedule moves a row of an ended invitation nowhere
    intro r hr hstatus
    have hfinal : Final (inviteAfter env db calls r.id sched)
        (inviteAfter env db calls r.id (sched ++ more)) :=
      rows_move final_refl (fun _ _ _ => final_trans) respects_final
        (fun t ht => uses_lasting (hcalls t ht) t.now t.id) db r.id sched more
    exact (find?_eq_some.mp (hfinal r (find?_of_mem hr) hstatus)).1
  · -- the service gives every acceptance its time, so a statement dates what it accepts
    intro hasks hstart r hr
    have huses : ∀ t ∈ calls, (t.op.body t.now t.id).Uses Dates := by
      intro t ht
      obtain ⟨cfg, call, h⟩ := hasks t ht
      exact uses_dates h t.now t.id
    have hdated : Dated (inviteAfter env db calls r.id []) →
        Dated (inviteAfter env db calls r.id sched) :=
      rows_move (R := fun x y => Dated x → Dated y) (fun _ h => h) (fun _ _ _ h₁ h₂ h => h₂ (h₁ h))
        respects_dated huses db r.id [] sched
    refine hdated (fun r' hr' => ?_) r (find?_of_mem hr)
    exact hstart r' (find?_eq_some.mp hr').1

/-- Ann's organization with one open invitation, and two accounts that have its link. -/
def sharedInvite : DB :=
  { DB.empty with
    users := (Table.empty.put ⟨Uuid.ofNat 11, some "bob@x", none, none, none, .active, none,
      1, 1, none⟩).put ⟨Uuid.ofNat 12, some "eve@x", none, none, none, .active, none, 1, 1, none⟩
    orgs := Table.empty.put ⟨Uuid.ofNat 1, "acme", 1, 1⟩
    invites := Table.empty.put
      ⟨Uuid.ofNat 5, Uuid.ofNat 1, "bob@x", "h", Uuid.ofNat 10, .pending, 9000, none, 1⟩ }

/-- Both accept it at once. -/
def race : List StoreCall :=
  [⟨2000, Uuid.ofNat 0, .acceptInvite (Uuid.ofNat 5).string (Uuid.ofNat 1).string
   (Uuid.ofNat 11).string 2000⟩,
   ⟨2000, Uuid.ofNat 0, .acceptInvite (Uuid.ofNat 5).string (Uuid.ofNat 1).string
     (Uuid.ofNat 12).string 2000⟩]

/-- Statement by statement in turn; the second session waits for the first. -/
def inTurn : StoreSchedule :=
  (List.replicate 12 [(0, .advance ⟨2000, 0⟩), (1, .advance ⟨2000, 0⟩)]).flatten

theorem pendingUnique_sharedInvite : PendingUnique toyEnv sharedInvite := by
  have hnone : (Table.empty : Table InviteRow).Unique (pendingValue toyEnv) :=
    fun r hr => by cases hr
  exact unique_put hnone fun s hs => by cases hs

set_option maxRecDepth 10000 in
/-- The invitation is accepted, and one account has joined. -/
theorem invitations_single_use_race :
    (∀ t ∈ race, Retains t.op) ∧ PendingUnique toyEnv sharedInvite ∧
      (runAll toyEnv (beginAll sharedInvite race) inTurn).committed.memberships.rows.length = 1 ∧
      Accepted (inviteAfter toyEnv sharedInvite race (Uuid.ofNat 5) inTurn) ∧
      ∀ r ∈ (runAll toyEnv (beginAll sharedInvite race) inTurn).committed.invites,
        r.acceptedAt.isSome = true ↔ r.status = .accepted := by
  have hcalls : ∀ t ∈ race, Retains t.op ∧ ∃ cfg call, Asks cfg call t.op := by
    intro t ht
    simp only [race, List.mem_cons, List.not_mem_nil, or_false] at ht
    rcases ht with rfl | rfl
    · exact ⟨trivial, toyConfig, .acceptInvite "" "", by simp [Asks]⟩
    · exact ⟨trivial, toyConfig, .acceptInvite "" "", by simp [Asks]⟩
  have hdone :
      (runAll toyEnv (beginAll sharedInvite race) inTurn).committed.memberships.rows.length = 1 ∧
      (inviteAfter toyEnv sharedInvite race (Uuid.ofNat 5) inTurn).map InviteRow.status =
        some .accepted := by
    decide +kernel
  obtain ⟨r, hr, hstatus⟩ := Option.map_eq_some_iff.mp hdone.2
  refine ⟨fun t ht => (hcalls t ht).1, pendingUnique_sharedInvite, hdone.1, ⟨r, hr, hstatus⟩, ?_⟩
  refine (invitations_single_use pendingUnique_sharedInvite (fun t ht => (hcalls t ht).1)
    inTurn []).2.2.2 (fun t ht => (hcalls t ht).2) ?_
  intro r hr
  rcases mem_put.mp hr with rfl | ⟨hold, _⟩
  · decide
  · cases hold

end InviteLifecycle
end Service
end OrbitAuth
