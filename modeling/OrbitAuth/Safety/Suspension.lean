import OrbitAuth.Foundations.Contention
import OrbitAuth.Postgres.Transactions
import OrbitAuth.Service.Requests

/-!
# Suspension — how does a suspension end?

Nine statements of the service write memberships.  Those that insert one leave an existing row alone
or activate it only if it is `invited`, and the service updates a status only to `suspended`.  So a
suspended member stays suspended whatever the others do, until `RemoveMember` or the purge deletes
the membership.

The argument is about rows: a transaction that writes a membership holds its row from then on, so
what its statements keep, its commit keeps (`Foundations.Contention`).

* `eval_stays`, `eval_fades` — what a statement can do to a suspended membership;
* `suspension_sticky` — the same along every interleaving of transactions.
-/

namespace OrbitAuth
namespace Service
namespace Suspension

open Domain Foundations Postgres

/-! ## Statements -/

def Suspended (x : Option MembershipRow) : Prop :=
  ∃ m, x = some m ∧ m.status = .suspended

/-- A suspended membership stays suspended. -/
def Stays (x y : Option MembershipRow) : Prop :=
  Suspended x → Suspended y

/-- A suspended membership stays suspended or goes, and what is gone does not come back. -/
def Fades (x y : Option MembershipRow) : Prop :=
  (Suspended x → y = none ∨ Suspended y) ∧ (x = none → y = none)

theorem stays_trans {x y z : Option MembershipRow} (h₁ : Stays x y) (h₂ : Stays y z) : Stays x z :=
  fun h => h₂ (h₁ h)

theorem fades_refl (x : Option MembershipRow) : Fades x x :=
  ⟨.inr, fun h => h⟩

theorem fades_trans {x y z : Option MembershipRow} (h₁ : Fades x y) (h₂ : Fades y z) :
    Fades x z := by
  refine ⟨fun hx => ?_, fun hx => h₂.2 (h₁.2 hx)⟩
  rcases h₁.1 hx with hy | hy
  · exact .inl (h₂.2 hy)
  · exact h₂.1 hy

/-- Statements that lift no suspension and remove nobody. -/
def Upholds : Sql → Prop
  | .updateOrganizationMembershipStatus status _ _ => status = .suspended
  | .deleteOrganizationMembership _ _ | .purgeUnverifiedSignups _ => False
  | _ => True

/-- Statements that can only remove members. -/
def OnlyRemoves : Sql → Prop
  | .deleteOrganizationMembership _ _ | .purgeUnverifiedSignups _ => True
  | s => TableName.memberships ∉ s.writes

section Statements

variable {env : Env} {now : Time} {pick : Nat} {db : DB} {s : Sql} {v : s.Val} {ws : List Write}

theorem eval_stays (hs : Upholds s) (h : s.eval env now pick db = .ok (v, ws)) (k : Uuid × Uuid) :
    Stays (db.memberships.find? k) ((db.applyAll ws).memberships.find? k) := by
  rintro ⟨m, hm, hstatus⟩
  have hchange := eval_memberships h
  generalize (db.applyAll ws).memberships = t at hchange ⊢
  cases hchange with
  | same => exact ⟨m, hm, hstatus⟩
  | inserted m' _ hfree _ _ =>
      -- the new row has another key
      have hk : (m'.orgID, m'.userID) ≠ k := by
        rintro rfl
        rw [hfree] at hm
        cases hm
      refine ⟨m, ?_, hstatus⟩
      rw [find?_put, key_membership, if_neg hk]
      exact hm
  | activated m' hm' hinvited =>
      have hk : (m'.orgID, m'.userID) ≠ k := by
        rintro rfl
        have hfind : db.memberships.find? (m'.orgID, m'.userID) = some m' := find?_of_mem hm'
        rw [hm] at hfind
        rw [Option.some.inj hfind, hinvited] at hstatus
        cases hstatus
      refine ⟨m, ?_, hstatus⟩
      rw [find?_put]
      exact (if_neg hk).trans hm
  | restatused status m' hm' =>
      rw [find?_put]
      split
      · exact ⟨_, rfl, hs⟩
      · exact ⟨m, hm, hstatus⟩
  | removed => exact hs.elim
  | purged => exact hs.elim

theorem eval_fades (hs : OnlyRemoves s) (h : s.eval env now pick db = .ok (v, ws))
    (k : Uuid × Uuid) :
    Fades (db.memberships.find? k) ((db.applyAll ws).memberships.find? k) := by
  have hchange := eval_memberships h
  generalize (db.applyAll ws).memberships = t at hchange ⊢
  cases hchange with
  | same => exact fades_refl _
  | removed org user =>
      rw [find?_erase]
      split
      · exact ⟨fun _ => .inl rfl, fun _ => rfl⟩
      · exact fades_refl _
  | purged before =>
      -- the row is still there, or was one of those the purge deletes
      cases hfind : (db.memberships.delete fun m => m.userID ∈ purgedIDs db before).find? k with
      | none => exact ⟨fun _ => .inl rfl, fun _ => rfl⟩
      | some m =>
          obtain ⟨hm, hkey⟩ := find?_eq_some.mp hfind
          have hbefore : db.memberships.find? k = some m :=
            find?_eq_some.mpr ⟨(mem_delete.mp hm).1, hkey⟩
          rw [hbefore]
          exact fades_refl _
  | inserted m' hs' =>
      cases s with
      | addOrganizationMembership => exact absurd (by simp [Sql.writes]) hs
      | addActiveOrganizationMembership => exact absurd (by simp [Sql.writes]) hs
      | _ => cases hs'
  | activated => exact absurd (by simp [Sql.writes]) hs
  | restatused => exact absurd (by simp [Sql.writes]) hs

end Statements

/-! ## Store calls -/

/-- The store calls that remove members. -/
def RemovesMembers : Store.Op → Prop
  | .removeMember _ _ | .purgeUnverifiedSignups _ => True
  | _ => False

/-- The store calls of the service lift no suspension. -/
theorem uses_upholds {cfg : Config} {call : Call} {o : Store.Op} (hasks : Asks cfg call o)
    (ho : ¬ RemovesMembers o) (now : Time) (id : Uuid) : (o.body now id).Uses Upholds := by
  refine uses_mono (fun s hs => ?_) (Store.body_memberships now id o)
  by_cases hmem : TableName.memberships ∈ s.writes
  · cases hs hmem with
    | updateMemberStatus => exact hasks
    | removeMember => exact absurd trivial ho
    | purge => exact absurd trivial ho
    | _ => trivial
  · cases s with
    | updateOrganizationMembershipStatus => exact absurd (by simp [Sql.writes]) hmem
    | deleteOrganizationMembership => exact absurd (by simp [Sql.writes]) hmem
    | purgeUnverifiedSignups => exact absurd (by simp [Sql.writes]) hmem
    | _ => trivial

theorem uses_onlyRemoves {o : Store.Op} (ho : RemovesMembers o) (now : Time) (id : Uuid) :
    (o.body now id).Uses OnlyRemoves := by
  refine uses_mono (fun s hs => ?_) (Store.body_memberships now id o)
  by_cases hmem : TableName.memberships ∈ s.writes
  · cases hs hmem with
    | removeMember => trivial
    | purge => trivial
    | _ => exact ho.elim
  · cases s with
    | deleteOrganizationMembership => trivial
    | purgeUnverifiedSignups => trivial
    | _ => exact hmem

/-! ## Interleavings -/

section Runs

variable (env : Env) (calls : List StoreCall)

/-- What session `i` can do to a membership. -/
def Lawful (i : Nat) (x y : Option MembershipRow) : Prop :=
  Stays x y ∨ (∃ t, calls[i]? = some t ∧ RemovesMembers t.op) ∧ Fades x y

variable {env calls}

theorem engine_stays {s : Sql} (hs : Upholds s) (c : Tick) (db : DB) (k : LockKey) :
    Stays ((memberRows env).part k db)
      ((memberRows env).part k ((engine env).applyAll db ((engine env).eval s c db).2)) := by
  cases k with
  | membership org user =>
      refine engine_rel (R := fun db db' => Stays (db.memberships.find? (org, user))
        (db'.memberships.find? (org, user))) (fun _ h => h) c db fun v ws h => ?_
      exact eval_stays hs h (org, user)
  | _ => exact fun h => h

theorem engine_fades {s : Sql} (hs : OnlyRemoves s) (c : Tick) (db : DB) (k : LockKey) :
    Fades ((memberRows env).part k db)
      ((memberRows env).part k ((engine env).applyAll db ((engine env).eval s c db).2)) := by
  cases k with
  | membership org user =>
      refine engine_rel (R := fun db db' => Fades (db.memberships.find? (org, user))
        (db'.memberships.find? (org, user))) (fun _ => fades_refl _) c db fun v ws h => ?_
      exact eval_fades hs h (org, user)
  | _ => exact fades_refl _

/-- A transaction of the service by itself. -/
theorem transaction_lawful {i : Nat} {t : StoreCall} (hi : calls[i]? = some t)
    (hasks : ∃ cfg call, Asks cfg call t.op) (db : DB) :
    (memberRows env).Keeps (t.op.body t.now t.id)
      (fun _ l => (memberRows env).Moves (fun _ => Lawful calls i) l) ⟨db, [], []⟩ := by
  obtain ⟨cfg, call, hasks⟩ := hasks
  have hnone : ∀ {R : Option MembershipRow → Option MembershipRow → Prop},
      (memberRows env).Moves (fun _ => R) ⟨db, [], []⟩ := fun k hk => by cases hk
  by_cases ho : RemovesMembers t.op
  · refine safe_mono ?_ (Partition.keeps_moves (R := fun _ => Fades) (owned_memberRows env)
      (fun _ => fades_refl) (fun _ _ _ _ => fades_trans) (fun s hs c w k => engine_fades hs c w k)
      (uses_onlyRemoves ho t.now t.id) hnone)
    intro _ l hl k hk
    exact .inr ⟨⟨t, hi, ho⟩, hl k hk⟩
  · refine safe_mono ?_ (Partition.keeps_moves (R := fun _ => Stays) (owned_memberRows env)
      (fun _ _ h => h) (fun _ _ _ _ => stays_trans) (fun s hs c w k => engine_stays hs c w k)
      (uses_upholds hasks ho t.now t.id) hnone)
    intro _ l hl k hk
    exact .inl (hl k hk)

/-- The membership in the committed state after a schedule. -/
def rowAfter (env : Env) (db : DB) (calls : List StoreCall) (org user : Uuid)
    (sched : StoreSchedule) :
    Option MembershipRow :=
  (runAll env (beginAll db calls) sched).committed.memberships.find? (org, user)

/-- One move of session `i` in a run of transactions of the service. -/
theorem step_lawful (hcalls : ∀ t ∈ calls, ∃ cfg call, Asks cfg call t.op) (db : DB)
    (org user : Uuid) (sched : StoreSchedule) (i : Nat) (mv : Move Tick) :
    Lawful calls i (rowAfter env db calls org user sched)
      (rowAfter env db calls org user (sched ++ [(i, mv)])) := by
  have hsound := runAll_verified (Q := memberRows env)
    (fun i _ l => (memberRows env).Moves (fun _ => Lawful calls i) l) (fun _ _ _ _ _ _ => trivial)
    (fun _ _ _ _ h => Partition.moves_rely h) (fun _ => trivial)
    (fun j t ht => transaction_lawful ht (hcalls t (List.mem_of_getElem? ht)) db) sched
  have hstep := System.step_moves (R := fun i _ => Lawful calls i) (fun _ _ _ => .inl fun h => h)
    (fun _ _ _ h => h) hsound i mv (.membership org user)
  unfold rowAfter runAll
  rw [System.run_append]
  exact hstep

/-- In every interleaving of transactions of the service, a suspended membership stays suspended
until a `RemoveMember` or a purge commits and deletes it. -/
theorem suspension_sticky (hcalls : ∀ t ∈ calls, ∃ cfg call, Asks cfg call t.op) (db : DB)
    (org user : Uuid) (sched more : StoreSchedule)
    (hsuspended : Suspended (rowAfter env db calls org user sched)) :
    Suspended (rowAfter env db calls org user (sched ++ more)) ∨
      ∃ first i mv rest t, more = first ++ (i, mv) :: rest ∧
        calls[i]? = some t ∧ RemovesMembers t.op ∧
        Suspended (rowAfter env db calls org user (sched ++ first)) ∧
        rowAfter env db calls org user (sched ++ first ++ [(i, mv)]) = none := by
  induction more generalizing sched with
  | nil =>
      rw [List.append_nil]
      exact .inl hsuspended
  | cons move rest ih =>
      obtain ⟨i, mv⟩ := move
      have hassoc : ∀ l, sched ++ [(i, mv)] ++ l = sched ++ (i, mv) :: l := by simp
      -- what happens later, told from here on
      have hlater : Suspended (rowAfter env db calls org user (sched ++ [(i, mv)])) →
          Suspended (rowAfter env db calls org user (sched ++ (i, mv) :: rest)) ∨
            ∃ first j mv' rest' t, (i, mv) :: rest = first ++ (j, mv') :: rest' ∧
              calls[j]? = some t ∧ RemovesMembers t.op ∧
              Suspended (rowAfter env db calls org user (sched ++ first)) ∧
              rowAfter env db calls org user (sched ++ first ++ [(j, mv')]) = none := by
        intro hstill
        rcases ih (sched ++ [(i, mv)]) hstill with hend | ⟨first, j, mv', rest', t, hsplit, hcall,
          ho, hs, hgone⟩
        · rw [hassoc] at hend
          exact .inl hend
        · rw [hassoc] at hs hgone
          exact .inr ⟨(i, mv) :: first, j, mv', rest', t, by rw [hsplit]; rfl, hcall,
            ho, hs, hgone⟩
      rcases step_lawful hcalls db org user sched i mv with hstays | ⟨⟨t, ht, ho⟩, hfades⟩
      · exact hlater (hstays hsuspended)
      · rcases hfades.1 hsuspended with hgone | hstill
        · refine .inr ⟨[], i, mv, rest, t, rfl, ht, ho, ?_, ?_⟩
          · rw [List.append_nil]
            exact hsuspended
          · rw [List.append_nil]
            exact hgone
        · exact hlater hstill

end Runs

/-- Bob is suspended in an organization of Ann's. -/
def suspendedDB : DB :=
  { DB.empty with
    memberships := (Table.empty.put ⟨Uuid.ofNat 1, Uuid.ofNat 10, .active, 1000, 1000⟩).put
      ⟨Uuid.ofNat 1, Uuid.ofNat 11, .suspended, 1000, 1000⟩
    orgs := Table.empty.put ⟨Uuid.ofNat 1, "acme", 1000, 1000⟩ }

/-- Somebody adds Bob again. -/
def addedAgain : List StoreCall :=
  [⟨2000, Uuid.ofNat 0, .addMember (Uuid.ofNat 1).string (Uuid.ofNat 11).string .active⟩]

/-- The transaction commits and changes nothing for Bob. -/
theorem suspension_sticky_added :
    (∀ t ∈ addedAgain, ∃ cfg call, Asks cfg call t.op) ∧
      Suspended (rowAfter toyEnv suspendedDB addedAgain (Uuid.ofNat 1) (Uuid.ofNat 11) []) ∧
      Suspended (rowAfter toyEnv suspendedDB addedAgain (Uuid.ofNat 1) (Uuid.ofNat 11)
        ([] ++ List.replicate 6 (0, .advance ⟨2000, 0⟩))) := by
  have hcalls : ∀ t ∈ addedAgain, ∃ cfg call, Asks cfg call t.op := by
    intro t ht
    obtain rfl := List.mem_singleton.mp ht
    exact ⟨toyConfig, .addMember "" "", rfl⟩
  have hstart :
      Suspended (rowAfter toyEnv suspendedDB addedAgain (Uuid.ofNat 1) (Uuid.ofNat 11) []) :=
    ⟨⟨Uuid.ofNat 1, Uuid.ofNat 11, .suspended, 1000, 1000⟩, by decide, rfl⟩
  refine ⟨hcalls, hstart, ?_⟩
  rcases suspension_sticky hcalls suspendedDB (Uuid.ofNat 1) (Uuid.ofNat 11) [] _ hstart with
    hend | ⟨_, i, _, _, t, _, ht, ho, _⟩
  · exact hend
  · -- nobody removes members here
    obtain rfl := List.mem_singleton.mp (List.mem_of_getElem? ht)
    exact ho.elim

end Suspension
end Service
end OrbitAuth
