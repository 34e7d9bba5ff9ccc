import Mathlib.Logic.Function.Basic
import OrbitAuth.Postgres.Transactions
import OrbitAuth.Service.System

/-!
# Governance — every organization keeps an active member under concurrency

`UpdateMemberStatus` and `RemoveMember` count the active members and write later, in the same
transaction.  What makes the count good is the lock on the organization row: whoever writes a
membership of an organization holds it, or has created the organization and not yet committed.

* `OrgPart` is the part of the database that the lock of an organization protects: its row and its
  memberships; `governance` is the partition of the invariant along these locks;
* `Holds` is what a transaction knows about an organization it has locked;
* `organizations_governed` — in every committed state of every interleaving of the membership
  transactions, every organization has an active member.
-/

namespace OrbitAuth
namespace Postgres
namespace Governance

open Domain Foundations

variable {now : Time} {ws : List Write} {invite : Option Invite} {s : Sql} {acceptedAt : Time}
  {context : String} {v : s.Val}

/-! ## Organizations as parts of the database -/

structure OrgPart where
  org : Option OrgRow
  members : Uuid → Option MembershipRow

variable {R : OrgPart → Prop} {p : OrgPart}

def orgPart (o : Uuid) (db : DB) : OrgPart where
  org := db.orgs.find? o
  members u := db.memberships.find? (o, u)

namespace OrgPart

/-- A row write, seen from organization `o`. -/
def apply (o : Uuid) (p : OrgPart) : Write → OrgPart
  | .putOrg r => if r.id = o then { p with org := some r } else p
  | .delOrg id => if id = o then { p with org := none } else p
  | .putMembership m =>
      if m.orgID = o then { p with members := Function.update p.members m.userID (some m) } else p
  | .delMembership g u =>
      if g = o then { p with members := Function.update p.members u none } else p
  | _ => p

def HasActive (p : OrgPart) : Prop :=
  ∃ u m, p.members u = some m ∧ m.status = .active

/-- An existing organization has an active member, and only an existing one has members. -/
structure Fine (p : OrgPart) : Prop where
  governed : p.org.isSome = true → p.HasActive
  rooted : p.org = none → ∀ u, p.members u = none

end OrgPart

theorem orgPart_apply (o : Uuid) (db : DB) (x : Write) :
    orgPart o (db.apply x) = (orgPart o db).apply o x := by
  cases x with
  | putOrg r =>
      simp only [orgPart, OrgPart.apply, DB.apply, find?_put, key_org]
      split <;> rfl
  | delOrg id =>
      simp only [orgPart, OrgPart.apply, DB.apply, find?_erase]
      split <;> rfl
  -- a membership of another organization is not in the part
  | putMembership m =>
      simp only [orgPart, OrgPart.apply, DB.apply, find?_put, key_membership, Prod.mk.injEq]
      split
      · rename_i ho
        simp only [ho, true_and, OrgPart.mk.injEq]
        funext u
        by_cases hu : m.userID = u
        · simp [hu]
        · simp [hu, Function.update_of_ne (Ne.symm hu)]
      · rename_i ho
        simp [ho]
  | delMembership g v =>
      simp only [orgPart, OrgPart.apply, DB.apply, find?_erase, Prod.mk.injEq]
      split
      · rename_i ho
        simp only [ho, true_and, OrgPart.mk.injEq]
        funext u
        by_cases hu : v = u
        · simp [hu]
        · simp [hu, Function.update_of_ne (Ne.symm hu)]
      · rename_i ho
        simp [ho]
  | _ => rfl

/-- The organization a write is about. -/
def org? : Write → Option Uuid
  | .putOrg r => some r.id
  | .delOrg id => some id
  | .putMembership m => some m.orgID
  | .delMembership g _ => some g
  | _ => none

theorem orgPart_apply_other {o : Uuid} {x : Write} (h : org? x ≠ some o) (db : DB) :
    orgPart o (db.apply x) = orgPart o db := by
  rw [orgPart_apply]
  cases x with
  | putOrg r => exact if_neg fun heq => h (by simp [org?, heq])
  | delOrg id => exact if_neg fun heq => h (by simp [org?, heq])
  | putMembership m => exact if_neg fun heq => h (by simp [org?, heq])
  | delMembership g u => exact if_neg fun heq => h (by simp [org?, heq])
  | _ => rfl

/-- The invariant, cut along the locks of the organizations.  Other locks protect nothing here. -/
def governance (env : Env) : Partition (engine env) OrgPart where
  part
    | .org o, db => orgPart o db
    | _, _ => ⟨none, fun _ => none⟩
  fine
    | .org _, p => p.Fine
    | _, _ => True
  congr k w w' x h := by
    cases k with
    | org o =>
        have hpart : orgPart o w = orgPart o w' := h
        show orgPart o (w.apply x) = orgPart o (w'.apply x)
        rw [orgPart_apply, orgPart_apply, hpart]
    | _ => rfl

/-- Every organization has an active member. -/
def Governed (db : DB) : Prop :=
  ∀ o ∈ db.orgs, ∃ m ∈ db.memberships, m.orgID = o.id ∧ m.status = .active

instance : DecidablePred Governed := fun db =>
  inferInstanceAs (Decidable (∀ o ∈ db.orgs, ∃ m ∈ db.memberships,
    m.orgID = o.id ∧ m.status = .active))

/-- The foreign key from memberships to organizations. -/
def Rooted (db : DB) : Prop :=
  ∀ m ∈ db.memberships, ∃ o ∈ db.orgs, o.id = m.orgID

theorem inv_iff (env : Env) (db : DB) :
    (governance env).Inv db ↔ ∀ o, (orgPart o db).Fine := by
  constructor
  · intro h o
    exact h (.org o)
  · intro h k
    cases k with
    | org o => exact h o
    | _ => exact trivial

theorem fine_of_governed {db : DB} (hg : Governed db) (hr : Rooted db) (o : Uuid) :
    (orgPart o db).Fine := by
  refine ⟨?_, ?_⟩
  · intro hsome
    rcases Option.isSome_iff_exists.1 hsome with ⟨r, hr⟩
    rcases find?_eq_some.1 hr with ⟨hmem, hid⟩
    rcases hg r hmem with ⟨m, hm, horg, hactive⟩
    have hkey : Keyed.key m = (o, m.userID) := by simp [horg, ← hid]
    exact ⟨m.userID, m, find?_eq_some.2 ⟨hm, hkey⟩, hactive⟩
  · intro hnone u
    refine find?_eq_none.2 ?_
    intro m hm hkey
    rcases hr m hm with ⟨r, hrow, hid⟩
    have horg : m.orgID = o := congrArg Prod.fst hkey
    exact find?_eq_none.1 hnone r hrow (hid.trans horg)

theorem governed_of_fine {db : DB} (h : ∀ o, (orgPart o db).Fine) : Governed db := by
  intro r hr
  have hfind : db.orgs.find? r.id = some r := find?_of_mem hr
  have hsome : (orgPart r.id db).org.isSome = true := by simp [orgPart, hfind]
  rcases (h r.id).governed hsome with ⟨u, m, hm, hactive⟩
  rcases find?_eq_some.1 hm with ⟨hmem, hkey⟩
  exact ⟨m, hmem, congrArg Prod.fst hkey, hactive⟩

/-! ## Statements -/

section Statements

variable {env : Env} {now : Time} {pick : Nat} {db : DB} {o u : Uuid}

/-- A statement that writes neither organizations nor memberships. -/
def Quiet (s : Sql) : Prop :=
  TableName.orgs ∉ s.writes ∧ TableName.memberships ∉ s.writes

/-- A statement that can only add a membership of `o` or activate one. -/
inductive Joins (o : Uuid) : Sql → Prop
  | add (u : Uuid) (status : MembershipStatus) : Joins o (.addOrganizationMembership o u status)
  | activate (u : Uuid) : Joins o (.addActiveOrganizationMembership o u)

theorem org?_of_quiet (hs : Quiet s) (h : s.eval env now pick db = .ok (v, ws)) :
    ∀ x ∈ ws, org? x = none := by
  have habout : ∀ x ∈ ws, x.table ∈ s.writes := by
    have := eval_about env now pick db s
    rwa [h] at this
  intro x hx
  have htable := habout x hx
  cases x with
  | putOrg | delOrg => exact absurd htable hs.1
  | putMembership | delMembership => exact absurd htable hs.2
  | _ => rfl

/-- A quiet statement needs no lock of an organization. -/
theorem unlocked_of_quiet (hs : Quiet s) (h : s.eval env now pick db = .ok (v, ws))
    (ks : List LockKey) : ∀ x ∈ ws, ∀ o, org? x = some o → .org o ∈ ks := by
  intro x hx o hsome
  rw [org?_of_quiet hs h x hx] at hsome
  cases hsome

theorem orgPart_applyAll_other (h : ∀ x ∈ ws, org? x ≠ some o) (db : DB) :
    orgPart o (db.applyAll ws) = orgPart o db := by
  induction ws generalizing db with
  | nil => rfl
  | cons x ws ih =>
      have hrest : ∀ y ∈ ws, org? y ≠ some o := fun y hy => h y (List.mem_cons_of_mem _ hy)
      calc
        orgPart o (db.applyAll (x :: ws)) = orgPart o (db.apply x) := ih hrest _
        _ = orgPart o db := orgPart_apply_other (h x (by simp)) db

/-- Putting a membership into an existing organization: it stays fine if the new row is active or
somebody else is. -/
theorem fine_put {m : MembershipRow} (hm : m.orgID = o) (horg : p.org.isSome = true)
    (hactive : m.status = .active ∨
      ∃ u' m', u' ≠ m.userID ∧ p.members u' = some m' ∧ m'.status = .active) :
    (p.apply o (.putMembership m)).Fine := by
  have happly : p.apply o (.putMembership m) =
      { p with members := Function.update p.members m.userID (some m) } := if_pos hm
  rw [happly]
  refine ⟨?_, ?_⟩
  · intro _
    rcases hactive with hactive | ⟨u', m', hne, hm', hactive⟩
    · exact ⟨m.userID, m, by simp, hactive⟩
    · exact ⟨u', m', by simp [Function.update_of_ne hne, hm'], hactive⟩
  · intro hnone
    rw [show p.org = none from hnone] at horg
    cases horg

theorem fine_del (horg : p.org.isSome = true)
    (hactive : ∃ u' m', u' ≠ u ∧ p.members u' = some m' ∧ m'.status = .active) :
    (p.apply o (.delMembership o u)).Fine := by
  have happly : p.apply o (.delMembership o u) =
      { p with members := Function.update p.members u none } := if_pos rfl
  rw [happly]
  refine ⟨?_, ?_⟩
  · intro _
    rcases hactive with ⟨u', m', hne, hm', hactive⟩
    exact ⟨u', m', by simp [Function.update_of_ne hne, hm'], hactive⟩
  · intro hnone
    rw [show p.org = none from hnone] at horg
    cases horg

/-- A member of a fine organization has an organization. -/
theorem org_of_member (hp : p.Fine) {m : MembershipRow} (hm : p.members u = some m) :
    p.org.isSome = true := by
  cases horg : p.org with
  | some r => rfl
  | none =>
      rw [hp.rooted horg u] at hm
      cases hm

/-- Putting a row whose predecessor is missing or not active. -/
theorem fine_put_inactive (hp : p.Fine) {m : MembershipRow} (hm : m.orgID = o)
    (horg : p.org.isSome = true) (hold : ∀ m', p.members m.userID = some m' → m'.status ≠ .active) :
    (p.apply o (.putMembership m)).Fine := by
  refine fine_put hm horg (.inr ?_)
  rcases hp.governed horg with ⟨u', m', hm', hactive⟩
  refine ⟨u', m', ?_, hm', hactive⟩
  rintro rfl
  exact hold m' hm' hactive

theorem org_of_refs (h : membershipRefs db o u = true) : (orgPart o db).org.isSome = true := by
  have horg : db.orgs.any (fun r => r.id = o) = true := (Bool.and_eq_true_iff.1 h).1
  rcases any_eq_true.1 horg with ⟨r, hr, hid⟩
  have hfind : db.orgs.find? o = some r := find?_eq_some.2 ⟨hr, by simpa using hid⟩
  simp [orgPart, hfind]

/-- What a joining statement writes: nothing, or one membership of `o` that leaves `o` fine. -/
theorem joins_writes (hs : Joins o s) (h : s.eval env now pick db = .ok (v, ws))
    (hfine : (orgPart o db).Fine) :
    ws = [] ∨ ∃ m, m.orgID = o ∧ ws = [.putMembership m] ∧
      ((orgPart o db).apply o (.putMembership m)).Fine := by
  cases hs with
  | add u status =>
      simp only [Sql.eval, addOrganizationMembership] at h
      split at h
      · exact .inl (ok_writes h)
      -- there was no row, so no active member is replaced
      · rename_i hnone
        split at h
        · rename_i hrefs
          refine .inr ⟨_, rfl, ok_writes h, ?_⟩
          refine fine_put_inactive hfine rfl (org_of_refs hrefs) ?_
          intro m' hm'
          have hm'' : db.memberships.find? (o, u) = some m' := hm'
          rw [hnone] at hm''
          cases hm''
        · cases h
  | activate u =>
      simp only [Sql.eval, addActiveOrganizationMembership] at h
      split at h
      · rename_i m hfind
        have hkey : (m.orgID, m.userID) = (o, u) := (find?_eq_some.1 hfind).2
        rcases Prod.mk.inj hkey with ⟨horg, huser⟩
        -- an invited member becomes active, any other row stays
        split at h
        · refine .inr ⟨{ m with status := .active, updatedAt := now }, horg, ok_writes h, ?_⟩
          exact fine_put horg (org_of_member hfine (u := u) hfind) (.inl rfl)
        · exact .inl (ok_writes h)
      · split at h
        · rename_i hrefs
          refine .inr ⟨_, rfl, ok_writes h, ?_⟩
          exact fine_put rfl (org_of_refs hrefs) (.inl rfl)
        · cases h

/-- More than one active member: somebody besides `u` is active. -/
theorem another_active
    (h : 1 < (db.memberships.select fun m => m.orgID = o && m.status = .active).length) (u : Uuid) :
    ∃ u' m', u' ≠ u ∧ (orgPart o db).members u' = some m' ∧ m'.status = .active := by
  have hnodup : (db.memberships.select fun m => m.orgID = o && m.status = .active).Nodup :=
    List.Nodup.filter _ db.memberships.nodup_rows
  have hmem : ∀ m ∈ db.memberships.select fun m => m.orgID = o && m.status = .active,
      m ∈ db.memberships ∧ m.orgID = o ∧ m.status = .active := by
    intro m hm
    simpa using mem_select.1 hm
  generalize db.memberships.select (fun m => m.orgID = o && m.status = .active) = rows at *
  rcases rows with _ | ⟨a, _ | ⟨b, rest⟩⟩
  · simp at h
  · simp at h
  -- of two different rows of one organization, one belongs to somebody else
  · have hab : a ≠ b := by
      intro heq
      simp [heq] at hnodup
    rcases hmem a (by simp) with ⟨ha, haorg, hactive⟩
    rcases hmem b (by simp) with ⟨hb, hborg, hbctive⟩
    by_cases hau : a.userID = u
    · have hbu : b.userID ≠ u := by
        intro hbu
        exact hab (eq_of_key ha hb (by simp [haorg, hborg, hau, hbu]))
      exact ⟨b.userID, b, hbu, find?_eq_some.2 ⟨hb, by simp [hborg]⟩, hbctive⟩
    · exact ⟨a.userID, a, hau, find?_eq_some.2 ⟨ha, by simp [haorg]⟩, hactive⟩

end Statements

/-! ## Transactions -/

section Transactions

variable {env : Env} {o u : Uuid} {α β : Type}

abbrev State := Local DB Write LockKey

variable {l : State}

abbrev Keeps (env : Env) (p : Store.Tx β α) (post : α → State → Prop) (l : State) : Prop :=
  (governance env).Keeps p post l

abbrev Ready (env : Env) (l : State) : Prop :=
  (governance env).Ready l

/-- The transaction holds the lock of `o`, sees `R` there, and could commit. -/
structure Holds (env : Env) (o : Uuid) (R : OrgPart → Prop) (l : State) : Prop where
  ready : Ready env l
  held : .org o ∈ l.held
  sees : R (orgPart o ((engine env).view l))

theorem orgPart_rely {l l' : State} (h : (governance env).Rely l l') (hheld : .org o ∈ l.held) :
    orgPart o ((engine env).view l') = orgPart o ((engine env).view l) :=
  Partition.part_view h hheld

theorem holds_rely {l l' : State} (h : (governance env).Rely l l') (hl : Holds env o R l) :
    Holds env o R l' := by
  refine ⟨Partition.ready_rely h hl.ready, ?_, ?_⟩
  · rw [h.held]
    exact hl.held
  · rw [orgPart_rely h hl.held]
    exact hl.sees

theorem fine_seen (hok : (governance env).Ok l) (hready : Ready env l) (o : Uuid) :
    (orgPart o ((engine env).view l)).Fine :=
  (inv_iff env _).1 (Partition.inv_view hok hready) o

/-- Writes about organizations whose lock is held are covered. -/
theorem covered_of_org {ks : List LockKey} (h : ∀ x ∈ ws, ∀ o, org? x = some o → .org o ∈ ks) :
    (governance env).Covered ws ks := by
  intro x hx k hk db
  cases k with
  | org o => exact orgPart_apply_other (fun heq => hk (h x hx o heq)) db
  | _ => rfl

/-- One statement, whose writes are about locked organizations. -/
theorem safe_query {k : Except SqlError s.Val → Store.Tx β α} {post : α → State → Prop}
    (hok : ∀ l', (governance env).Ok l' → (governance env).Rely l l' → ∀ c v ws,
      s.eval env c.now c.pick ((engine env).view l') = .ok (v, ws) →
      (∀ x ∈ ws, ∀ o, org? x = some o → .org o ∈ l'.held ++
        (engine env).locks s c ((engine env).view l')) ∧
      Keeps env (k (.ok v)) post ((engine env).statement s c l').2)
    (herr : ∀ l', (governance env).Ok l' → (governance env).Rely l l' → ∀ e,
      Keeps env (k (.error e)) post l') : Keeps env (.call s k) post l := by
  refine keeps_query ?_ herr
  intro l' hinv hrely c v ws heval
  have hstep := hok l' hinv hrely c v ws heval
  exact ⟨covered_of_org hstep.1, hstep.2⟩

theorem safe_stmt {post : s.Val → State → Prop}
    (hok : ∀ l', (governance env).Ok l' → (governance env).Rely l l' → ∀ c v ws,
      s.eval env c.now c.pick ((engine env).view l') = .ok (v, ws) →
      (∀ x ∈ ws, ∀ o, org? x = some o → .org o ∈ l'.held ++
        (engine env).locks s c ((engine env).view l')) ∧
      post v ((engine env).statement s c l').2) :
    Keeps env (Store.stmt context s : Store.Tx β s.Val) post l := by
  refine keeps_stmt ?_
  intro l' hinv hrely c v ws heval
  have hstep := hok l' hinv hrely c v ws heval
  exact ⟨covered_of_org hstep.1, hstep.2⟩

theorem orgPart_quiet (hs : Quiet s) {c : Tick}
    (heval : s.eval env c.now c.pick ((engine env).view l) = .ok (v, ws)) (o : Uuid) :
    orgPart o ((engine env).view ((engine env).statement s c l).2) =
      orgPart o ((engine env).view l) := by
  rw [seen_statement heval]
  refine orgPart_applyAll_other ?_ _
  intro x hx hsome
  rw [org?_of_quiet hs heval x hx] at hsome
  cases hsome

/-- Quiet statements, and joining ones under the lock, keep a transaction ready to commit. -/
theorem step_ready (hok : (governance env).Ok l) (hready : Ready env l)
    (hs : Quiet s ∨ ∃ o, Joins o s ∧ .org o ∈ l.held) (c : Tick) :
    (governance env).Ok ((engine env).statement s c l).2 ∧
      Ready env ((engine env).statement s c l).2 := by
  cases heval : s.eval env c.now c.pick ((engine env).view l) with
  | error e =>
      rw [statement_error heval]
      exact ⟨hok, hready⟩
  | ok out =>
      rcases out with ⟨v, ws⟩
      have hfine := fine_seen hok hready
      rcases hs with hquiet | ⟨o, hjoins, hheld⟩
      · refine ⟨Partition.ok_statement hok ?_, Partition.ready_of_inv ((inv_iff env _).2 ?_)⟩
        · rw [(engine_ok heval).1]
          exact covered_of_org (unlocked_of_quiet hquiet heval _)
        · intro o
          rw [orgPart_quiet hquiet heval]
          exact hfine o
      -- a joining statement writes at most one row, and that of the locked organization
      · have hwrites := joins_writes hjoins heval (hfine o)
        have horg : ∀ x ∈ ws, org? x = some o := by
          rcases hwrites with rfl | ⟨m, hm, rfl, _⟩
          · intro x hx
            cases hx
          · intro x hx
            rw [List.mem_singleton.1 hx, ← hm]
            rfl
        refine ⟨Partition.ok_statement hok ?_, Partition.ready_of_inv ((inv_iff env _).2 ?_)⟩
        · rw [(engine_ok heval).1]
          refine covered_of_org ?_
          intro x hx o' hsome
          have heq : o = o' := Option.some.inj ((horg x hx).symm.trans hsome)
          exact heq ▸ List.mem_append_left _ hheld
        · intro o'
          rw [seen_statement heval]
          by_cases heq : o' = o
          · subst heq
            rcases hwrites with rfl | ⟨m, _, rfl, hput⟩
            · exact hfine o'
            · rw [DB.applyAll_cons, DB.applyAll_nil, orgPart_apply]
              exact hput
          · rw [orgPart_applyAll_other]
            · exact hfine o'
            · intro x hx hsome
              exact heq (Option.some.inj (hsome.symm.trans (horg x hx)))

theorem keeps_quiet {p : Store.Tx β α} (hp : p.Uses Quiet) (hl : Ready env l) :
    Keeps env p (fun _ l => Ready env l) l := by
  refine safe_keeps (K := Ready env) ?_ ?_ hp l hl
  · intro _ l l' hrely
    exact Partition.ready_rely hrely
  · intro s hs l hok hready c
    have hstep := step_ready hok hready (.inl hs) c
    exact ⟨hstep.1, trivial, hstep.2⟩

/-- Joining `o` under its lock. -/
theorem keeps_joining {p : Store.Tx β α} (hp : p.Uses fun s => Quiet s ∨ Joins o s)
    (hready : Ready env l) (hheld : .org o ∈ l.held) : Keeps env p (fun _ l => Ready env l) l := by
  refine safe_mono (fun _ _ h => h.1)
    (safe_keeps (K := fun l => Ready env l ∧ .org o ∈ l.held) ?_ ?_ hp l ⟨hready, hheld⟩)
  · intro _ l l' hrely hl
    exact ⟨Partition.ready_rely hrely hl.1, by rw [hrely.held]; exact hl.2⟩
  · intro s hs l hok hl c
    have hs' : Quiet s ∨ ∃ o, Joins o s ∧ .org o ∈ l.held := by
      rcases hs with hs | hs
      · exact .inl hs
      · exact .inr ⟨o, hs, hl.2⟩
    have hstep := step_ready hok hl.1 hs' c
    exact ⟨hstep.1, trivial, hstep.2, held_statement hl.2⟩

/-- Quiet statements leave what is seen of a locked organization alone. -/
theorem keeps_holding {p : Store.Tx β α} (hp : p.Uses Quiet) (hl : Holds env o R l) :
    Keeps env p (fun _ l => Holds env o R l) l := by
  refine safe_keeps (K := Holds env o R) ?_ ?_ hp l hl
  · intro _ l l' hrely
    exact holds_rely hrely
  · intro s hs l hok hl c
    have hstep := step_ready hok hl.ready (.inl hs) c
    refine ⟨hstep.1, trivial, hstep.2, held_statement hl.held, ?_⟩
    cases heval : s.eval env c.now c.pick ((engine env).view l) with
    | ok out =>
        rw [orgPart_quiet hs heval]
        exact hl.sees
    | error e =>
        rw [statement_error heval]
        exact hl.sees

/-! ### The lock -/

theorem keeps_lock (hl : Ready env l) :
    Keeps env (Store.lockOrganization o : Store.Tx β Unit)
      (fun _ l => Ready env l ∧ .org o ∈ l.held) l := by
  have hquiet : Quiet (.lockOrganization o) := by simp [Quiet, Sql.writes]
  refine safe_query ?_ ?_
  · intro l' hok hrely c v ws heval
    have hstep := step_ready hok (Partition.ready_rely hrely hl) (.inl hquiet) c
    refine ⟨?_, .done ⟨hstep.2, ?_⟩⟩
    · exact unlocked_of_quiet hquiet heval _
    · refine List.mem_append_right _ ?_
      rw [(engine_ok heval).2]
      simp [Sql.forUpdate]
  · intro l' _ _ e
    cases e <;> exact .fail

/-! ### Demotion and removal -/

/-- What the lookup of a membership tells about it. -/
theorem keeps_getMembershipRow (hready : Ready env l) (hheld : .org o ∈ l.held) :
    Keeps env (Store.getMembershipRow o u : Store.Tx β (Option Membership))
      (fun found l => ∀ current, found = some current →
        Holds env o (fun p => ∃ m, p.members u = some m ∧ m.status = current.status) l) l := by
  have hquiet : Quiet (.getOrganizationMembership o u) := by simp [Quiet, Sql.writes]
  refine safe_query ?_ ?_
  · intro l' hok hrely c v ws heval
    have hstep := step_ready hok (Partition.ready_rely hrely hready) (.inl hquiet) c
    refine ⟨?_, .done ?_⟩
    · exact unlocked_of_quiet hquiet heval _
    · intro current hcurrent
      refine ⟨hstep.2, held_statement (hrely.held ▸ hheld), ?_⟩
      -- reading does not move what is seen
      rw [orgPart_quiet hquiet heval]
      simp only [Sql.eval, getOrganizationMembership] at heval
      cases hfind : ((engine env).view l').memberships.find? (o, u) with
      | none => simp [hfind, one] at heval
      | some m =>
          have hv : m.membership = v := by
            have : m.membership = v ∧ [] = ws := by simpa [hfind, one] using heval
            exact this.1
          have hcur : v = current := Option.some.inj hcurrent
          exact ⟨m, hfind, by rw [← hcur, ← hv]; rfl⟩
  · intro l' hok hrely e
    cases e with
    | noRows =>
        refine .done ?_
        intro current hcurrent
        cases hcurrent
    | _ => exact .fail

/-- After the count somebody else is known to be active. -/
theorem keeps_requireAnotherActive {atStake : Bool} (hl : Holds env o R l) :
    Keeps env (Store.requireAnotherActive atStake o)
      (fun _ l => Holds env o (fun p => R p ∧ (atStake = true →
        ∃ u' m', u' ≠ u ∧ p.members u' = some m' ∧ m'.status = .active)) l) l := by
  unfold Store.requireAnotherActive
  have hquiet : Quiet (.countActiveOrganizationMembers o) := by simp [Quiet, Sql.writes]
  cases atStake with
  | false => exact .done ⟨hl.ready, hl.held, hl.sees, fun h => Bool.noConfusion h⟩
  | true =>
      -- two active members are at least one besides `u`, whoever `u` is
      have hcount :
          Keeps env (Store.stmt "" (.countActiveOrganizationMembers o) : Store.Tx Unit Nat)
            (fun count l => 1 < count → Holds env o (fun p => R p ∧ (true = true →
            ∃ u' m', u' ≠ u ∧ p.members u' = some m' ∧ m'.status = .active)) l) l := by
        refine safe_stmt ?_
        intro l' hok hrely c count ws heval
        have hl' := holds_rely hrely hl
        have hstep := step_ready hok hl'.ready (.inl hquiet) c
        refine ⟨?_, ?_⟩
        · exact unlocked_of_quiet hquiet heval _
        · intro hmany
          refine ⟨hstep.2, held_statement hl'.held, ?_⟩
          rw [orgPart_quiet hquiet heval]
          have hv : (((engine env).view l').memberships.select fun m =>
              m.orgID = o && m.status = .active).length = count :=
            (Prod.mk.inj (Except.ok.inj heval)).1
          exact ⟨hl'.sees, fun _ => another_active (hv.symm ▸ hmany) u⟩
      refine safe_bind hcount fun count l hknown => keeps_failIf ?_
      intro hfew
      exact hknown (by simpa using hfew)

/-! ### Foundation -/

/-- The transaction has inserted organization `o` and nobody belongs to it yet. -/
structure Founded (env : Env) (o : Uuid) (l : State) : Prop where
  held : .org o ∈ l.held
  others : ∀ o', o' ≠ o → .org o' ∈ l.held → (orgPart o' ((engine env).view l)).Fine
  org : (orgPart o ((engine env).view l)).org.isSome = true
  members : ∀ u, (orgPart o ((engine env).view l)).members u = none

theorem founded_rely {l l' : State} (h : (governance env).Rely l l') (hl : Founded env o l) :
    Founded env o l' := by
  have hsame : ∀ o', .org o' ∈ l'.held → orgPart o' ((engine env).view l') =
      orgPart o' ((engine env).view l) := by
    intro o' hheld
    exact orgPart_rely h (h.held ▸ hheld)
  have hheld : .org o ∈ l'.held := by
    rw [h.held]
    exact hl.held
  refine ⟨hheld, ?_, ?_, ?_⟩
  · intro o' hne hheld'
    rw [hsame o' hheld']
    exact hl.others o' hne (h.held ▸ hheld')
  · rw [hsame o hheld]
    exact hl.org
  · rw [hsame o hheld]
    exact hl.members

theorem keeps_createOrganization {context name : String} {created updated : Option Time}
    (hl : Ready env l) :
    Keeps env (Store.stmt context (.createOrganization o name created updated) : Store.Tx β Unit)
      (fun _ l => Founded env o l) l := by
  refine safe_stmt ?_
  intro l' hok hrely c v ws heval
  have hfine := fine_seen hok (Partition.ready_rely hrely hl)
  -- a successful insert is one row under an identifier that was free
  have hinsert : ∃ r : OrgRow, r.id = o ∧ ws = [.putOrg r] ∧
      (orgPart o ((engine env).view l')).org = none := by
    simp only [Sql.eval, createOrganization] at heval
    split at heval
    · split at heval
      · cases heval
      · rename_i hfree
        refine ⟨_, rfl, ok_writes heval, find?_eq_none.2 ?_⟩
        intro r hr
        have hany := any_eq_false.1 (Bool.eq_false_iff.2 hfree) r hr
        simpa using hany
    · cases heval
  rcases hinsert with ⟨r, hid, rfl, hnone⟩
  have hlock : .org o ∈ (engine env).locks (.createOrganization o name created updated) c
      ((engine env).view l') := by
    rw [(engine_ok heval).2]
    simp [Sql.forUpdate, Write.locks, hid]
  have hpart : orgPart o ((engine env).view
      ((engine env).statement (.createOrganization o name created updated) c l').2) =
      { org := some r, members := (orgPart o ((engine env).view l')).members } := by
    rw [seen_statement heval, DB.applyAll_cons, DB.applyAll_nil, orgPart_apply]
    exact if_pos hid
  refine ⟨?_, List.mem_append_right _ hlock, ?_, ?_, ?_⟩
  · intro x hx o' hsome
    rw [List.mem_singleton.1 hx] at hsome
    have ho' : r.id = o' := Option.some.inj hsome
    rw [← ho', hid]
    exact List.mem_append_right _ hlock
  · intro o' hne _
    rw [seen_statement heval, orgPart_applyAll_other]
    · exact hfine o'
    · intro x hx hsome
      rw [List.mem_singleton.1 hx] at hsome
      exact hne ((Option.some.inj hsome).symm.trans hid)
  · rw [hpart]
    rfl
  · intro u
    rw [hpart]
    exact (hfine o).rooted hnone u

/-- The founder becomes the first member. -/
theorem keeps_firstMember (hl : Founded env o l) :
    Keeps env (Store.stmt context (.addOrganizationMembership o u .active) : Store.Tx β Unit)
      (fun _ l => Ready env l) l := by
  refine safe_stmt ?_
  intro l' hok hrely c v ws heval
  have hl' := founded_rely hrely hl
  have hput : ∃ m : MembershipRow, m.orgID = o ∧ m.status = .active ∧ ws = [.putMembership m] := by
    have hnone : ((engine env).view l').memberships.find? (o, u) = none := hl'.members u
    simp only [Sql.eval, addOrganizationMembership, hnone] at heval
    split at heval
    · exact ⟨_, rfl, rfl, ok_writes heval⟩
    · cases heval
  rcases hput with ⟨m, hm, hactive, rfl⟩
  have horg : ∀ x ∈ [Write.putMembership m], org? x = some o := by
    intro x hx
    rw [List.mem_singleton.1 hx, ← hm]
    rfl
  refine ⟨?_, ?_⟩
  · intro x hx o' hsome
    have heq : o = o' := Option.some.inj ((horg x hx).symm.trans hsome)
    exact heq ▸ List.mem_append_left _ hl'.held
  · intro k hk
    cases k with
    | org o' =>
        show (orgPart o' ((engine env).view _)).Fine
        rw [seen_statement heval]
        by_cases heq : o' = o
        · subst heq
          rw [DB.applyAll_cons, DB.applyAll_nil, orgPart_apply]
          exact fine_put hm hl'.org (.inl hactive)
        · -- the statement locks no other organization
          have hheld : .org o' ∈ l'.held := by
            rcases List.mem_append.1 hk with hk | hk
            · exact hk
            · rw [(engine_ok heval).2] at hk
              simp [Sql.forUpdate, Write.locks] at hk
          rw [orgPart_applyAll_other]
          · exact hl'.others o' heq hheld
          · intro x hx hsome
            exact heq (Option.some.inj (hsome.symm.trans (horg x hx)))
    | _ => exact trivial

/-! ### The membership transactions -/

theorem quiet_event (e : Event) : Quiet (.insertOutboxEvent e) := by
  simp [Quiet, Sql.writes]

theorem addMember_keeps {orgID userID : String} {status : MembershipStatus} (hl : Ready env l) :
    Keeps env (Store.addMember now orgID userID status) (fun _ l => Ready env l) l := by
  refine safe_bind (keeps_quiet (Store.uses_membershipIDs _ _) hl) fun ids l hl => ?_
  rcases ids with ⟨org, user⟩
  refine safe_bind (keeps_lock hl) fun _ l hl => ?_
  refine keeps_joining (o := org) ?_ hl.1 hl.2
  refine uses_bind (Store.uses_getMembershipRow (.inl ?_)) fun found => ?_
  · simp [Quiet, Sql.writes]
  · cases found with
    | some m => exact .done _
    | none =>
        refine uses_bind (Store.uses_stmt (.inr (.add user status))) fun _ => ?_
        exact Store.uses_emitEvents (fun e => .inl (quiet_event e)) _ _

/-- One write about a locked organization that leaves it in order. -/
theorem ready_of_write {c : Tick} {x : Write} (hl : Holds env o R l)
    (hfine : ∀ o, (orgPart o ((engine env).view l)).Fine)
    (heval : s.eval env c.now c.pick ((engine env).view l) = .ok (v, [x])) (hx : org? x = some o)
    (happly : ((orgPart o ((engine env).view l)).apply o x).Fine) :
    (∀ y ∈ [x], ∀ o', org? y = some o' → .org o' ∈ l.held ++
      (engine env).locks s c ((engine env).view l)) ∧
      Ready env ((engine env).statement s c l).2 := by
  refine ⟨?_, Partition.ready_of_inv ((inv_iff env _).2 ?_)⟩
  · intro y hy o' hsome
    rw [List.mem_singleton.1 hy] at hsome
    have heq : o = o' := Option.some.inj (hx.symm.trans hsome)
    exact heq ▸ List.mem_append_left _ hl.held
  · intro o'
    rw [seen_statement heval, DB.applyAll_cons, DB.applyAll_nil]
    by_cases heq : o' = o
    · subst heq
      rw [orgPart_apply]
      exact happly
    · rw [orgPart_apply_other]
      · exact hfine o'
      · intro hsome
        exact heq (Option.some.inj (hsome.symm.trans hx))

/-- The update: the member was not the only active one, or stays active, or was not active. -/
theorem keeps_updateStatus {status current : MembershipStatus}
    (hl : Holds env o (fun p => (∃ m, p.members u = some m ∧ m.status = current) ∧
      ((status ≠ .active && current = .active) = true →
        ∃ u' m', u' ≠ u ∧ p.members u' = some m' ∧ m'.status = .active)) l) :
    Keeps env (Store.stmt context (.updateOrganizationMembershipStatus status o u) :
      Store.Tx β Unit) (fun _ l => Ready env l) l := by
  refine safe_stmt ?_
  intro l' hok hrely c v ws heval
  have hl' := holds_rely hrely hl
  have hfine := fine_seen hok hl'.ready
  rcases hl'.sees with ⟨⟨m, hm, hcurrent⟩, hother⟩
  have hfind : ((engine env).view l').memberships.find? (o, u) = some m := hm
  have hkey : (m.orgID, m.userID) = (o, u) := (find?_eq_some.1 hfind).2
  rcases Prod.mk.inj hkey with ⟨hmorg, hmuser⟩
  obtain rfl : ws = [.putMembership { m with status := status, updatedAt := c.now }] := by
    simp only [Sql.eval, updateOrganizationMembershipStatus, hfind] at heval
    exact ok_writes heval
  have hput : ((orgPart o ((engine env).view l')).apply o
      (.putMembership { m with status := status, updatedAt := c.now })).Fine := by
    have horg := org_of_member (hfine o) hm
    by_cases hactive : status = .active
    · exact fine_put hmorg horg (.inl hactive)
    · by_cases hwas : current = .active
      · -- the guard counted another active member, and the lock on the organization keeps it
        refine fine_put hmorg horg (.inr ?_)
        rw [show MembershipRow.userID { m with status := status, updatedAt := c.now } =
          u from hmuser]
        exact hother (by simp [hactive, hwas])
      · refine fine_put_inactive (hfine o) hmorg horg ?_
        intro m' hm'
        have hsame : some m = some m' := by
          rw [← hm, ← hm']
          exact congrArg _ hmuser.symm
        rw [← Option.some.inj hsame, hcurrent]
        exact hwas
  exact ready_of_write hl' hfine heval (congrArg some hmorg) hput

theorem updateMemberStatus_keeps {orgID userID : String} {status : MembershipStatus}
    (hl : Ready env l) :
    Keeps env (Store.updateMemberStatus now orgID userID status) (fun _ l => Ready env l) l := by
  refine safe_bind (keeps_quiet (Store.uses_membershipIDs _ _) hl) fun ids l hl => ?_
  rcases ids with ⟨org, user⟩
  refine safe_bind (keeps_lock hl) fun _ l hl => ?_
  refine safe_bind (keeps_getMembershipRow (u := user) hl.1 hl.2) fun found l hfound => ?_
  cases found with
  | none => exact .fail
  | some current =>
      refine safe_bind (keeps_requireAnotherActive (u := user) (hfound current rfl))
        fun _ l hl => ?_
      refine safe_bind (keeps_updateStatus hl) fun _ l hl => ?_
      refine keeps_quiet ?_ hl
      split
      · exact Store.uses_emitEvents quiet_event _ _
      · exact .done _

theorem keeps_delete {current : MembershipStatus}
    (hl : Holds env o (fun p => (∃ m, p.members u = some m ∧ m.status = current) ∧
      (decide (current = .active) = true →
        ∃ u' m', u' ≠ u ∧ p.members u' = some m' ∧ m'.status = .active)) l) :
    Keeps env (Store.stmt context (.deleteOrganizationMembership o u) : Store.Tx β Unit)
      (fun _ l => Ready env l) l := by
  refine safe_stmt ?_
  intro l' hok hrely c v ws heval
  have hl' := holds_rely hrely hl
  have hfine := fine_seen hok hl'.ready
  rcases hl'.sees with ⟨⟨m, hm, hcurrent⟩, hother⟩
  obtain rfl : ws = [.delMembership o u] := ok_writes heval
  have horg := org_of_member (hfine o) hm
  have hremains : ∃ u' m', u' ≠ u ∧ (orgPart o ((engine env).view l')).members u' = some m' ∧
      m'.status = .active := by
    by_cases hwas : current = .active
    · exact hother (by simp [hwas])
    · -- whoever is active, it is not the member that goes
      rcases (hfine o).governed horg with ⟨u', m', hm', hactive⟩
      refine ⟨u', m', ?_, hm', hactive⟩
      rintro rfl
      have hsame : m = m' := Option.some.inj (hm.symm.trans hm')
      exact hwas (hcurrent.symm.trans (hsame ▸ hactive))
  exact ready_of_write hl' hfine heval rfl (fine_del horg hremains)

theorem removeMember_keeps {orgID userID : String} (hl : Ready env l) :
    Keeps env (Store.removeMember now orgID userID) (fun _ l => Ready env l) l := by
  refine safe_bind (keeps_quiet (Store.uses_membershipIDs _ _) hl) fun ids l hl => ?_
  rcases ids with ⟨org, user⟩
  refine safe_bind (keeps_lock hl) fun _ l hl => ?_
  refine safe_bind (keeps_getMembershipRow (u := user) hl.1 hl.2) fun found l hfound => ?_
  cases found with
  | none => exact .fail
  | some current =>
      refine safe_bind (keeps_requireAnotherActive (u := user) (hfound current rfl))
        fun _ l hl => ?_
      refine safe_bind (keeps_delete hl) fun _ l hl => ?_
      exact keeps_quiet (Store.uses_emitEvents quiet_event _ _) hl

theorem createOrg_keeps {org : Organization} {creatorID : String} (hl : Ready env l) :
    Keeps env (Store.createOrg now org creatorID) (fun _ l => Ready env l) l := by
  refine safe_bind (keeps_quiet (Store.uses_parseID _ _) hl) fun orgID l hl => ?_
  refine safe_bind (keeps_quiet (Store.uses_parseID _ _) hl) fun userID l hl => ?_
  refine safe_bind (keeps_createOrganization hl) fun _ l hl => ?_
  refine safe_bind (keeps_firstMember hl) fun _ l hl => ?_
  exact keeps_quiet (Store.uses_emitEvents quiet_event _ _) hl

/-- Accepting an invitation under the lock. -/
theorem consumeInvite_keeps {contexts : String × String} {inviteID : Uuid}
    {orgText userText : String} {acceptedAt occurredAt : Time} (hready : Ready env l)
    (hheld : .org o ∈ l.held) :
    Keeps env (Store.consumeInvite now contexts inviteID o u orgText userText
      acceptedAt occurredAt :
      Store.Tx β Unit) (fun _ l => Ready env l) l := by
  refine keeps_joining (o := o) ?_ hready hheld
  refine Store.uses_consumeInvite (fun e _ => .inl (quiet_event e)) ?_ (.inr (.activate u))
  exact .inl (by simp [Quiet, Sql.writes])

theorem acceptInvite_keeps {inviteID orgID userID : String} (hl : Ready env l) :
    Keeps env (Store.acceptInvite now inviteID orgID userID acceptedAt) (fun _ l => Ready env l)
      l := by
  refine safe_bind (keeps_quiet (Store.uses_inviteIDs _ _) hl) fun ids l hl => ?_
  rcases ids with ⟨org, id⟩
  refine safe_bind (keeps_quiet (Store.uses_parseID _ _) hl) fun user l hl => ?_
  refine safe_bind (keeps_lock hl) fun _ l hl => ?_
  -- the check reads and may refuse; the lock is still held after it
  have hcheck : (Store.refuseSuspended org user).Uses Quiet := by
    refine uses_bind (Store.uses_getMembershipRow (by simp [Quiet, Sql.writes])) fun found => ?_
    cases found with
    | none => exact .done _
    | some m => exact Store.uses_failIf _ _
  have hholds : Holds env org (fun _ => True) l := ⟨hl.1, hl.2, trivial⟩
  refine safe_bind (keeps_holding hcheck hholds) fun _ l hl => ?_
  exact consumeInvite_keeps hl.ready hl.held

theorem joinInvite_keeps {userID : Uuid} {userText : String} {acceptedAt occurredAt : Time}
    (hl : Ready env l) :
    Keeps env (Store.joinInvite now userID userText acceptedAt occurredAt invite)
      (fun _ l => Ready env l) l := by
  cases invite with
  | none => exact .done hl
  | some invite =>
      refine safe_bind (keeps_quiet (Store.uses_parseID _ _) hl) fun orgID l hl => ?_
      refine safe_bind (keeps_quiet (Store.uses_parseID _ _) hl) fun inviteID l hl => ?_
      refine safe_bind (keeps_lock hl) fun _ l hl => ?_
      exact consumeInvite_keeps hl.1 hl.2

theorem ownOrg_keeps {userID : Uuid} {userText : String} {occurredAt : Time}
    {org : Option Organization} (hl : Ready env l) :
    Keeps env (Store.ownOrg now userID userText occurredAt org) (fun _ l => Ready env l) l := by
  cases org with
  | none => exact .done hl
  | some org =>
      refine safe_bind (keeps_quiet (Store.uses_parseID _ _) hl) fun orgID l hl => ?_
      refine safe_bind (keeps_createOrganization hl) fun _ l hl => ?_
      refine safe_bind (keeps_firstMember hl) fun _ l hl => ?_
      exact keeps_quiet (Store.uses_emitEvents quiet_event _ _) hl

theorem createSignupUser_keeps {user : User} {org : Option Organization} (hl : Ready env l) :
    Keeps env (Store.createSignupUser now user org invite acceptedAt)
    (fun _ l => Ready env l) l := by
  refine safe_bind (keeps_quiet (Store.uses_parseID _ _) hl) fun userID l hl => ?_
  refine safe_bind (keeps_quiet (Store.uses_stmt (by simp [Quiet, Sql.writes])) hl)
    fun created l hl => ?_
  split
  · exact .done hl
  · refine safe_bind (keeps_quiet (Store.uses_emitEvents quiet_event _ _) hl) fun _ l hl => ?_
    refine safe_bind (joinInvite_keeps hl) fun _ l hl => ?_
    exact safe_bind (ownOrg_keeps hl) fun _ l hl => .done hl

theorem activateByInvite_keeps {userID : String} (hl : Ready env l) :
    Keeps env (Store.activateByInvite now userID acceptedAt invite) (fun _ l => Ready env l) l := by
  cases invite with
  | none => exact .done hl
  | some invite =>
      refine safe_bind (keeps_quiet (Store.uses_parseID _ _) hl) fun userUUID l hl => ?_
      refine safe_bind (keeps_quiet (Store.uses_parseID _ _) hl) fun orgID l hl => ?_
      refine safe_bind (keeps_quiet (Store.uses_parseID _ _) hl) fun inviteID l hl => ?_
      refine safe_bind (keeps_quiet (Store.uses_stmt (by simp [Quiet, Sql.writes])) hl)
        fun affected l hl => ?_
      split
      · exact .fail
      · refine safe_bind (keeps_lock hl) fun _ l hl => ?_
        exact consumeInvite_keeps hl.1 hl.2

theorem reissuePendingSignup_keeps {user : User} {challenge : Option OTPChallenge}
    (hl : Ready env l) :
    Keeps env (Store.reissuePendingSignup now user challenge invite acceptedAt)
      (fun _ l => Ready env l) l := by
  have hquery : (Store.query (.reissueSignupUser user.email user.passwordHash user.displayName) :
      Store.Tx (String × Bool) _).Uses Quiet :=
    .call (by simp [Quiet, Sql.writes]) fun _ => .done _
  refine safe_bind (keeps_quiet hquery hl) fun res l hl => ?_
  cases res with
  | error e => cases e <;> exact .fail
  | ok userID =>
      refine safe_bind (keeps_quiet (Store.uses_rotateChallenge ?_ ?_) hl)
        fun _ l hl => ?_
      · intros
        simp [Quiet, Sql.writes]
      · intros
        simp [Quiet, Sql.writes]
      · exact safe_bind (activateByInvite_keeps hl) fun _ l hl => .done hl

end Transactions

/-! ## Runs -/

/-- The store calls that write memberships without deleting accounts. -/
inductive IsMembershipCall : Store.Op → Prop
  | createOrg (org : Organization) (creatorID : String) :
      IsMembershipCall (.createOrg org creatorID)
  | addMember (orgID userID : String) (status : MembershipStatus) :
      IsMembershipCall (.addMember orgID userID status)
  | updateMemberStatus (orgID userID : String) (status : MembershipStatus) :
      IsMembershipCall (.updateMemberStatus orgID userID status)
  | removeMember (orgID userID : String) : IsMembershipCall (.removeMember orgID userID)
  | acceptInvite (inviteID orgID userID : String) (acceptedAt : Time) :
      IsMembershipCall (.acceptInvite inviteID orgID userID acceptedAt)
  | createSignupUser (user : User) (org : Option Organization) (invite : Option Invite)
      (acceptedAt : Time) : IsMembershipCall (.createSignupUser user org invite acceptedAt)
  | reissuePendingSignup (user : User) (challenge : Option OTPChallenge) (invite : Option Invite)
      (acceptedAt : Time) :
      IsMembershipCall (.reissuePendingSignup user challenge invite acceptedAt)

theorem call_keeps {env : Env} {t : StoreCall} (ht : IsMembershipCall t.op) {l : State}
    (hl : Ready env l) : (governance env).Keeps t.transaction (fun _ l => Ready env l) l := by
  rcases t with ⟨now, id, op⟩
  refine safe_bimap ?_
  cases ht with
  | createOrg => exact createOrg_keeps hl
  | addMember => exact addMember_keeps hl
  | updateMemberStatus => exact updateMemberStatus_keeps hl
  | removeMember => exact removeMember_keeps hl
  | acceptInvite => exact acceptInvite_keeps hl
  | createSignupUser => exact createSignupUser_keeps hl
  | reissuePendingSignup => exact reissuePendingSignup_keeps hl

/-- Any number of membership transactions under any interleaving of their statements, with waiting,
rollbacks and lost connections: every organization that is committed has an active member. -/
theorem organizations_governed {env : Env} {db : DB} (hgoverned : Governed db) (hrooted : Rooted db)
    {calls : List StoreCall} (hcalls : ∀ t ∈ calls, IsMembershipCall t.op) (sched : StoreSchedule) :
    Governed (runAll env (beginAll db calls) sched).committed := by
  have hinv : (governance env).Inv db :=
    (inv_iff env db).2 (fine_of_governed hgoverned hrooted)
  have hkeeps : ∀ p ∈ calls.map StoreCall.transaction,
      (governance env).Keeps p (fun _ l => (governance env).Ready l) ⟨db, [], []⟩ := by
    intro p hp
    rcases List.mem_map.1 hp with ⟨t, ht, rfl⟩
    refine call_keeps (hcalls t ht) ?_
    intro k hk
    cases hk
  exact governed_of_fine ((inv_iff env _).1 (System.run_sound hinv hkeeps sched))

/-! ## Two members suspend each other -/

/-- One organization with two active members. -/
def twoMembers : DB :=
  { DB.empty with
    orgs := Table.empty.put ⟨Uuid.ofNat 1, "acme", 1, 1⟩
    memberships := (Table.empty.put ⟨Uuid.ofNat 1, Uuid.ofNat 2, .active, 1, 1⟩).put
      ⟨Uuid.ofNat 1, Uuid.ofNat 3, .active, 1, 1⟩ }

def suspend (user : Nat) : StoreCall where
  now := 5
  id := Uuid.ofNat 0
  op := .updateMemberStatus (Uuid.ofNat 1).string (Uuid.ofNat user).string .suspended

/-- The transactions take turns, statement by statement. -/
def takingTurns : StoreSchedule :=
  (List.replicate 12 [(0, Move.advance ⟨5, 0⟩), (1, Move.advance ⟨5, 0⟩)]).flatten

theorem organizations_governed_twoMembers :
    Governed twoMembers ∧ Rooted twoMembers ∧
      Governed (runAll Service.toyEnv (beginAll twoMembers [suspend 2, suspend 3])
        takingTurns).committed := by
  have hgoverned : Governed twoMembers := by
    intro o ho
    have hrow : o = ⟨Uuid.ofNat 1, "acme", 1, 1⟩ := by simpa [twoMembers] using ho
    exact ⟨⟨Uuid.ofNat 1, Uuid.ofNat 3, .active, 1, 1⟩, by simp [twoMembers], by rw [hrow], rfl⟩
  have hrooted : Rooted twoMembers := by
    intro m hm
    have horg : m.orgID = Uuid.ofNat 1 := by
      rcases mem_put.1 hm with rfl | ⟨hm, _⟩
      · rfl
      · rcases mem_put.1 hm with rfl | ⟨hm, _⟩
        · rfl
        · exact absurd hm (not_mem_empty m)
    exact ⟨⟨Uuid.ofNat 1, "acme", 1, 1⟩, by simp [twoMembers], horg.symm⟩
  refine ⟨hgoverned, hrooted, organizations_governed hgoverned hrooted ?_ takingTurns⟩
  intro t ht
  rcases List.mem_pair.1 ht with rfl | rfl
  · exact .updateMemberStatus _ _ _
  · exact .updateMemberStatus _ _ _

/-- The first suspension commits; the second waits for it and is then refused. -/
example :
    ((runAll Service.toyEnv (beginAll twoMembers [suspend 2, suspend 3])
      takingTurns).sessions.map fun s =>
        match s with
        | .committed _ => some true
        | .aborted _ => some false
        | .running _ _ _ => none) = [some true, some false] := by
  decide +kernel

end Governance
end Postgres
end OrbitAuth
