import OrbitAuth.Directory.Spec
import OrbitAuth.Postgres.Commits
import OrbitAuth.Safety.Governance

/-!
# Refinement — the store is a directory

* `directory` — the directory a database describes;
* `calls_exact` — each call of the organization store gets through exactly when its command is
  possible in the directory, has exactly its effect, and otherwise leaves the database alone;
* `runs_exact` — so any number of calls, one after the other and among others, are a run of the
  directory.

Only the constraints of the schema are needed for it.
-/

namespace OrbitAuth
namespace Directory

open Domain Foundations Postgres Postgres.Store

variable {status : MembershipStatus} {t : Table MembershipRow} {now : Time} {op : Store.Op}

abbrev OrgState := State Uuid Uuid Uuid String String

abbrev OrgCommand := Command Uuid Uuid Uuid String String

/-- An invitation is addressed to the lower-cased address, as the index on pending ones is. -/
def ticketOf (env : Env) (r : InviteRow) : Ticket Uuid String String where
  org := r.orgID
  address := env.sqlLower r.email
  link := r.tokenHash
  state := r.status

/-- The directory of a database. -/
def directory (env : Env) (db : DB) : OrgState where
  accounts := {u | ∃ r ∈ db.users, r.id = u}
  orgs := {o | ∃ r ∈ db.orgs, r.id = o}
  member o u := (db.memberships.find? (o, u)).map MembershipRow.status
  ticket i := (db.invites.find? i).map (ticketOf env)

/-! ## Reading rows off the directory -/

section Reading

variable {env : Env} {db db' : DB} {o u : Uuid}

theorem member_eq_some :
    (directory env db).member o u = some status ↔
      ∃ m, db.memberships.find? (o, u) = some m ∧ m.status = status :=
  Option.map_eq_some_iff

theorem member_eq_none : (directory env db).member o u = none ↔
    db.memberships.find? (o, u) = none :=
  Option.map_eq_none_iff

theorem notSuspended_iff : NotSuspended db o u ↔ (directory env db).member o u ≠
    some .suspended := by
  rw [Ne, member_eq_some]
  constructor
  · rintro h ⟨m, hm, hstatus⟩
    exact h m hm hstatus
  · intro h m hm hstatus
    exact h ⟨m, hm, hstatus⟩

theorem admits_iff : Admits db o u ↔ (directory env db).Admissible o u := by
  unfold Admits State.Admissible
  rw [member_eq_none]
  cases hfind : db.memberships.find? (o, u) with
  | none => exact ⟨fun h _ => h.resolve_left (by simp), fun h => .inr (h rfl)⟩
  | some m => simp

theorem pending_iff {i : Uuid} : Open db i o ↔ (directory env db).Pending i o := by
  constructor
  · rintro ⟨r, hr, hpending⟩
    simp only [InviteRow.stillPending, Bool.and_eq_true, decide_eq_true_eq] at hpending
    obtain ⟨⟨hid, horg⟩, hstatus⟩ := hpending
    have hfind : db.invites.find? i = some r := find?_eq_some.mpr ⟨hr, hid⟩
    exact ⟨ticketOf env r, by simp [directory, hfind], horg, hstatus⟩
  · rintro ⟨t, ht, horg, hstatus⟩
    obtain ⟨r, hfind, rfl⟩ := Option.map_eq_some_iff.mp ht
    obtain ⟨hr, hid⟩ := find?_eq_some.mp hfind
    refine ⟨r, hr, ?_⟩
    simp only [InviteRow.stillPending, Bool.and_eq_true, decide_eq_true_eq]
    exact ⟨⟨hid, horg⟩, hstatus⟩

/-- More than one active member: somebody besides `u`, who is one of them. -/
theorem count_iff {m : MembershipRow} (hm : db.memberships.find? (o, u) = some m)
    (hactive : m.status = .active) :
    1 < (db.memberships.select fun m => m.orgID = o && m.status = .active).length ↔
      (directory env db).AnotherActive o u := by
  constructor
  · intro h
    obtain ⟨u', m', hne, hm', hactive'⟩ := Governance.another_active h u
    exact ⟨u', hne, member_eq_some.mpr ⟨m', hm', hactive'⟩⟩
  · rintro ⟨u', hne, hu'⟩
    obtain ⟨m', hm', hactive'⟩ := member_eq_some.mp hu'
    have hselected : ∀ {w : Uuid} {r : MembershipRow}, db.memberships.find? (o, w) = some r →
        r.status = .active →
        r ∈ db.memberships.select fun m => m.orgID = o && m.status = .active := by
      intro w r hr hstatus
      obtain ⟨hmem, hkey⟩ := find?_eq_some.mp hr
      have horg : r.orgID = o := (Prod.mk.inj hkey).1
      exact mem_select.mpr ⟨hmem, by simp [horg, hstatus]⟩
    have hm₁ := hselected hm hactive
    have hm₂ := hselected hm' hactive'
    have hdiffer : m ≠ m' := by
      rintro rfl
      have hkey := (find?_eq_some.mp hm).2.symm.trans (find?_eq_some.mp hm').2
      exact hne (Prod.mk.inj hkey).2.symm
    generalize db.memberships.select (fun m => m.orgID = o && m.status = .active) = rows at hm₁ hm₂
    rcases rows with _ | ⟨a, _ | ⟨b, rest⟩⟩
    · cases hm₁
    · exact absurd ((List.mem_singleton.mp hm₁).trans (List.mem_singleton.mp hm₂).symm) hdiffer
    · simp

/-! ## Writing rows -/

theorem id_of_stillPending {id : Uuid} {r : InviteRow} (h : r.stillPending id o = true) :
    r.id = id := by
  simp only [InviteRow.stillPending, Bool.and_eq_true, decide_eq_true_eq] at h
  exact h.1.1

theorem member_put {m : MembershipRow} (horg : m.orgID = o) (huser : m.userID = u) :
    (fun o' u' => ((t.put m).find? (o', u')).map MembershipRow.status) =
      setMember (fun o' u' => (t.find? (o', u')).map MembershipRow.status) o u (some m.status) := by
  funext o' u'
  simp only [find?_put, key_membership, horg, huser, Prod.mk.injEq, setMember]
  by_cases h : o' = o ∧ u' = u
  · rw [if_pos h, if_pos ⟨h.1.symm, h.2.symm⟩]
    rfl
  · rw [if_neg h, if_neg fun h' => h ⟨h'.1.symm, h'.2.symm⟩]

theorem member_erase :
    (fun o' u' => ((t.erase (o, u)).find? (o', u')).map MembershipRow.status) =
      setMember (fun o' u' => (t.find? (o', u')).map MembershipRow.status) o u none := by
  funext o' u'
  simp only [find?_erase, Prod.mk.injEq, setMember]
  by_cases h : o' = o ∧ u' = u
  · rw [if_pos h, if_pos ⟨h.1.symm, h.2.symm⟩]
    rfl
  · rw [if_neg h, if_neg fun h' => h ⟨h'.1.symm, h'.2.symm⟩]

theorem setMember_same {member : Uuid → Uuid → Option MembershipStatus}
    {status : Option MembershipStatus} (h : member o u = status) :
    setMember member o u status = member := by
  funext o' u'
  unfold setMember
  split
  · rename_i heq
    rw [heq.1, heq.2, h]
  · rfl

theorem member_enrolled :
    (fun o' u' => ((enrolled now t o u status).find? (o', u')).map MembershipRow.status) =
      setMember (fun o' u' => (t.find? (o', u')).map MembershipRow.status) o u
        (((t.find? (o, u)).map MembershipRow.status).or (some status)) := by
  unfold enrolled
  cases hfind : t.find? (o, u) with
  | some m => exact (setMember_same (by simp [hfind])).symm
  | none => exact member_put rfl rfl

theorem member_joined :
    (fun o' u' => ((joined now t o u).find? (o', u')).map MembershipRow.status) =
      setMember (fun o' u' => (t.find? (o', u')).map MembershipRow.status) o u
        (admitted ((t.find? (o, u)).map MembershipRow.status)) := by
  unfold joined
  cases hfind : t.find? (o, u) with
  | none => exact member_put rfl rfl
  | some m =>
      obtain ⟨_, hkey⟩ := find?_eq_some.mp hfind
      obtain ⟨horg, huser⟩ := Prod.mk.inj hkey
      dsimp only
      split
      · rename_i hinvited
        rw [Option.map_some, hinvited]
        exact member_put horg huser
      · rename_i hstatus
        refine (setMember_same ?_).symm
        rw [hfind, Option.map_some]
        cases hs : m.status with
        | invited => exact absurd hs hstatus
        | active => rfl
        | suspended => rfl

theorem ticket_ended {t : Table InviteRow} {i : Uuid} {f : InviteRow → InviteRow}
    {state : InviteStatus}
    (hf : ∀ r, (f r).id = r.id ∧ ticketOf env (f r) = { ticketOf env r with state := state })
    (hopen : ∃ r ∈ t, r.stillPending i o = true) :
    (fun j => ((t.update (InviteRow.stillPending i o) f).find? j).map (ticketOf env)) =
      endTicket (fun j => (t.find? j).map (ticketOf env)) i state := by
  funext j
  rw [Table.find?_update fun r => (hf r).1, endTicket]
  cases hfind : t.find? j with
  | none => simp
  | some r =>
      obtain ⟨hr, hkey⟩ := find?_eq_some.mp hfind
      have hkey : r.id = j := hkey
      by_cases hj : j = i
      · -- it is the invitation that was found open
        obtain ⟨q, hq, hpending⟩ := hopen
        have hqid : q.id = i := id_of_stillPending hpending
        have hsame : r = q := eq_of_key hr hq (hkey.trans (hj.trans hqid.symm))
        rw [if_pos hj, Option.map_some, hsame, hpending, if_pos rfl, Option.map_some, (hf q).2]
        rfl
      · have hpass : r.stillPending i o = false := by
          rw [Bool.eq_false_iff]
          intro hp
          exact hj (hkey.symm.trans (id_of_stillPending hp))
        rw [if_neg hj, Option.map_some, hpass]
        rfl

/-- The identifiers of a table after a row was written. -/
theorem keys_put {ρ κ : Type} [Keyed ρ κ] [DecidableEq κ] (t : Table ρ) (x : ρ) :
    {k | ∃ r ∈ t.put x, Keyed.key r = k} = insert (Keyed.key x) {k | ∃ r ∈ t, Keyed.key r = k} := by
  ext k
  constructor
  · rintro ⟨r, hr, rfl⟩
    rcases mem_put.mp hr with rfl | ⟨hold, _⟩
    · exact Set.mem_insert _ _
    · exact Set.mem_insert_of_mem _ ⟨r, hold, rfl⟩
  · rintro (rfl | ⟨r, hr, rfl⟩)
    · exact ⟨x, mem_put.mpr (.inl rfl), rfl⟩
    · exact Table.key_mem_put hr

/-- A new organization with its first member. -/
theorem directory_organized {org : OrgRow} {events : List Event}
    (hnone : db.memberships.find? (org.id, u) = none) :
    directory env (organized now db org u events) =
      (directory env db).effect (.found org.id u) := by
  unfold directory State.effect organized
  simp only [State.mk.injEq, true_and, and_true]
  refine ⟨keys_put db.orgs org, ?_⟩
  rw [member_enrolled, hnone]
  rfl

/-- An invitation used. -/
theorem directory_consumed {i : Uuid} {acceptedAt : Option Time} {event : Event}
    (hopen : Open db i o) :
    directory env (consumed now db i o u acceptedAt event) =
      (directory env db).effect (.accept i o u) := by
  unfold directory State.effect consumed
  simp only [State.mk.injEq, true_and]
  refine ⟨?_, ?_⟩
  · rw [member_joined]
  · exact ticket_ended (fun r => ⟨rfl, rfl⟩) hopen

end Reading

/-! ## The calls are exact -/

/-- The command a call of the organization store stands for: its identifiers can be read, and the
times the service puts into new rows are set. -/
inductive Requests (env : Env) : Store.Op → OrgCommand → Prop
  | createOrg {org : Organization} {creatorID : String} {o u : Uuid}
      (ho : Uuid.parse org.id = some o) (hu : Uuid.parse creatorID = some u)
      (hcreated : org.createdAt ≠ 0) (hupdated : org.updatedAt ≠ 0) :
      Requests env (.createOrg org creatorID) (.found o u)
  | addMember {orgID userID : String} {status : MembershipStatus} {o u : Uuid}
      (ho : Uuid.parse orgID = some o) (hu : Uuid.parse userID = some u) :
      Requests env (.addMember orgID userID status) (.add o u status)
  | updateMemberStatus {orgID userID : String} {status : MembershipStatus} {o u : Uuid}
      (ho : Uuid.parse orgID = some o) (hu : Uuid.parse userID = some u) :
      Requests env (.updateMemberStatus orgID userID status) (.restatus o u status)
  | removeMember {orgID userID : String} {o u : Uuid} (ho : Uuid.parse orgID = some o)
      (hu : Uuid.parse userID = some u) : Requests env (.removeMember orgID userID) (.remove o u)
  | createInvite {invite : Invite} {i o inviter : Uuid} (hi : Uuid.parse invite.id = some i)
      (ho : Uuid.parse invite.orgID = some o)
      (hinviter : Uuid.parse invite.inviterID = some inviter) (hexpires : invite.expiresAt ≠ 0)
      (hcreated : invite.createdAt ≠ 0) :
      Requests env (.createInvite invite)
        (.invite i o inviter (env.sqlLower invite.email) invite.tokenHash invite.status)
  | revokeInvite {orgID inviteID : String} {i o : Uuid} (hi : Uuid.parse inviteID = some i)
      (ho : Uuid.parse orgID = some o) : Requests env (.revokeInvite orgID inviteID) (.withdraw i o)
  | acceptInvite {inviteID orgID userID : String} {acceptedAt : Time} {i o u : Uuid}
      (hi : Uuid.parse inviteID = some i) (ho : Uuid.parse orgID = some o)
      (hu : Uuid.parse userID = some u) :
      Requests env (.acceptInvite inviteID orgID userID acceptedAt) (.accept i o u)

section Exact

variable {env : Env} {now : Time} {id : Uuid} {pick : Nat} {db db' : DB} {o u i : Uuid}

theorem parse_unique {text : String} {a b : Uuid} (ha : Uuid.parse text = some a)
    (hb : Uuid.parse text = some b) :
    a = b :=
  Option.some.inj (ha.symm.trans hb)

/-- A call gets through exactly when the command is possible, and then has its effect. -/
structure Implements (env : Env) (now : Time) (id : Uuid) (pick : Nat) (db : DB) (op : Store.Op)
    (c : OrgCommand) : Prop where
  sound : ∀ v db', Commits env now pick (op.body now id) db v db' →
    (directory env db).Guard c ∧ directory env db' = (directory env db).effect c
  complete : (directory env db).Guard c → ∃ v db', Commits env now pick (op.body now id) db v db'

/-- An organization that did not exist, with somebody who could become its first member. -/
theorem found_sound (hdb : db.Integrity) {org : OrgRow} {events : List Event}
    (hfree : ∀ r ∈ db.orgs, r.id ≠ org.id)
    (hadmits : Admits { db with orgs := db.orgs.put org } org.id u) :
    (directory env db).Guard (.found org.id u) ∧
      directory env (organized now db org u events) =
        (directory env db).effect (.found org.id u) := by
  -- nobody is a member of an organization that does not exist
  have hnobody : db.memberships.find? (org.id, u) = none := by
    rw [find?_eq_none]
    intro m hm hkey
    obtain ⟨r, hr, hid⟩ := hdb.membershipOrg m hm
    exact hfree r hr (hid.trans (Prod.mk.inj hkey).1)
  refine ⟨⟨fun ⟨r, hr, hid⟩ => hfree r hr hid, ?_⟩, directory_organized hnobody⟩
  rcases hadmits with hsome | ⟨_, huser⟩
  · rw [hnobody] at hsome
    cases hsome
  · exact huser

theorem implements_createOrg (hdb : db.Integrity) {org : Organization} {creatorID : String}
    (ho : Uuid.parse org.id = some o) (hu : Uuid.parse creatorID = some u)
    (hcreated : org.createdAt ≠ 0) (hupdated : org.updatedAt ≠ 0) :
    Implements env now id pick db (.createOrg org creatorID) (.found o u) := by
  constructor
  · intro _ db' h
    obtain ⟨o', u', ho', hu', _, _, hfree, hadmits, rfl⟩ := commits_createOrg.mp h
    obtain rfl := parse_unique ho' ho
    obtain rfl := parse_unique hu' hu
    exact found_sound hdb hfree hadmits
  · rintro ⟨hfree, huser⟩
    have hfree' : ∀ r ∈ db.orgs, r.id ≠ o := fun r hr hid => hfree ⟨r, hr, hid⟩
    refine ⟨(), _, commits_createOrg.mpr ⟨o, u, ho, hu, hcreated, hupdated, hfree',
      .inr ⟨?_, huser⟩, rfl⟩⟩
    exact ⟨_, mem_put.mpr (.inl rfl), rfl⟩

theorem implements_addMember {orgID userID : String} (ho : Uuid.parse orgID = some o)
    (hu : Uuid.parse userID = some u) :
    Implements env now id pick db (.addMember orgID userID status) (.add o u status) := by
  constructor
  · intro _ db' h
    obtain ⟨o', u', ho', hu', hexists, hcases⟩ := commits_addMember.mp h
    obtain rfl := parse_unique ho' ho
    obtain rfl := parse_unique hu' hu
    rcases hcases with ⟨hsome, rfl⟩ | ⟨hnone, huser, rfl⟩
    · obtain ⟨m, hm⟩ := Option.isSome_iff_exists.mp hsome
      refine ⟨⟨hexists, admits_iff.mp (.inl hsome)⟩, ?_⟩
      unfold State.effect
      simp only
      rw [setMember_same]
      simp [directory, hm]
    · refine ⟨⟨hexists, admits_iff.mp (.inr ⟨hexists, huser⟩)⟩, ?_⟩
      unfold directory State.effect
      simp only [State.mk.injEq, true_and, and_true]
      rw [member_put (o := o') (u := u') rfl rfl, hnone]
      rfl
  · rintro ⟨hexists, hadmissible⟩
    cases hfind : db.memberships.find? (o, u) with
    | some m =>
        exact ⟨(), _, commits_addMember.mpr ⟨o, u, ho, hu, hexists, .inl ⟨by simp [hfind], rfl⟩⟩⟩
    | none =>
        have huser := (hadmissible (member_eq_none.mpr hfind)).2
        exact ⟨(), _, commits_addMember.mpr ⟨o, u, ho, hu, hexists, .inr ⟨hfind, huser, rfl⟩⟩⟩

/-- The organization of a member exists. -/
theorem org_of_member (hdb : db.Integrity) {m : MembershipRow}
    (hm : db.memberships.find? (o, u) = some m) :
    ∃ r ∈ db.orgs, r.id = o := by
  obtain ⟨hmem, hkey⟩ := find?_eq_some.mp hm
  obtain ⟨r, hr, hid⟩ := hdb.membershipOrg m hmem
  exact ⟨r, hr, hid.trans (Prod.mk.inj hkey).1⟩

theorem implements_updateMemberStatus (hdb : db.Integrity) {orgID userID : String}
    (ho : Uuid.parse orgID = some o) (hu : Uuid.parse userID = some u) :
    Implements env now id pick db (.updateMemberStatus orgID userID status)
    (.restatus o u status) := by
  have hiff : ∀ db', Commits env now pick (updateMemberStatus now orgID userID status) db () db' ↔
      _ :=
    fun db' => commits_change (s := fun current => status ≠ .active && current.status = .active)
      (f := fun org user current => do
        stmt "" (.updateOrganizationMembershipStatus status org user)
        if status = .suspended && current.status ≠ .suspended then
          emitEvents now [.membershipSuspended orgID userID status now]
        else pure ())
  -- the check is needed when an active member is to become something else
  have hcheck : ∀ m, db.memberships.find? (o, u) = some m →
      (((status ≠ .active && m.membership.status = .active : Bool) = true →
        1 < (db.memberships.select fun m => m.orgID = o && m.status = .active).length) ↔
      (status ≠ .active → m.status = .active → (directory env db).AnotherActive o u)) := by
    intro m hm
    rw [Bool.and_eq_true, decide_eq_true_eq, decide_eq_true_eq, and_imp]
    refine forall_congr' fun _ => forall_congr' fun hactive => ?_
    exact count_iff hm hactive
  constructor
  · intro _ db' h
    obtain ⟨o', u', m, ho', hu', _, hm, hmany, h₁⟩ := (hiff db').mp h
    obtain rfl := parse_unique ho' ho
    obtain rfl := parse_unique hu' hu
    obtain ⟨horg, huser⟩ := Prod.mk.inj (find?_eq_some.mp hm).2
    rw [(commits_restatus hm).mp h₁]
    refine ⟨⟨m.status, member_eq_some.mpr ⟨m, hm, rfl⟩, (hcheck m hm).mp hmany⟩, ?_⟩
    unfold directory State.effect
    simp only [State.mk.injEq, true_and, and_true]
    exact member_put horg huser
  · rintro ⟨current, hcurrent, hanother⟩
    obtain ⟨m, hm, rfl⟩ := member_eq_some.mp hcurrent
    exact ⟨(), _, (hiff _).mpr ⟨o, u, m, ho, hu, org_of_member hdb hm, hm,
      (hcheck m hm).mpr hanother, (commits_restatus hm).mpr rfl⟩⟩

theorem implements_removeMember (hdb : db.Integrity) {orgID userID : String}
    (ho : Uuid.parse orgID = some o) (hu : Uuid.parse userID = some u) :
    Implements env now id pick db (.removeMember orgID userID) (.remove o u) := by
  constructor
  · intro _ db' h
    obtain ⟨o', u', m, ho', hu', _, hm, hmany, rfl⟩ := commits_removeMember.mp h
    obtain rfl := parse_unique ho' ho
    obtain rfl := parse_unique hu' hu
    refine ⟨⟨m.status, member_eq_some.mpr ⟨m, hm, rfl⟩, fun hactive => (count_iff hm hactive).mp
      (hmany hactive)⟩, ?_⟩
    unfold directory State.effect
    simp only [State.mk.injEq, true_and, and_true]
    exact member_erase
  · rintro ⟨current, hcurrent, hanother⟩
    obtain ⟨m, hm, rfl⟩ := member_eq_some.mp hcurrent
    have hmany := fun hactive => (count_iff hm hactive).mpr (hanother hactive)
    exact ⟨(), _, commits_removeMember.mpr ⟨o, u, m, ho, hu, org_of_member hdb hm, hm, hmany, rfl⟩⟩

theorem implements_createInvite {invite : Invite} {inviter : Uuid}
    (hi : Uuid.parse invite.id = some i) (ho : Uuid.parse invite.orgID = some o)
    (hinviter : Uuid.parse invite.inviterID = some inviter) (hexpires : invite.expiresAt ≠ 0)
    (hcreated : invite.createdAt ≠ 0) :
    Implements env now id pick db (.createInvite invite)
      (.invite i o inviter (env.sqlLower invite.email) invite.tokenHash invite.status) := by
  have hfree : (∀ r ∈ db.invites, r.id ≠ i ∧ r.tokenHash ≠ invite.tokenHash) ↔
      (directory env db).ticket i = none ∧
        ∀ j t, (directory env db).ticket j = some t → t.link ≠ invite.tokenHash := by
    constructor
    · intro h
      refine ⟨?_, ?_⟩
      · exact Option.map_eq_none_iff.mpr (find?_eq_none.mpr fun r hr => (h r hr).1)
      · intro j t ht
        obtain ⟨r, hr, rfl⟩ := Option.map_eq_some_iff.mp ht
        exact (h r (find?_eq_some.mp hr).1).2
    · rintro ⟨hnone, hlink⟩ r hr
      refine ⟨find?_eq_none.mp (Option.map_eq_none_iff.mp hnone) r hr, ?_⟩
      refine hlink r.id (ticketOf env r) ?_
      exact Option.map_eq_some_iff.mpr ⟨r, find?_of_mem hr, rfl⟩
  constructor
  · intro _ db' h
    obtain ⟨i', o', inviter', hi', ho', hinviter', _, _, hexists, huser, hnew, rfl⟩ :=
      commits_createInvite.mp h
    obtain rfl := parse_unique hi' hi
    obtain rfl := parse_unique ho' ho
    obtain rfl := parse_unique hinviter' hinviter
    refine ⟨⟨hexists, huser, hfree.mp hnew⟩, ?_⟩
    unfold directory State.effect invited
    simp only [State.mk.injEq, true_and]
    funext j
    have hkey : Keyed.key (inviteRow invite i' o' inviter') = i' := rfl
    rw [find?_put, Table.find?_update key_inviteRevoked, hkey]
    by_cases hj : j = i'
    · rw [if_pos hj, if_pos hj.symm]
      rfl
    · rw [if_neg hj, if_neg fun h => hj h.symm, supersede, Option.map_map, Option.map_map]
      refine congrFun (congrArg Option.map (funext fun r => ?_)) _
      -- the rows that are withdrawn are the open invitations of the address
      have hpending : r.pendingFor env o' invite.email = true ↔
          (ticketOf env r).org = o' ∧ (ticketOf env r).address = env.sqlLower invite.email ∧
            (ticketOf env r).state = .pending := by
        simp [InviteRow.pendingFor, ticketOf, and_assoc]
      dsimp only [Function.comp]
      by_cases hr : r.pendingFor env o' invite.email = true
      · rw [if_pos hr, if_pos (hpending.mp hr)]
        rfl
      · rw [if_neg hr, if_neg fun h => hr (hpending.mpr h)]
  · rintro ⟨hexists, huser, hnew⟩
    exact ⟨(), _, commits_createInvite.mpr ⟨i, o, inviter, hi, ho, hinviter, hexpires, hcreated,
      hexists, huser, hfree.mpr hnew, rfl⟩⟩

theorem implements_revokeInvite {orgID inviteID : String} (hi : Uuid.parse inviteID = some i)
    (ho : Uuid.parse orgID = some o) :
    Implements env now id pick db (.revokeInvite orgID inviteID) (.withdraw i o) := by
  constructor
  · intro _ db' h
    obtain ⟨i', o', hi', ho', hopen, rfl⟩ := commits_revokeInvite.mp h
    obtain rfl := parse_unique hi' hi
    obtain rfl := parse_unique ho' ho
    refine ⟨pending_iff.mp hopen, ?_⟩
    unfold directory State.effect
    simp only [State.mk.injEq, true_and]
    exact ticket_ended (fun r => ⟨rfl, rfl⟩) hopen
  · intro hpending
    exact ⟨(), _, commits_revokeInvite.mpr ⟨i, o, hi, ho, pending_iff.mpr hpending, rfl⟩⟩

theorem implements_acceptInvite (hdb : db.Integrity) {inviteID orgID userID : String}
    {acceptedAt : Time} (hi : Uuid.parse inviteID = some i) (ho : Uuid.parse orgID = some o)
    (hu : Uuid.parse userID = some u) :
    Implements env now id pick db (.acceptInvite inviteID orgID userID acceptedAt)
    (.accept i o u) := by
  constructor
  · intro _ db' h
    obtain ⟨i', o', u', hi', ho', hu', _, hstatus, hopen, hadmits, rfl⟩ := commits_acceptInvite.mp h
    obtain rfl := parse_unique hi' hi
    obtain rfl := parse_unique ho' ho
    obtain rfl := parse_unique hu' hu
    refine ⟨⟨pending_iff.mp hopen, notSuspended_iff.mp hstatus, admits_iff.mp hadmits⟩, ?_⟩
    exact directory_consumed hopen
  · rintro ⟨hpending, hstatus, hadmissible⟩
    have hopen := pending_iff.mpr hpending
    have hexists : ∃ r ∈ db.orgs, r.id = o := by
      obtain ⟨r, hr, hp⟩ := hopen
      simp only [InviteRow.stillPending, Bool.and_eq_true, decide_eq_true_eq] at hp
      obtain ⟨q, hq, hid⟩ := hdb.inviteOrg r hr
      exact ⟨q, hq, hid.trans hp.1.2⟩
    exact ⟨(), _, commits_acceptInvite.mpr
      ⟨i, o, u, hi, ho, hu, hexists, notSuspended_iff.mpr hstatus, hopen,
      admits_iff.mpr hadmissible, rfl⟩⟩

theorem implements_request (hdb : db.Integrity) {c : OrgCommand} (h : Requests env op c) :
    Implements env now id pick db op c := by
  cases h with
  | createOrg ho hu hcreated hupdated => exact implements_createOrg hdb ho hu hcreated hupdated
  | addMember ho hu => exact implements_addMember ho hu
  | updateMemberStatus ho hu => exact implements_updateMemberStatus hdb ho hu
  | removeMember ho hu => exact implements_removeMember hdb ho hu
  | createInvite hi ho hinviter hexpires hcreated =>
      exact implements_createInvite hi ho hinviter hexpires hcreated
  | revokeInvite hi ho => exact implements_revokeInvite hi ho
  | acceptInvite hi ho hu => exact implements_acceptInvite hdb hi ho hu

/-! ### None of them discards its transaction -/

theorem definite_getMembershipRow {β : Type} (o u : Uuid) :
    Definite (getMembershipRow o u : Tx β (Option Membership)) := by
  refine .call fun ans => ?_
  cases ans with
  | ok m => exact .done _
  | error e => cases e <;> first | exact .done _ | exact .fault _

theorem definite_pair {β : Type} (kind kind' value value' : String) :
    Definite (do
      let a ← parseID kind value
      let b ← parseID kind' value'
      pure (a, b) : Tx β (Uuid × Uuid)) :=
  definite_bind (definite_parseID _ _) fun _ => definite_bind (definite_parseID _ _)
    fun _ => .done _

theorem definite_requireAnotherActive (atStake : Bool) (o : Uuid) :
    Definite (requireAnotherActive atStake o) := by
  unfold requireAnotherActive
  split
  · exact definite_bind (definite_stmt _ _) fun _ => definite_failIf _ _
  · exact .done _

theorem definite_request {c : OrgCommand} (h : Requests env op c) (now : Time) (id : Uuid) :
    Definite (op.body now id) := by
  cases h with
  | createOrg =>
      refine definite_bind (definite_parseID _ _) fun _ => ?_
      refine definite_bind (definite_parseID _ _) fun _ => ?_
      refine definite_bind (definite_stmt _ _) fun _ => ?_
      exact definite_bind (definite_stmt _ _) fun _ => definite_emitEvents _ _
  | addMember =>
      refine definite_bind (definite_pair _ _ _ _) fun _ => ?_
      refine definite_bind (definite_stmtOne _ _) fun _ => ?_
      refine definite_bind (definite_getMembershipRow _ _) fun found => ?_
      cases found with
      | some m => exact .done _
      | none => exact definite_bind (definite_stmt _ _) fun _ => definite_emitEvents _ _
  | updateMemberStatus =>
      refine definite_bind (definite_pair _ _ _ _) fun _ => ?_
      refine definite_bind (definite_stmtOne _ _) fun _ => ?_
      refine definite_bind (definite_getMembershipRow _ _) fun found => ?_
      cases found with
      | none => exact .fault _
      | some current =>
          refine definite_bind (definite_requireAnotherActive _ _) fun _ => ?_
          refine definite_bind (definite_stmt _ _) fun _ => ?_
          split
          · exact definite_emitEvents _ _
          · exact .done _
  | removeMember =>
      refine definite_bind (definite_pair _ _ _ _) fun _ => ?_
      refine definite_bind (definite_stmtOne _ _) fun _ => ?_
      refine definite_bind (definite_getMembershipRow _ _) fun found => ?_
      cases found with
      | none => exact .fault _
      | some current =>
          refine definite_bind (definite_requireAnotherActive _ _) fun _ => ?_
          exact definite_bind (definite_stmt _ _) fun _ => definite_emitEvents _ _
  | createInvite => exact definite_createInvite _
  | revokeInvite =>
      refine definite_bind (definite_pair _ _ _ _) fun _ => ?_
      exact definite_bind (definite_stmt _ _) fun _ => definite_failIf _ _
  | acceptInvite =>
      refine definite_bind (definite_pair _ _ _ _) fun _ => ?_
      refine definite_bind (definite_parseID _ _) fun _ => ?_
      refine definite_bind (definite_stmtOne _ _) fun _ => ?_
      refine definite_bind ?_ fun _ => ?_
      · refine definite_bind (definite_getMembershipRow _ _) fun found => ?_
        cases found with
        | some m => exact definite_failIf _ _
        | none => exact .done _
      · refine definite_bind (definite_stmt _ _) fun _ => ?_
        refine definite_bind (definite_failIf _ _) fun _ => ?_
        exact definite_bind (definite_stmt _ _) fun _ => definite_emitEvents _ _

/-- Every call of the organization store gets through exactly when its command is possible in the
directory.  It then has exactly the effect of the command; otherwise it is refused and leaves the
database as it was. -/
theorem calls_exact (hdb : db.Integrity) {c : OrgCommand} (h : Requests env op c) :
    ((directory env db).Guard c ∧ (op.exec env now id pick db).1.isOk = true ∧
        directory env (op.exec env now id pick db).2 = (directory env db).effect c) ∨
      (¬ (directory env db).Guard c ∧ (op.exec env now id pick db).1.isOk = false ∧
        (op.exec env now id pick db).2 = db) := by
  have himp : Implements env now id pick db op c := implements_request hdb h
  cases hres : (op.exec env now id pick db).1 with
  | ok v =>
      obtain ⟨hguard, heffect⟩ := himp.sound v _ (commits_of_exec (definite_request h now id) hres)
      exact .inl ⟨hguard, rfl, heffect⟩
  | error e =>
      refine .inr ⟨fun hguard => ?_, rfl, exec_error_db hres⟩
      obtain ⟨v, db', hcommits⟩ := himp.complete hguard
      rw [exec_of_commits hcommits] at hres
      cases hres

/-! ### Runs -/

/-- The call writes none of the tables that the directory is read off. -/
def Aside (op : Store.Op) : Prop :=
  ∀ n ∈ [TableName.users, .orgs, .memberships, .invites], n ∉ op.writes

/-- A call of the store, with the instant it is made at, the identifier it may draw and what the
database picks among equals.  It stands for a command or has nothing to do with the directory. -/
structure Turn (env : Env) where
  now : Time
  id : Uuid
  pick : Nat
  op : Store.Op
  command : Option OrgCommand
  stands : ∀ c ∈ command, Requests env op c
  aside : command = none → Aside op

def Turn.run (x : Turn env) (db : DB) : DB :=
  (x.op.exec env x.now x.id x.pick db).2

def runAll (turns : List (Turn env)) (db : DB) : DB :=
  turns.foldl (fun db x => x.run db) db

theorem directory_aside (h : Aside op) :
    directory env (op.exec env now id pick db).2 = directory env db := by
  have hsame : ∀ n ∈ [TableName.users, .orgs, .memberships, .invites],
      DB.Same db (op.exec env now id pick db).2 n := fun n hn => exec_same (h n hn) now id pick db
  simp only [List.forall_mem_cons, DB.Same] at hsame
  obtain ⟨husers, horgs, hmembers, hinvites, _⟩ := hsame
  unfold directory
  rw [husers, horgs, hmembers, hinvites]

theorem directory_run (hdb : db.Integrity) (x : Turn env) :
    directory env (x.run db) = (directory env db).performAll x.command.toList := by
  cases hc : x.command with
  | none => exact directory_aside (x.aside hc)
  | some c =>
      show _ = (directory env db).perform c
      unfold State.perform
      rcases calls_exact hdb (x.stands c hc) with ⟨hguard, _, heffect⟩ | ⟨hguard, _, hsame⟩
      · rw [if_pos hguard]
        exact heffect
      · rw [if_neg hguard]
        exact congrArg (directory env) hsame

theorem runAll_integrity (hdb : db.Integrity) (turns : List (Turn env)) :
    (runAll turns db).Integrity := by
  induction turns generalizing db with
  | nil => exact hdb
  | cons x rest ih => exact ih (exec_integrity x.op hdb)

theorem directory_runAll (hdb : db.Integrity) (turns : List (Turn env)) :
    directory env (runAll turns db) =
      (directory env db).performAll (turns.filterMap Turn.command) := by
  induction turns generalizing db with
  | nil => rfl
  | cons x rest ih =>
      have hnext : (x.run db).Integrity := exec_integrity x.op hdb
      have hsplit : (x :: rest).filterMap Turn.command = x.command.toList ++
          rest.filterMap Turn.command := by
        cases hc : x.command <;> simp [hc]
      rw [hsplit, State.performAll, List.foldl_append]
      exact (ih hnext).trans (congrArg (State.performAll · _) (directory_run hdb x))

/-- After any calls the database describes the directory that has carried out their commands, each
if it was possible when it was its turn.  There the next call gets through exactly when its command
is possible; it then has exactly the effect of the command, and otherwise leaves the database as it
was. -/
theorem runs_exact (hdb : db.Integrity) (before : List (Turn env)) {op : Store.Op} {c : OrgCommand}
    (h : Requests env op c) :
    directory env (runAll before db) =
      (directory env db).performAll (before.filterMap Turn.command) ∧
      (((directory env db).performAll (before.filterMap Turn.command)).Guard c ∧
          (op.exec env now id pick (runAll before db)).1.isOk = true ∧
          directory env (op.exec env now id pick (runAll before db)).2 =
            ((directory env db).performAll (before.filterMap Turn.command)).effect c ∨
        ¬ ((directory env db).performAll (before.filterMap Turn.command)).Guard c ∧
          (op.exec env now id pick (runAll before db)).1.isOk = false ∧
          (op.exec env now id pick (runAll before db)).2 = runAll before db) := by
  rw [← directory_runAll hdb before]
  exact ⟨rfl, calls_exact (runAll_integrity hdb before) h⟩

/-- A database with one account. -/
def oneAccount : DB :=
  { DB.empty with
    users := Table.empty.put ⟨Uuid.ofNat 10, some "ann@x", none, none, none, .active,
      none, 1, 1, none⟩ }

theorem oneAccount_integrity : oneAccount.Integrity := by
  have hone :
      ∀ r ∈ oneAccount.users, r =
        ⟨Uuid.ofNat 10, some "ann@x", none, none, none, .active, none, 1, 1, none⟩ := by
    intro r hr
    rcases mem_put.mp hr with rfl | ⟨hold, _⟩
    · rfl
    · exact absurd hold (not_mem_empty r)
  constructor
  · exact fun r hr s hs _ _ _ => (hone r hr).trans (hone s hs).symm
  · exact fun r hr s hs _ _ _ => (hone r hr).trans (hone s hs).symm
  all_goals exact fun r hr => absurd hr (not_mem_empty r)

/-- Its owner founds an organization. -/
def founding : Turn Service.toyEnv where
  now := 5
  id := Uuid.ofNat 0
  pick := 0
  op := .createOrg ⟨(Uuid.ofNat 1).string, "acme", 5, 5⟩ (Uuid.ofNat 10).string
  command := some (.found (Uuid.ofNat 1) (Uuid.ofNat 10))
  stands := by
    rintro c ⟨⟩
    exact .createOrg (Uuid.parse_string _) (Uuid.parse_string _) (by decide) (by decide)
  aside := by simp

/-- Founding it once more is refused and changes nothing. -/
theorem runs_exact_refounding :
    (founding.op.exec Service.toyEnv 6 (Uuid.ofNat 0) 0 (founding.run oneAccount)).1.isOk = false ∧
      (founding.op.exec Service.toyEnv 6 (Uuid.ofNat 0) 0 (founding.run oneAccount)).2 =
        founding.run oneAccount := by
  have hguard :
      (directory Service.toyEnv oneAccount).Guard (.found (Uuid.ofNat 1) (Uuid.ofNat 10)) := by
    refine ⟨?_, _, mem_put.mpr (.inl rfl), rfl⟩
    rintro ⟨r, hr, _⟩
    exact not_mem_empty r hr
  rcases (runs_exact oneAccount_integrity [founding] (founding.stands _ rfl)).2
    with ⟨hagain, _⟩ | ⟨_, hrefused⟩
  · have hdone :
        (directory Service.toyEnv oneAccount).performAll ([founding].filterMap Turn.command) =
        (directory Service.toyEnv oneAccount).effect (.found (Uuid.ofNat 1) (Uuid.ofNat 10)) :=
          if_pos hguard
    rw [hdone] at hagain
    exact absurd (Set.mem_insert _ _) hagain.1
  · exact hrefused

end Exact

end Directory
end OrbitAuth
