import OrbitAuth.Postgres.Atomic

/-!
# Integrity — the constraints of the schema hold in every state

Unique columns and foreign keys are checked by the statements themselves.  Each field of
`DB.Integrity` is one lemma over the `…Change` relations of the tables it mentions, and
`exec_integrity` collects them for store calls.
-/

namespace OrbitAuth
namespace Postgres

open Domain Foundations

section Statements

variable {env : Env} {now : Time} {pick : Nat} {db : DB} {s : Sql} {v : s.Val} {ws : List Write}

/-! ## Unique columns -/

/-- The two unique contacts of an account. -/
def Contact (c : UserRow → Option String) : Prop :=
  c = UserRow.email ∨ c = UserRow.mobile

theorem untaken_contact {t : Table UserRow} {r : UserRow} {c : UserRow → Option String}
    (hc : Contact c) (hfree : Untaken t r) : ∀ s ∈ t, ∀ x, c r = some x → c s ≠ some x := by
  intro s hs
  rcases hc with rfl | rfl
  · exact (hfree s hs).2.1
  · exact (hfree s hs).2.2

theorem eval_contacts {c : UserRow → Option String} (hc : Contact c)
    (h : s.eval env now pick db = .ok (v, ws)) (hdb : db.users.Unique c) :
    (db.applyAll ws).users.Unique c := by
  have hchange := eval_users h
  generalize (db.applyAll ws).users = t at hchange
  cases hchange with
  | same => exact hdb
  | inserted r _ hfree =>
      refine unique_put hdb fun s hs _ => ?_
      exact untaken_contact hc hfree s hs
  | loggedIn id =>
      refine unique_update hdb (key_loggedIn now) fun r => ?_
      rcases hc with rfl | rfl <;> exact fun _ h => h
  | reissued email hash name =>
      refine unique_update hdb (key_reissued now hash name) fun r => ?_
      rcases hc with rfl | rfl <;> exact fun _ h => h
  | verified id at_ =>
      refine unique_update hdb (key_activated now at_) fun r => ?_
      rcases hc with rfl | rfl <;> exact fun _ h => h
  | reseeded id email mobile hash name hs r hr hfree =>
      refine unique_put hdb fun s hs hne => ?_
      exact untaken_contact hc hfree s (mem_erase.mpr ⟨hs, hne⟩)
  | purged before => exact unique_delete hdb

theorem eval_inviteToken (h : s.eval env now pick db = .ok (v, ws))
    (hdb : db.invites.Unique fun i => some i.tokenHash) :
    (db.applyAll ws).invites.Unique fun i => some i.tokenHash := by
  have hchange := eval_invites h
  generalize (db.applyAll ws).invites = t at hchange
  cases hchange with
  | same => exact hdb
  | superseded org email => exact unique_update hdb key_inviteRevoked fun _ _ h => h
  | inserted r expires created hfree =>
      refine unique_put hdb fun s hs _ x hx hsx => ?_
      exact (hfree s hs).2.1 (Option.some.inj (hsx.trans hx.symm))
  | revoked id org => exact unique_update hdb key_inviteRevoked fun _ _ h => h
  | accepted id org acceptedAt =>
      exact unique_update hdb (key_inviteAccepted acceptedAt) fun _ _ h => h
  | purged before => exact unique_delete hdb
  | deserted => exact unique_delete hdb

/-! ## Keys that stay -/

/-- Only a purge takes accounts away. -/
theorem eval_user_stays (h : s.eval env now pick db = .ok (v, ws)) {u : UserRow} (hu : u ∈ db.users)
    (hkept : ∀ before, s = .purgeUnverifiedSignups before → u.purged before = false) :
    ∃ u' ∈ (db.applyAll ws).users, u'.id = u.id := by
  have hchange := eval_users h
  generalize (db.applyAll ws).users = t at hchange
  cases hchange with
  | same => exact ⟨u, hu, rfl⟩
  | inserted r _ _ => exact Table.key_mem_put hu
  | loggedIn id => exact Table.key_mem_update (key_loggedIn now) hu
  | reissued email hash name => exact Table.key_mem_update (key_reissued now hash name) hu
  | verified id at_ => exact Table.key_mem_update (key_activated now at_) hu
  | reseeded id email mobile hash name hs r hr _ => exact Table.key_mem_put hu
  | purged before => exact ⟨u, mem_delete.mpr ⟨hu, hkept before rfl⟩, rfl⟩

/-- Only organizations that nobody belongs to are taken away. -/
theorem eval_org_stays (h : s.eval env now pick db = .ok (v, ws)) {o : OrgRow} (ho : o ∈ db.orgs)
    (hkept : s = .deleteEmptyOrganizations → Deserted db o = false) :
    ∃ o' ∈ (db.applyAll ws).orgs, o'.id = o.id := by
  have hchange := eval_orgs h
  generalize (db.applyAll ws).orgs = t at hchange
  cases hchange with
  | same => exact ⟨o, ho, rfl⟩
  | inserted r _ _ _ => exact Table.key_mem_put ho
  | deserted => exact ⟨o, mem_delete.mpr ⟨ho, hkept rfl⟩, rfl⟩

theorem mem_purgedIDs_of_purged {before : Option Time} {u : UserRow} (hu : u ∈ db.users)
    (hp : u.purged before = true) : u.id ∈ purgedIDs db before :=
  List.mem_map.mpr ⟨u, mem_select.mpr ⟨hu, hp⟩, rfl⟩

theorem mem_desertedIDs {o : OrgRow} (ho : o ∈ db.orgs) (hd : Deserted db o = true) :
    o.id ∈ desertedIDs db :=
  List.mem_map.mpr ⟨o, mem_select.mpr ⟨ho, hd⟩, rfl⟩

/-! ## Foreign keys -/

/-- Where a membership comes from: an older version of it, or an insert that checked its references.
-/
theorem membership_origin (h : s.eval env now pick db = .ok (v, ws)) {m : MembershipRow}
    (hm : m ∈ (db.applyAll ws).memberships) :
    (∃ m' ∈ db.memberships, m'.orgID = m.orgID ∧ m'.userID = m.userID) ∨
      (∃ o ∈ db.orgs, o.id = m.orgID) ∧ ∃ u ∈ db.users, u.id = m.userID := by
  have hchange := eval_memberships h
  generalize (db.applyAll ws).memberships = t at hchange hm
  cases hchange with
  | same => exact .inl ⟨m, hm, rfl, rfl⟩
  | inserted r _ _ horg huser =>
      rcases mem_put.mp hm with rfl | ⟨hm, _⟩
      · exact .inr ⟨horg, huser⟩
      · exact .inl ⟨m, hm, rfl, rfl⟩
  | activated r hr _ =>
      rcases mem_put.mp hm with rfl | ⟨hm, _⟩
      · exact .inl ⟨r, hr, rfl, rfl⟩
      · exact .inl ⟨m, hm, rfl, rfl⟩
  | restatused status r hr =>
      rcases mem_put.mp hm with rfl | ⟨hm, _⟩
      · exact .inl ⟨r, hr, rfl, rfl⟩
      · exact .inl ⟨m, hm, rfl, rfl⟩
  | removed org user => exact .inl ⟨m, (mem_erase.mp hm).1, rfl, rfl⟩
  | purged before => exact .inl ⟨m, (mem_delete.mp hm).1, rfl, rfl⟩

/-- A purge leaves no membership of a purged account behind. -/
theorem membership_kept {before : Option Time} {n : Nat}
    (h : purgeUnverifiedSignups db before = .ok (n, ws)) {m : MembershipRow}
    (hm : m ∈ (db.applyAll ws).memberships) : m.userID ∉ purgedIDs db before := by
  rw [memberships_purge h] at hm
  simpa using (mem_delete.mp hm).2

theorem eval_membershipUser (h : s.eval env now pick db = .ok (v, ws))
    (hdb : ∀ m ∈ db.memberships, ∃ u ∈ db.users, u.id = m.userID) :
    ∀ m ∈ (db.applyAll ws).memberships, ∃ u ∈ (db.applyAll ws).users, u.id = m.userID := by
  intro m hm
  have hold : ∃ u ∈ db.users, u.id = m.userID := by
    rcases membership_origin h hm with ⟨m', hm', _, huser⟩ | ⟨_, huser⟩
    · exact huser ▸ hdb m' hm'
    · exact huser
  obtain ⟨u, hu, hid⟩ := hold
  have hstays : ∃ u' ∈ (db.applyAll ws).users, u'.id = u.id := by
    refine eval_user_stays h hu ?_
    intro before hs
    subst hs
    by_contra hp
    have hmem := mem_purgedIDs_of_purged hu (by simpa using hp)
    exact membership_kept h hm (hid ▸ hmem)
  obtain ⟨u', hu', hid'⟩ := hstays
  exact ⟨u', hu', hid'.trans hid⟩

theorem eval_membershipOrg (h : s.eval env now pick db = .ok (v, ws))
    (hdb : ∀ m ∈ db.memberships, ∃ o ∈ db.orgs, o.id = m.orgID) :
    ∀ m ∈ (db.applyAll ws).memberships, ∃ o ∈ (db.applyAll ws).orgs, o.id = m.orgID := by
  intro m hm
  have hold : ∃ o ∈ db.orgs, o.id = m.orgID := by
    rcases membership_origin h hm with ⟨m', hm', horg, _⟩ | ⟨horg, _⟩
    · exact horg ▸ hdb m' hm'
    · exact horg
  obtain ⟨o, ho, hid⟩ := hold
  have hstays : ∃ o' ∈ (db.applyAll ws).orgs, o'.id = o.id := by
    refine eval_org_stays h ho ?_
    intro hs
    subst hs
    -- the statement does not touch the memberships, so `m` was there before it
    have hn : TableName.memberships ∉ Sql.deleteEmptyOrganizations.writes := by simp [Sql.writes]
    have hsame : (db.applyAll ws).memberships = db.memberships := eval_same h hn
    rw [hsame] at hm
    simp only [Deserted, Bool.not_eq_false', any_eq_true]
    exact ⟨m, hm, by simp [hid]⟩
  obtain ⟨o', ho', hid'⟩ := hstays
  exact ⟨o', ho', hid'.trans hid⟩

/-- Where an invitation comes from: it was there, perhaps in another status, or the statement
inserted it. -/
theorem invite_origin (h : s.eval env now pick db = .ok (v, ws)) {i : InviteRow}
    (hi : i ∈ (db.applyAll ws).invites) :
    (∃ i' ∈ db.invites, i' = { i with status := i'.status, acceptedAt := i'.acceptedAt }) ∨
      (∃ expires created, s = .createOrganizationInvite i.id i.orgID i.email i.tokenHash i.inviterID
        i.status expires created) ∧
        (∃ o ∈ db.orgs, o.id = i.orgID) ∧ ∃ u ∈ db.users, u.id = i.inviterID := by
  have hchange := eval_invites h
  generalize (db.applyAll ws).invites = t at hchange hi
  cases hchange with
  | same => exact .inl ⟨i, hi, rfl⟩
  | superseded org email =>
      rcases (mem_update key_inviteRevoked).mp hi with ⟨i', hi', _, rfl⟩ | ⟨hi, _⟩
      · exact .inl ⟨i', hi', rfl⟩
      · exact .inl ⟨i, hi, rfl⟩
  | inserted r expires created _ _ horg hinviter =>
      rcases mem_put.mp hi with rfl | ⟨hi, _⟩
      · exact .inr ⟨⟨expires, created, rfl⟩, horg, hinviter⟩
      · exact .inl ⟨i, hi, rfl⟩
  | revoked id org =>
      rcases (mem_update key_inviteRevoked).mp hi with ⟨i', hi', _, rfl⟩ | ⟨hi, _⟩
      · exact .inl ⟨i', hi', rfl⟩
      · exact .inl ⟨i, hi, rfl⟩
  | accepted id org acceptedAt =>
      rcases (mem_update (key_inviteAccepted acceptedAt)).mp hi with ⟨i', hi', _, rfl⟩ | ⟨hi, _⟩
      · exact .inl ⟨i', hi', rfl⟩
      · exact .inl ⟨i, hi, rfl⟩
  | purged before => exact .inl ⟨i, (mem_delete.mp hi).1, rfl⟩
  | deserted => exact .inl ⟨i, (mem_delete.mp hi).1, rfl⟩

theorem eval_inviter (h : s.eval env now pick db = .ok (v, ws))
    (hdb : ∀ i ∈ db.invites, ∃ u ∈ db.users, u.id = i.inviterID) :
    ∀ i ∈ (db.applyAll ws).invites, ∃ u ∈ (db.applyAll ws).users, u.id = i.inviterID := by
  intro i hi
  have hold : ∃ u ∈ db.users, u.id = i.inviterID := by
    rcases invite_origin h hi with ⟨i', hi', hsame⟩ | ⟨_, _, huser⟩
    · have hinviter : i'.inviterID = i.inviterID := by rw [hsame]
      exact hinviter ▸ hdb i' hi'
    · exact huser
  obtain ⟨u, hu, hid⟩ := hold
  have hstays : ∃ u' ∈ (db.applyAll ws).users, u'.id = u.id := by
    refine eval_user_stays h hu ?_
    intro before hs
    subst hs
    by_contra hp
    rw [invites_purge h] at hi
    have hgone : i.inviterID ∉ purgedIDs db before := by simpa using (mem_delete.mp hi).2
    exact hgone (hid ▸ mem_purgedIDs_of_purged hu (by simpa using hp))
  obtain ⟨u', hu', hid'⟩ := hstays
  exact ⟨u', hu', hid'.trans hid⟩

theorem eval_inviteOrg (h : s.eval env now pick db = .ok (v, ws))
    (hdb : ∀ i ∈ db.invites, ∃ o ∈ db.orgs, o.id = i.orgID) :
    ∀ i ∈ (db.applyAll ws).invites, ∃ o ∈ (db.applyAll ws).orgs, o.id = i.orgID := by
  intro i hi
  have hold : ∃ o ∈ db.orgs, o.id = i.orgID := by
    rcases invite_origin h hi with ⟨i', hi', hsame⟩ | ⟨_, horg, _⟩
    · have hsameOrg : i'.orgID = i.orgID := by rw [hsame]
      exact hsameOrg ▸ hdb i' hi'
    · exact horg
  obtain ⟨o, ho, hid⟩ := hold
  have hstays : ∃ o' ∈ (db.applyAll ws).orgs, o'.id = o.id := by
    refine eval_org_stays h ho ?_
    intro hs
    subst hs
    by_contra hd
    rw [invites_deleteEmpty h] at hi
    have hgone : i.orgID ∉ desertedIDs db := by simpa using (mem_delete.mp hi).2
    exact hgone (hid ▸ mem_desertedIDs ho (by simpa using hd))
  obtain ⟨o', ho', hid'⟩ := hstays
  exact ⟨o', ho', hid'.trans hid⟩

/-- A purge that goes through takes no account with an API token. -/
theorem apiToken_kept {before : Option Time} {n : Nat}
    (h : purgeUnverifiedSignups db before = .ok (n, ws)) {t : APITokenRow} (ht : t ∈ db.apiTokens) :
    t.userID ∉ purgedIDs db before := by
  unfold purgeUnverifiedSignups at h
  dsimp only at h
  split at h
  · cases h
  · rename_i hnone
    have hnone : ∀ t ∈ db.apiTokens, t.userID ∉ purgedIDs db before := by
      intro t ht hmem
      exact hnone (any_eq_true.mpr ⟨t, ht, decide_eq_true hmem⟩)
    exact hnone t ht

theorem eval_apiTokenUser (h : s.eval env now pick db = .ok (v, ws))
    (hdb : ∀ t ∈ db.apiTokens, ∃ u ∈ db.users, u.id = t.userID) :
    ∀ t ∈ (db.applyAll ws).apiTokens, ∃ u ∈ (db.applyAll ws).users, u.id = t.userID := by
  intro t ht
  have hold : ∃ u ∈ db.users, u.id = t.userID := by
    have hchange := eval_apiTokens h
    generalize (db.applyAll ws).apiTokens = tokens at hchange ht
    cases hchange with
    | same => exact hdb t ht
    | inserted r scopes expires huser =>
        rcases mem_put.mp ht with rfl | ⟨ht, _⟩
        · exact huser
        · exact hdb t ht
    | revoked id user =>
        rcases (mem_update (key_retired now)).mp ht with ⟨t', ht', _, rfl⟩ | ⟨ht, _⟩
        · exact hdb t' ht'
        · exact hdb t ht
  obtain ⟨u, hu, hid⟩ := hold
  -- only the purge removes accounts, and it fails while a token refers to one of them
  have hstays : ∃ u' ∈ (db.applyAll ws).users, u'.id = u.id := by
    refine eval_user_stays h hu ?_
    intro before hs
    subst hs
    by_contra hp
    have hn : TableName.apiTokens ∉
      (Sql.purgeUnverifiedSignups before).writes := by simp [Sql.writes]
    have hsame : (db.applyAll ws).apiTokens = db.apiTokens := eval_same h hn
    rw [hsame] at ht
    exact apiToken_kept h ht (hid ▸ mem_purgedIDs_of_purged hu (by simpa using hp))
  obtain ⟨u', hu', hid'⟩ := hstays
  exact ⟨u', hu', hid'.trans hid⟩

/-- Every statement keeps the constraints. -/
theorem eval_integrity (h : s.eval env now pick db = .ok (v, ws)) (hdb : db.Integrity) :
    (db.applyAll ws).Integrity where
  email := eval_contacts (.inl rfl) h hdb.email
  mobile := eval_contacts (.inr rfl) h hdb.mobile
  inviteToken := by
    have hold : db.invites.Unique fun i => some i.tokenHash := by
      intro a ha b hb x hax hbx
      exact hdb.inviteToken a ha b hb (Option.some.inj (hax.trans hbx.symm))
    intro a ha b hb hab
    exact eval_inviteToken h hold a ha b hb a.tokenHash rfl (congrArg some hab.symm)
  membershipOrg := eval_membershipOrg h hdb.membershipOrg
  membershipUser := eval_membershipUser h hdb.membershipUser
  inviteOrg := eval_inviteOrg h hdb.inviteOrg
  inviter := eval_inviter h hdb.inviter
  apiTokenUser := eval_apiTokenUser h hdb.apiTokenUser

end Statements

/-- Every store call keeps the constraints. -/
theorem Store.exec_integrity {env : Env} {now : Time} {id : Uuid} {pick : Nat} {db : DB}
    (o : Store.Op) (hdb : db.Integrity) : (o.exec env now id pick db).2.Integrity := by
  have hrel : db.Integrity → (o.exec env now id pick db).2.Integrity := by
    refine Store.exec_rel_all (R := fun db db' => db.Integrity → db'.Integrity) (fun _ h => h)
      (fun _ _ _ h₁ h₂ h => h₂ (h₁ h)) ?_ o id pick db
    intro s pick db v ws heval hdb
    exact eval_integrity heval hdb
  exact hrel hdb

end Postgres
end OrbitAuth
