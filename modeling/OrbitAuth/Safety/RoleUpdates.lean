import OrbitAuth.Authorization.Memstore
import OrbitAuth.Authorization.Policy

/-!
# RoleUpdates — does `AddRole` replace the role?

`AddRole` overwrites the first definition with the key and stops; the authorizer adds up all
definitions with a key.  What a role gives is observed from outside: by a check with one
organization-wide assignment of it (`probe`).

* `confers_updated` — what each role gives after `AddRole`, from the list before it;
* `replaces_iff` — the role then gives what it lists and every other role what it gave, exactly when
  no later definition with its key lists anything else;
* `replaces_reached` — so it is in every run in which `SetRoles` is given roles with different keys;
* `second_definition_stays` — a run in which it is not.
-/

namespace OrbitAuth
namespace Authorization
namespace RoleUpdates

open Foundations

/-! ## What a role gives -/

/-- A way to look at a role: somebody gets it for a whole organization and asks for a permission. -/
structure Probe where
  catalog : Catalog
  subject : String
  scopeID : String
  scopes : List Scope
  named : subject ≠ ""

/-- The check of a permission with a single, organization-wide assignment of the role. -/
def Probe.allows (t : Probe) (s : Memstore) (orgID key : String) (permission : Permission) : Bool :=
  let given := s.setAssignments orgID t.subject [⟨orgID, t.subject, key, ⟨"", t.scopeID⟩⟩]
  ((Rbac.mk (some t.catalog) (some given.store)).check ⟨t.subject, orgID⟩ permission
    ⟨orgID, t.scopes⟩).1.allowed

theorem probe_iff {t : Probe} {permission : Permission} (hknown : t.catalog.has permission = true)
    (s : Memstore) (orgID key : String) :
    t.allows s orgID key permission = true ↔ orgID ≠ "" ∧
    Confers (s.roles orgID) key permission := by
  have hassign :
      (s.setAssignments orgID t.subject [⟨orgID, t.subject, key, ⟨"", t.scopeID⟩⟩]).assignments
        orgID t.subject = [⟨orgID, t.subject, key, ⟨"", t.scopeID⟩⟩] := if_pos ⟨rfl, rfl⟩
  unfold Probe.allows
  rw [check_allowed_iff]
  constructor
  · rintro ⟨horg, _, _, _, store, roles, assignments, hstore, hroles, hassignments, a, ha, _,
      _, hconfers, _⟩
    cases hstore
    cases hroles
    cases hassignments
    rw [hassign, List.mem_singleton] at ha
    rw [ha] at hconfers
    exact ⟨horg, hconfers⟩
  · rintro ⟨horg, hconfers⟩
    refine ⟨horg, rfl, t.named, hknown, _, _, _, rfl, rfl, rfl, ?_⟩
    rw [hassign]
    exact ⟨_, List.mem_singleton_self _, rfl, rfl, hconfers, .inl rfl⟩

/-! ## The list after `AddRole` -/

/-- The roles of the organization after `AddRole`. -/
def updated (role : RoleDef) (roles : List RoleDef) : List RoleDef :=
  (Memstore.replaceRole role roles).getD (roles ++ [role])

theorem updated_cons (role r : RoleDef) (rest : List RoleDef) :
    updated role (r :: rest) = if r.key = role.key then role :: rest else r :: updated
      role rest := by
  unfold updated
  rw [Memstore.replaceRole]
  split
  · rfl
  · cases Memstore.replaceRole role rest <;> rfl

/-- The definitions with a key, but the first. -/
def later (key : String) (roles : List RoleDef) : List RoleDef :=
  (roles.filter fun r => r.key = key).tail

theorem confers_cons {r : RoleDef} {rest : List RoleDef} {key : String} {permission : Permission} :
    Confers (r :: rest) key permission ↔
      (r.key = key ∧ permission ∈ r.permissions) ∨ Confers rest key permission := by
  simp [Confers]

/-- The role gives what it lists, and what later definitions of its key list. -/
theorem confers_updated (role : RoleDef) (roles : List RoleDef) (permission : Permission) :
    Confers (updated role roles) role.key permission ↔
      permission ∈ role.permissions ∨ ∃ r ∈ later role.key roles, permission ∈ r.permissions := by
  induction roles with
  | nil => simp [updated, Memstore.replaceRole, Confers, later]
  | cons r rest ih =>
      rw [updated_cons]
      split
      · rename_i hkey
        -- the definition that is overwritten: the rest stays as it is
        have hlater : later role.key (r :: rest) = rest.filter fun r => r.key = role.key := by
          rw [later, List.filter_cons_of_pos (by simp [hkey]), List.tail_cons]
        rw [confers_cons, hlater]
        simp only [true_and, Confers, List.mem_filter, decide_eq_true_eq]
        refine or_congr_right (exists_congr fun x => ?_)
        tauto
      · rename_i hkey
        have hlater : later role.key (r :: rest) = later role.key rest := by
          rw [later, List.filter_cons_of_neg (by simp [hkey])]
          rfl
        rw [confers_cons, hlater, ih]
        simp [hkey]

/-- Every other key gives what it gave. -/
theorem confers_updated_other {role : RoleDef} {key : String} (hkey : key ≠ role.key)
    (roles : List RoleDef) (permission : Permission) :
    Confers (updated role roles) key permission ↔ Confers roles key permission := by
  induction roles with
  | nil => simp [updated, Memstore.replaceRole, Confers, hkey.symm]
  | cons r rest ih =>
      rw [updated_cons]
      split
      · rename_i hr
        have hr' : r.key ≠ key := fun h => hkey (h.symm.trans hr)
        rw [confers_cons, confers_cons]
        simp [hkey.symm, hr']
      · rw [confers_cons, confers_cons, ih]

theorem roles_addRole (s : Memstore) (orgID : String) (role : RoleDef) (o : String) :
    (s.addRole orgID role).roles o = if o = orgID then updated role (s.roles orgID)
      else s.roles o :=
  rfl

/-! ## Replacing a role -/

/-- After `AddRole` the role gives what it lists, and every other role and organization is as
before. -/
structure Replaces (s : Memstore) (orgID : String) (role : RoleDef) : Prop where
  replaced : ∀ (t : Probe) (permission : Permission), t.catalog.has permission = true →
    (t.allows (s.addRole orgID role) orgID role.key permission = true ↔
    permission ∈ role.permissions)
  others : ∀ (t : Probe) (o key : String) (permission : Permission),
    t.catalog.has permission = true →
    (o ≠ orgID ∨ key ≠ role.key) →
      t.allows (s.addRole orgID role) o key permission = t.allows s o key permission

/-- A later definition of the key lists a permission that the new one does not. -/
def leftOver (s : Memstore) (orgID : String) (role : RoleDef) : Bool :=
  (later role.key (s.roles orgID)).any fun r => r.permissions.any fun permission =>
    permission ∉ role.permissions

/-- Nothing is left over.  Nobody has a permission in the organization without a name. -/
def replaceable (s : Memstore) (orgID : String) (role : RoleDef) : Bool :=
  if orgID = "" then role.permissions.isEmpty else !leftOver s orgID role

theorem leftOver_eq_false {s : Memstore} {orgID : String} {role : RoleDef} :
    leftOver s orgID role = false ↔
      ∀ r ∈ later role.key (s.roles orgID), ∀ permission ∈ r.permissions,
      permission ∈ role.permissions := by
  simp [leftOver]

theorem others_unchanged (s : Memstore) (orgID : String) (role : RoleDef) (t : Probe)
    {o key : String} {permission : Permission} (hknown : t.catalog.has permission = true)
    (hother : o ≠ orgID ∨ key ≠ role.key) :
    t.allows (s.addRole orgID role) o key permission = t.allows s o key permission := by
  rw [Bool.eq_iff_iff, probe_iff hknown, probe_iff hknown, roles_addRole]
  by_cases horg : o = orgID
  · have hkey : key ≠ role.key := hother.resolve_left fun h => h horg
    rw [if_pos horg, confers_updated_other hkey, horg]
  · rw [if_neg horg]

theorem replaces_of_replaceable {s : Memstore} {orgID : String} {role : RoleDef}
    (h : replaceable s orgID role = true) : Replaces s orgID role := by
  refine ⟨?_, fun t o key permission hknown => others_unchanged s orgID role t hknown⟩
  intro t permission hknown
  rw [probe_iff hknown, roles_addRole, if_pos rfl, confers_updated]
  unfold replaceable at h
  by_cases horg : orgID = ""
  · rw [if_pos horg, List.isEmpty_iff] at h
    simp [horg, h]
  · rw [if_neg horg, Bool.not_eq_true', leftOver_eq_false] at h
    constructor
    · rintro ⟨_, hlisted | ⟨r, hr, hlisted⟩⟩
      · exact hlisted
      · exact h r hr permission hlisted
    · exact fun hlisted => ⟨horg, .inl hlisted⟩

/-- The probe whose catalog knows one permission. -/
def Probe.of (permission : Permission) : Probe where
  catalog := ⟨Table.empty.put ⟨permission, ""⟩⟩
  subject := "ann"
  scopeID := ""
  scopes := []
  named := by decide

theorem has_probe (permission : Permission) : (Probe.of permission).catalog.has permission = true :=
  has_iff.mpr ⟨⟨permission, ""⟩, mem_put.mpr (.inl rfl), rfl⟩

/-- `AddRole` replaces a role exactly when no later definition of its key lists a permission that
the new one does not. -/
theorem replaces_iff (s : Memstore) (orgID : String) (role : RoleDef) :
    Replaces s orgID role ↔ replaceable s orgID role = true := by
  constructor
  · intro h
    have hgives :
        ∀ permission, (orgID ≠ "" ∧ Confers (updated role (s.roles orgID)) role.key permission) ↔
        permission ∈ role.permissions := by
      intro permission
      have hprobe := h.replaced (Probe.of permission) permission (has_probe permission)
      rw [probe_iff (has_probe permission), roles_addRole, if_pos rfl] at hprobe
      exact hprobe
    unfold replaceable
    by_cases horg : orgID = ""
    · rw [if_pos horg, List.isEmpty_iff, List.eq_nil_iff_forall_not_mem]
      intro permission hlisted
      exact ((hgives permission).mpr hlisted).1 horg
    · rw [if_neg horg, Bool.not_eq_true', leftOver_eq_false]
      intro r hr permission hlisted
      exact (hgives permission).mp
        ⟨horg, (confers_updated role _ permission).mpr (.inr ⟨r, hr, hlisted⟩)⟩
  · exact replaces_of_replaceable

/-- `SetRoles` leaves two definitions of one key; after `AddRole` the second one still counts. -/
theorem second_definition_stays :
    let s := Memstore.new.setRoles "org" [⟨"clerk", ["stock.read"], false⟩,
      ⟨"clerk", ["stock.move"], false⟩]
    let role : RoleDef := ⟨"clerk", ["stock.count"], false⟩
    (Probe.of "stock.move").catalog.has "stock.move" = true ∧
      (Probe.of "stock.move").allows (s.addRole "org" role) "org" "clerk" "stock.move" = true ∧
      "stock.move" ∉ role.permissions := by
  decide +kernel

/-! ## Runs with different keys -/

/-- The states that the four operations lead to, where `SetRoles` is given roles with different
keys. -/
inductive Reached : Memstore → Prop
  | new : Reached Memstore.new
  | setRoles {s : Memstore} (h : Reached s) (orgID : String) (roles : List RoleDef)
      (hkeys : (roles.map RoleDef.key).Nodup) : Reached (s.setRoles orgID roles)
  | addRole {s : Memstore} (h : Reached s) (orgID : String) (role : RoleDef) :
      Reached (s.addRole orgID role)
  | setAssignments {s : Memstore} (h : Reached s) (orgID subject : String)
      (assignments : List Assignment) :
      Reached (s.setAssignments orgID subject assignments)
  | addAssignment {s : Memstore} (h : Reached s) (a : Assignment) : Reached (s.addAssignment a)

theorem keys_updated (role : RoleDef) (roles : List RoleDef) :
    (updated role roles).map RoleDef.key =
      if role.key ∈ roles.map RoleDef.key then roles.map RoleDef.key
      else roles.map RoleDef.key ++ [role.key] := by
  induction roles with
  | nil => simp [updated, Memstore.replaceRole]
  | cons r rest ih =>
      rw [updated_cons]
      by_cases hkey : r.key = role.key
      · simp [hkey]
      · have hkey' : role.key ≠ r.key := fun h => hkey h.symm
        rw [if_neg hkey, List.map_cons, ih, List.map_cons]
        by_cases hmem : role.key ∈ rest.map RoleDef.key
        · rw [if_pos hmem, if_pos (List.mem_cons_of_mem _ hmem)]
        · rw [if_neg hmem, if_neg (by simpa [hkey'] using hmem), List.cons_append]

theorem nodup_updated (role : RoleDef) {roles : List RoleDef} (h : (roles.map RoleDef.key).Nodup) :
    ((updated role roles).map RoleDef.key).Nodup := by
  rw [keys_updated]
  split
  · exact h
  · rename_i hnew
    refine List.nodup_append.mpr ⟨h, List.nodup_singleton _, ?_⟩
    intro key hkey other hother
    rw [List.mem_singleton] at hother
    rintro rfl
    exact hnew (hother ▸ hkey)

/-- Every operation keeps the keys of each organization different. -/
theorem nodup_reached {s : Memstore} (h : Reached s) (o : String) :
    ((s.roles o).map RoleDef.key).Nodup := by
  induction h with
  | new => exact List.nodup_nil
  | setRoles h orgID roles hkeys ih =>
      by_cases ho : o = orgID
      · rw [show (Memstore.setRoles _ orgID roles).roles o = roles from if_pos ho]
        exact hkeys
      · rw [show (Memstore.setRoles _ orgID roles).roles o = _ from if_neg ho]
        exact ih
  | addRole h orgID role ih =>
      rw [roles_addRole]
      split
      · rename_i ho
        exact nodup_updated role (ho ▸ ih)
      · exact ih
  | setAssignments h orgID subject assignments ih => exact ih
  | addAssignment h a ih => exact ih

/-- With different keys there is one definition of each. -/
theorem later_eq_nil {key : String} {roles : List RoleDef} (h : (roles.map RoleDef.key).Nodup) :
    later key roles = [] := by
  have hsub : ((roles.filter fun r => r.key = key).map RoleDef.key).Nodup :=
    h.sublist (List.filter_sublist.map _)
  have hall : ∀ r ∈ roles.filter fun r => r.key = key, r.key = key := by
    intro r hr
    simpa using (List.mem_filter.mp hr).2
  unfold later
  cases hf : roles.filter fun r => r.key = key with
  | nil => rfl
  | cons r rest =>
      rw [List.tail_cons, List.eq_nil_iff_forall_not_mem]
      intro x hx
      rw [hf] at hsub hall
      rw [List.map_cons, List.nodup_cons] at hsub
      refine hsub.1 ?_
      have hsame : r.key = x.key :=
        (hall r List.mem_cons_self).trans (hall x (List.mem_cons_of_mem _ hx)).symm
      exact hsame ▸ List.mem_map_of_mem hx

/-- In such a run `AddRole` replaces the role, in every organization that has a name. -/
theorem replaces_reached {s : Memstore} (h : Reached s) {orgID : String} (horg : orgID ≠ "")
    (role : RoleDef) : Replaces s orgID role := by
  refine replaces_of_replaceable ?_
  rw [replaceable, if_neg horg, leftOver, later_eq_nil (nodup_reached h orgID)]
  rfl

/-- An editor who may also publish is cut back to reading. -/
theorem replaces_reached_editor :
    Replaces (Memstore.new.setRoles "acme" [⟨"editor", ["read", "publish"], false⟩]) "acme"
      ⟨"editor", ["read"], false⟩ :=
  replaces_reached (.setRoles .new _ _ (by decide)) (by decide) _

end RoleUpdates
end Authorization
end OrbitAuth
