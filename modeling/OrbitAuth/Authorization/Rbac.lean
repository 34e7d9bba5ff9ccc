import Mathlib.Data.List.Sort
import Mathlib.Data.String.Basic
import OrbitAuth.Foundations.Table

/-!
# Rbac — the in-process authorizer

`rbac.go` with the catalog it consults and the in-memory store of `memstore`.  Permissions, role
keys, subjects and organizations are the product's own texts.

A role map is a function from role keys to the set of permissions collected under the key, so that
several definitions with one key add up as they do in the source.

* `check_allowed_iff` — the meaning of an allowed `Check`;
* `allowedScopes_all_iff`, `mem_allowedScopes` — the meaning of the answers of `AllowedScopes`;
* `canGrant_iff` — the meaning of `CanGrant`.
-/

namespace OrbitAuth
namespace Authorization

open Foundations

abbrev Permission := String

/-! ## Definitions of the package -/

structure Scope where
  type : String
  id : String
  deriving DecidableEq, Repr

structure Resource where
  orgID : String
  scopes : List Scope
  deriving DecidableEq, Repr

structure RoleDef where
  key : String
  permissions : List Permission
  system : Bool
  deriving DecidableEq, Repr

variable {roles : List RoleDef} {permission : Permission}

structure Assignment where
  orgID : String
  subject : String
  roleKey : String
  scope : Scope
  deriving DecidableEq, Repr

structure Principal where
  subject : String
  orgID : String
  deriving DecidableEq, Repr

inductive Reason
  | noOrg
  | orgMismatch
  | unknownPermission
  | noGrant
  | granted
  deriving DecidableEq, Repr

structure Decision where
  allowed : Bool
  reason : Reason
  deriving DecidableEq, Repr

def deny (reason : Reason) : Decision where
  allowed := false
  reason := reason

structure PermissionSpec where
  key : Permission
  description : String
  deriving DecidableEq, Repr

instance : Keyed PermissionSpec Permission := ⟨PermissionSpec.key⟩

structure Catalog where
  specs : Table PermissionSpec

def Catalog.has (c : Catalog) (permission : Permission) : Bool :=
  (c.specs.find? permission).isSome

/-- What a failing store reports. -/
abbrev StoreError := String

/-- The port a product implements over its own tables. -/
structure Store where
  roles : String → Except StoreError (List RoleDef)
  assignments : String → String → Except StoreError (List Assignment)

inductive CheckError
  | roles (orgID : String) (cause : StoreError)
  | assignments (subject orgID : String) (cause : StoreError)
  deriving DecidableEq, Repr

/-- `none` is a nil pointer or interface.  A nil receiver is the one with neither: the source guards
every field access so that the two behave alike. -/
structure Rbac where
  catalog : Option Catalog
  store : Option Store

/-! ## Roles and scopes -/

abbrev RoleMap := String → Option (List Permission)

def addRole (byRole : RoleMap) (role : RoleDef) : RoleMap := fun key =>
  if key = role.key then some ((byRole key).getD [] ++ role.permissions) else byRole key

def permissionsByRole (roles : List RoleDef) : RoleMap :=
  roles.foldl addRole fun _ => none

/-- The role is defined and has the permission. -/
def RoleMap.confers (byRole : RoleMap) (roleKey : String) (permission : Permission) : Bool :=
  match byRole roleKey with
  | none => false
  | some permissions => permission ∈ permissions

def assignmentApplies (scope : Scope) (scopes : List Scope) : Bool :=
  scope.type = "" || scopes.any fun resourceScope => resourceScope = scope

/-! ## Decisions -/

def Rbac.hasPermission (r : Rbac) (permission : Permission) : Bool :=
  r.catalog.any fun c => c.has permission

/-- The loop of `Check`. -/
def anyGrant (byRole : RoleMap) (p : Principal) (permission : Permission) (scopes : List Scope)
    (assignments : List Assignment) : Bool :=
  assignments.any fun a =>
    a.orgID = p.orgID && a.subject = p.subject && byRole.confers a.roleKey permission &&
      assignmentApplies a.scope scopes

def Rbac.check (r : Rbac) (p : Principal) (permission : Permission) (resource : Resource) :
    Decision × Option CheckError :=
  if p.orgID = "" then (deny .noOrg, none)
  else if resource.orgID ≠ p.orgID then (deny .orgMismatch, none)
  else if p.subject = "" then (deny .noGrant, none)
  else if !r.hasPermission permission then (deny .unknownPermission, none)
  else
    match r.store with
    | none => (deny .noGrant, none)
    | some store =>
        match store.roles p.orgID with
        | .error e => (deny .noGrant, some (.roles p.orgID e))
        | .ok roles =>
            match store.assignments p.orgID p.subject with
            | .error e => (deny .noGrant, some (.assignments p.subject p.orgID e))
            | .ok assignments =>
                if anyGrant (permissionsByRole roles) p permission resource.scopes assignments then
                  (⟨true, .granted⟩, none)
                else (deny .noGrant, none)

/-- What `AllowedScopes` returns beside its error.  `ids = none` is a nil slice. -/
structure ScopeList where
  all : Bool
  ids : Option (List String)
  deriving DecidableEq, Repr

/-- The ids a caller ranges over. -/
def ScopeList.listed (l : ScopeList) : List String :=
  l.ids.getD []

/-- The loop of `AllowedScopes` with the ids seen so far; an organization-wide grant ends it. -/
def scopeIDs (byRole : RoleMap) (p : Principal) (permission : Permission) (scopeType : String) :
    List String → List Assignment → Option (List String)
  | ids, [] => some ids
  | ids, a :: rest =>
      if a.orgID = p.orgID && a.subject = p.subject && byRole.confers a.roleKey permission then
        if a.scope.type = "" then none
        else if a.scope.type = scopeType && a.scope.id ≠ "" then
          scopeIDs byRole p permission scopeType (ids.insert a.scope.id) rest
        else scopeIDs byRole p permission scopeType ids rest
      else scopeIDs byRole p permission scopeType ids rest

def Rbac.allowedScopes (r : Rbac) (p : Principal) (permission : Permission) (scopeType : String) :
    ScopeList × Option CheckError :=
  if p.orgID = "" || p.subject = "" then (⟨false, none⟩, none)
  else if !r.hasPermission permission then (⟨false, none⟩, none)
  else
    match r.store with
    | none => (⟨false, some []⟩, none)
    | some store =>
        match store.roles p.orgID with
        | .error e => (⟨false, none⟩, some (.roles p.orgID e))
        | .ok roles =>
            match store.assignments p.orgID p.subject with
            | .error e => (⟨false, none⟩, some (.assignments p.subject p.orgID e))
            | .ok assignments =>
                match scopeIDs (permissionsByRole roles) p permission scopeType [] assignments with
                | none => (⟨true, none⟩, none)
                | some ids => (⟨false, some (ids.insertionSort (· ≤ ·))⟩, none)

/-- An assignment of the granter gives the permission on the target's scope. -/
def heldBy (byRole : RoleMap) (granter : List Assignment) (target : Assignment)
    (permission : Permission) : Bool :=
  granter.any fun a =>
    a.orgID = target.orgID && byRole.confers a.roleKey permission &&
      (a.scope.type = "" || a.scope = target.scope)

def canGrant (granter : List Assignment) (roles : List RoleDef) (target : Assignment) : Bool :=
  if target.orgID = "" then false
  else
    match permissionsByRole roles target.roleKey with
    | none => false
    | some targetPermissions =>
        targetPermissions.all (heldBy (permissionsByRole roles) granter target)

/-! ## Meaning -/

/-- Some definition with this key lists the permission. -/
def Confers (roles : List RoleDef) (roleKey : String) (permission : Permission) : Prop :=
  ∃ role ∈ roles, role.key = roleKey ∧ permission ∈ role.permissions

theorem confers_foldl (roles : List RoleDef) (roleKey : String) (permission : Permission) :
    ∀ byRole : RoleMap, (roles.foldl addRole byRole).confers roleKey permission = true ↔
      byRole.confers roleKey permission = true ∨ Confers roles roleKey permission := by
  induction roles with
  | nil =>
      intro byRole
      simp [Confers]
  | cons role roles ih =>
      intro byRole
      have hstep : (addRole byRole role).confers roleKey permission = true ↔
          byRole.confers roleKey permission = true ∨
            (role.key = roleKey ∧ permission ∈ role.permissions) := by
        unfold RoleMap.confers addRole
        by_cases hkey : roleKey = role.key
        · cases byRole roleKey <;> simp [← hkey]
        · have hkey' : ¬ role.key = roleKey := fun h => hkey h.symm
          simp [hkey, hkey']
      rw [List.foldl_cons, ih, hstep, or_assoc]
      simp [Confers]

theorem confers_iff {roleKey : String} :
    (permissionsByRole roles).confers roleKey permission = true ↔
      Confers roles roleKey permission := by
  unfold permissionsByRole
  rw [confers_foldl]
  simp [RoleMap.confers]

theorem mem_of_permissionsByRole {roleKey : String} {permissions : List Permission}
    (h : permissionsByRole roles roleKey = some permissions) :
    permission ∈ permissions ↔ Confers roles roleKey permission := by
  rw [← confers_iff]
  simp [RoleMap.confers, h]

/-- The assignment is organization-wide or names a scope of the resource. -/
def Scope.Applies (scope : Scope) (scopes : List Scope) : Prop :=
  scope.type = "" ∨ scope ∈ scopes

theorem assignmentApplies_iff {scope : Scope} {scopes : List Scope} :
    assignmentApplies scope scopes = true ↔ scope.Applies scopes := by
  simp [assignmentApplies, Scope.Applies]

/-- An assignment for exactly this principal that gives the permission on the scopes. -/
def Granted (roles : List RoleDef) (assignments : List Assignment) (p : Principal)
    (permission : Permission) (scopes : List Scope) : Prop :=
  ∃ a ∈ assignments, a.orgID = p.orgID ∧ a.subject = p.subject ∧
    Confers roles a.roleKey permission ∧ a.scope.Applies scopes

theorem anyGrant_iff {assignments : List Assignment} {p : Principal} {scopes : List Scope} :
    anyGrant (permissionsByRole roles) p permission scopes assignments = true ↔
      Granted roles assignments p permission scopes := by
  simp [anyGrant, Granted, confers_iff, assignmentApplies_iff, and_assoc]

theorem check_allowed_iff {r : Rbac} {p : Principal} {resource : Resource} :
    (r.check p permission resource).1.allowed = true ↔
      p.orgID ≠ "" ∧ resource.orgID = p.orgID ∧ p.subject ≠ "" ∧
        r.hasPermission permission = true ∧
        ∃ store roles assignments, r.store = some store ∧ store.roles p.orgID = .ok roles ∧
          store.assignments p.orgID p.subject = .ok assignments ∧
          Granted roles assignments p permission resource.scopes := by
  unfold Rbac.check
  -- the refusals in the order of the source; each falsifies one conjunct
  by_cases horg : p.orgID = ""
  · simp [horg, deny]
  by_cases hres : resource.orgID = p.orgID
  swap
  · simp [horg, hres, deny]
  by_cases hsub : p.subject = ""
  · simp [horg, hres, hsub, deny]
  cases hperm : r.hasPermission permission with
  | false => simp [horg, hres, hsub, deny]
  | true =>
      cases hstore : r.store with
      | none => simp [horg, hres, hsub, deny]
      | some store =>
          cases hroles : store.roles p.orgID with
          | error e => simp [horg, hres, hsub, deny, hroles]
          | ok roles =>
              cases hassign : store.assignments p.orgID p.subject with
              | error e => simp [horg, hres, hsub, deny, hroles, hassign]
              | ok assignments =>
                  -- no early refusal: the loop over the assignments decides
                  cases hany : anyGrant (permissionsByRole roles) p permission resource.scopes
                      assignments with
                  | true =>
                      have hgranted := anyGrant_iff.1 hany
                      simp [horg, hres, hsub, hroles, hassign, hany, hgranted]
                  | false =>
                      have hnone : ¬ Granted roles assignments p permission resource.scopes := by
                        intro hgranted
                        rw [anyGrant_iff.2 hgranted] at hany
                        cases hany
                      simp [horg, hres, hsub, hroles, hassign, hany, hnone, deny]

/-! ### Lists of scopes -/

section Scopes

variable {roles : List RoleDef} {p : Principal} {permission : Permission}

/-- The assignment is for exactly this principal and its role has the permission. -/
def Assignment.Gives (roles : List RoleDef) (p : Principal) (permission : Permission)
    (a : Assignment) : Prop :=
  a.orgID = p.orgID ∧ a.subject = p.subject ∧ Confers roles a.roleKey permission

theorem gives_iff {a : Assignment} :
    (a.orgID = p.orgID && a.subject = p.subject &&
      (permissionsByRole roles).confers a.roleKey permission) = true ↔
      a.Gives roles p permission := by
  simp [Assignment.Gives, confers_iff, and_assoc]

/-- Some assignment gives the principal the permission under `scope`. -/
def GrantedUnder (roles : List RoleDef) (assignments : List Assignment) (p : Principal)
    (permission : Permission) (scope : Scope) : Prop :=
  ∃ a ∈ assignments, a.Gives roles p permission ∧ a.scope = scope

theorem grantedUnder_cons {a : Assignment} {rest : List Assignment} {scope : Scope} :
    GrantedUnder roles (a :: rest) p permission scope ↔
      (a.Gives roles p permission ∧ a.scope = scope) ∨
      GrantedUnder roles rest p permission scope := by
  simp [GrantedUnder]

/-- One round of the loop at an assignment that is not an organization-wide grant. -/
theorem scopeIDs_step {a : Assignment} (hnarrow : a.Gives roles p permission → a.scope.type ≠ "")
    (scopeType : String) {ids : List String} (hnodup : ids.Nodup) (rest : List Assignment) :
    ∃ ids' : List String, ids'.Nodup ∧
      (∀ id, id ∈ ids' ↔
        id ∈ ids ∨ (id ≠ "" ∧ a.Gives roles p permission ∧ a.scope = ⟨scopeType, id⟩)) ∧
      scopeIDs (permissionsByRole roles) p permission scopeType ids (a :: rest) =
        scopeIDs (permissionsByRole roles) p permission scopeType ids' rest := by
  by_cases hgives : a.Gives roles p permission
  · by_cases hseen : a.scope.type = scopeType ∧ a.scope.id ≠ ""
    · refine ⟨ids.insert a.scope.id, hnodup.insert, fun id => ?_, ?_⟩
      · rw [List.mem_insert_iff]
        constructor
        · rintro (rfl | hid)
          · exact .inr ⟨hseen.2, hgives, by rw [← hseen.1]⟩
          · exact .inl hid
        · rintro (hid | ⟨_, _, hscope⟩)
          · exact .inr hid
          · exact .inl (by rw [hscope])
      · rw [scopeIDs, if_pos (gives_iff.mpr hgives), if_neg (hnarrow hgives),
          if_pos (by simpa using hseen)]
    -- a grant of another scope type, or without an id, adds nothing
    · refine ⟨ids, hnodup, fun id => ?_, ?_⟩
      · have hother : id ≠ "" → a.scope ≠ ⟨scopeType, id⟩ := by
          intro hne h
          exact hseen ⟨by rw [h], by rw [h]; exact hne⟩
        tauto
      · rw [scopeIDs, if_pos (gives_iff.mpr hgives), if_neg (hnarrow hgives),
          if_neg (by simpa using hseen)]
  · refine ⟨ids, hnodup, fun id => by tauto, ?_⟩
    rw [scopeIDs, if_neg (mt gives_iff.mp hgives)]

/-- The loop ends early exactly at an organization-wide grant; else it has the ids it began with and
those of the scopes of the type. -/
theorem scopeIDs_spec (roles : List RoleDef) (p : Principal) (permission : Permission)
    (scopeType : String) (assignments : List Assignment) :
    ∀ {ids : List String}, ids.Nodup →
      match scopeIDs (permissionsByRole roles) p permission scopeType ids assignments with
      | none => ∃ id, GrantedUnder roles assignments p permission ⟨"", id⟩
      | some found => found.Nodup ∧ (∀ id, ¬ GrantedUnder roles assignments p permission ⟨"", id⟩) ∧
          ∀ id, id ∈ found ↔
            id ∈ ids ∨ (id ≠ "" ∧ GrantedUnder roles assignments p permission ⟨scopeType, id⟩) := by
  induction assignments with
  | nil =>
      intro ids hnodup
      simp [scopeIDs, GrantedUnder, hnodup]
  -- the ids found so far are general, since the loop hands on a longer list
  | cons a rest ih =>
      intro ids hnodup
      by_cases hwide : a.Gives roles p permission ∧ a.scope.type = ""
      · rw [scopeIDs, if_pos (gives_iff.mpr hwide.1), if_pos hwide.2]
        exact ⟨a.scope.id, grantedUnder_cons.mpr (.inl ⟨hwide.1, by rw [← hwide.2]⟩)⟩
      · rw [not_and] at hwide
        obtain ⟨ids', hnodup', hids, hloop⟩ := scopeIDs_step hwide scopeType hnodup rest
        rw [hloop]
        have hspec := ih hnodup'
        revert hspec
        cases scopeIDs (permissionsByRole roles) p permission scopeType ids' rest with
        | none =>
            rintro ⟨id, hid⟩
            exact ⟨id, grantedUnder_cons.mpr (.inr hid)⟩
        | some found =>
            rintro ⟨hfound, hnone, hmem⟩
            refine ⟨hfound, fun id h => ?_, fun id => ?_⟩
            · rcases grantedUnder_cons.mp h with ⟨hgives, hscope⟩ | h
              · exact hwide hgives (by rw [hscope])
              · exact hnone id h
            · rw [hmem, hids, grantedUnder_cons]
              tauto

variable {catalog : Option Catalog} {store : Store} {assignments : List Assignment}

/-- What `AllowedScopes` answers for a principal whose store can be read. -/
theorem allowedScopes_eq (horg : p.orgID ≠ "") (hsubject : p.subject ≠ "")
    (hroles : store.roles p.orgID = .ok roles)
    (hassign : store.assignments p.orgID p.subject = .ok assignments) (scopeType : String) :
    (Rbac.mk catalog (some store)).allowedScopes p permission scopeType =
      if !(Rbac.mk catalog (some store)).hasPermission permission then (⟨false, none⟩, none)
      else
        match scopeIDs (permissionsByRole roles) p permission scopeType [] assignments with
        | none => (⟨true, none⟩, none)
        | some ids => (⟨false, some (ids.insertionSort (· ≤ ·))⟩, none) := by
  unfold Rbac.allowedScopes
  rw [if_neg (by simp [horg, hsubject])]
  simp only [hroles, hassign]

/-- `all`: the permission is known and given by an organization-wide assignment. -/
theorem allowedScopes_all_iff (horg : p.orgID ≠ "") (hsubject : p.subject ≠ "")
    (hroles : store.roles p.orgID = .ok roles)
    (hassign : store.assignments p.orgID p.subject = .ok assignments) (scopeType : String) :
    ((Rbac.mk catalog (some store)).allowedScopes p permission scopeType).1.all = true ↔
      (Rbac.mk catalog (some store)).hasPermission permission = true ∧
        ∃ id, GrantedUnder roles assignments p permission ⟨"", id⟩ := by
  rw [allowedScopes_eq horg hsubject hroles hassign]
  cases (Rbac.mk catalog (some store)).hasPermission permission with
  | false => simp
  | true =>
      have hspec := scopeIDs_spec roles p permission scopeType assignments List.nodup_nil
      revert hspec
      cases scopeIDs (permissionsByRole roles) p permission scopeType [] assignments with
      | none =>
          intro hwide
          simpa using hwide
      | some found =>
          rintro ⟨_, hnone, _⟩
          simpa using hnone

/-- The ids: without an organization-wide grant, the non-empty ones of the scopes of the type. -/
theorem mem_allowedScopes (horg : p.orgID ≠ "") (hsubject : p.subject ≠ "")
    (hroles : store.roles p.orgID = .ok roles)
    (hassign : store.assignments p.orgID p.subject = .ok assignments) {scopeType id : String} :
    id ∈ ((Rbac.mk catalog (some store)).allowedScopes p permission scopeType).1.listed ↔
      (Rbac.mk catalog (some store)).hasPermission permission = true ∧
        (∀ id, ¬ GrantedUnder roles assignments p permission ⟨"", id⟩) ∧
        id ≠ "" ∧ GrantedUnder roles assignments p permission ⟨scopeType, id⟩ := by
  rw [allowedScopes_eq horg hsubject hroles hassign]
  cases (Rbac.mk catalog (some store)).hasPermission permission with
  | false => simp [ScopeList.listed]
  | true =>
      have hspec := scopeIDs_spec roles p permission scopeType assignments List.nodup_nil
      revert hspec
      cases scopeIDs (permissionsByRole roles) p permission scopeType [] assignments with
      | none =>
          rintro ⟨wide, hwide⟩
          simp only [ScopeList.listed]
          constructor
          · intro h
            cases h
          · rintro ⟨_, hnone, _⟩
            exact absurd hwide (hnone wide)
      | some found =>
          rintro ⟨_, hnone, hmem⟩
          have hlisted : id ∈ found.insertionSort (· ≤ ·) ↔
              id ≠ "" ∧ GrantedUnder roles assignments p permission ⟨scopeType, id⟩ := by
            rw [List.mem_insertionSort, hmem]
            simp
          exact hlisted.trans ⟨fun h => ⟨rfl, hnone, h⟩, fun h => h.2.2⟩

/-- The ids are in strictly increasing order. -/
theorem allowedScopes_increasing (r : Rbac) (p : Principal) (permission : Permission)
    (scopeType : String) :
    (r.allowedScopes p permission scopeType).1.listed.Pairwise (· < ·) := by
  have hnil : ([] : List String).Pairwise (· < ·) := List.Pairwise.nil
  unfold Rbac.allowedScopes
  -- every refusal answers with no ids
  split
  · exact hnil
  · split
    · exact hnil
    · split
      · exact hnil
      · split
        · exact hnil
        · rename_i roles _
          split
          · exact hnil
          · rename_i assignments _
            have hspec := scopeIDs_spec roles p permission scopeType assignments List.nodup_nil
            revert hspec
            cases scopeIDs (permissionsByRole roles) p permission scopeType [] assignments with
            | none => exact fun _ => hnil
            | some found =>
                rintro ⟨hnodup, _, _⟩
                -- sorted without repetitions, hence strictly
                have hne : (found.insertionSort (· ≤ ·)).Nodup :=
                  (List.perm_insertionSort _ _).nodup_iff.mpr hnodup
                exact ((List.pairwise_insertionSort _ _).sortedLE.sortedLT_of_nodup hne).pairwise

end Scopes

/-- The granter holds the permission on the target's scope, or organization-wide. -/
def Holds (roles : List RoleDef) (granter : List Assignment) (target : Assignment)
    (permission : Permission) : Prop :=
  ∃ a ∈ granter, a.orgID = target.orgID ∧ Confers roles a.roleKey permission ∧
    (a.scope.type = "" ∨ a.scope = target.scope)

theorem heldBy_iff {granter : List Assignment} {target : Assignment} :
    heldBy (permissionsByRole roles) granter target permission = true ↔
      Holds roles granter target permission := by
  simp [heldBy, Holds, confers_iff, and_assoc]

theorem canGrant_iff {granter : List Assignment} {target : Assignment} :
    canGrant granter roles target = true ↔
      target.orgID ≠ "" ∧ permissionsByRole roles target.roleKey ≠ none ∧
        ∀ permission, Confers roles target.roleKey permission →
          Holds roles granter target permission := by
  unfold canGrant
  by_cases horg : target.orgID = ""
  · simp [horg]
  cases hrole : permissionsByRole roles target.roleKey with
  | none => simp [horg]
  | some permissions =>
      simp only [horg, if_false, List.all_eq_true, heldBy_iff, mem_of_permissionsByRole hrole]
      exact ⟨fun h => ⟨horg, by simp, h⟩, fun h => h.2.2⟩

end Authorization
end OrbitAuth
