import OrbitAuth.Authorization.Rbac
import OrbitAuth.Domain.Text

/-!
# Policy — catalogs, validated roles and the deprecated evaluator

`catalog.go` and `policy.go`.  Both validate identifiers with one pattern; the loops stop at the
first value they refuse.  A Go map is a table of its entries, in the order in which `range` visits
them.

* `newCatalog_has` — a catalog holds the permissions it was made from;
* `validateRoles_ok` — what validated roles are;
* `newEvaluator_ok`, `allows_iff`, `mem_permissions`, `permissions_increasing` — what an evaluator
  answers, from the policy it was made from.
-/

namespace OrbitAuth
namespace Authorization

open Foundations

/-! ## Identifiers -/

/-- The errors of the package: plain, with one `%q`, or the one with two. -/
inductive PolicyError
  | message (text : String)
  | quoted (before value after : String)
  | references (role permission : String)
  deriving DecidableEq, Repr

theorem bind_ok {α β : Type} {x : Except PolicyError α} {f : α → Except PolicyError β} {b : β} :
    (x >>= f) = .ok b ↔ ∃ a, x = .ok a ∧ f a = .ok b := by
  cases x with
  | error e => simp [bind, Except.bind]
  | ok a => simp [bind, Except.bind]

def isLower (c : Char) : Bool :=
  'a' ≤ c && c ≤ 'z'

/-- The pattern `^[a-z][a-z0-9_.-]*$`. -/
def isIdentifier (value : String) : Bool :=
  match value.toList with
  | [] => false
  | c :: cs => isLower c &&
      cs.all fun c => isLower c || ('0' ≤ c && c ≤ '9') || c = '_' || c = '.' || c = '-'

def validateIdentifier (kind value : String) : Except PolicyError Unit :=
  if value ≠ Domain.trimSpace value || !isIdentifier value then
    .error (.quoted ("invalid " ++ kind ++ " identifier ") value "")
  else .ok ()

theorem isIdentifier_of_ok {kind value : String} {u : Unit}
    (h : validateIdentifier kind value = .ok u) :
    isIdentifier value = true := by
  unfold validateIdentifier at h
  split at h
  · cases h
  · rename_i hnot
    simp only [Bool.or_eq_true, Bool.not_eq_true', not_or, Bool.not_eq_false] at hnot
    exact hnot.2

theorem ne_empty_of_identifier {value : String} (h : isIdentifier value = true) : value ≠ "" := by
  rintro rfl
  cases h

/-! ## Catalogs -/

def catalogLoop : List PermissionSpec → Table PermissionSpec →
    Except PolicyError (Table PermissionSpec)
  | [], specs => .ok specs
  | spec :: rest, specs => do
      validateIdentifier "permission" spec.key
      if (specs.find? spec.key).isSome then .error (.quoted "duplicate permission " spec.key "")
      else catalogLoop rest (specs.put spec)

def newCatalog (perms : List PermissionSpec) : Except PolicyError Catalog := do
  let specs ← catalogLoop perms Table.empty
  pure ⟨specs⟩

theorem has_iff {c : Catalog} {permission : Permission} :
    c.has permission = true ↔ ∃ spec ∈ c.specs, spec.key = permission := by
  unfold Catalog.has
  rw [Option.isSome_iff_exists]
  constructor
  · rintro ⟨spec, hspec⟩
    exact ⟨spec, find?_eq_some.mp hspec⟩
  · rintro ⟨spec, hspec⟩
    exact ⟨spec, find?_eq_some.mpr hspec⟩

theorem catalogLoop_mem {perms : List PermissionSpec} {specs specs' : Table PermissionSpec}
    (h : catalogLoop perms specs = .ok specs') (permission : Permission) :
    (∃ spec ∈ specs', spec.key = permission) ↔
      (∃ spec ∈ specs, spec.key = permission) ∨ ∃ spec ∈ perms, spec.key = permission := by
  induction perms generalizing specs with
  | nil =>
      cases h
      simp
  | cons spec rest ih =>
      obtain ⟨_, _, hloop⟩ := bind_ok.mp h
      split at hloop
      · cases hloop
      · rename_i hnew
        -- no spec of that key yet, so nothing is overwritten
        have hfree : ∀ s ∈ specs, s.key ≠ spec.key := by
          rw [Bool.not_eq_true, Option.isSome_eq_false_iff, Option.isNone_iff_eq_none,
            find?_eq_none] at hnew
          exact hnew
        have hput : (∃ s ∈ specs.put spec, s.key = permission) ↔
            (∃ s ∈ specs, s.key = permission) ∨ spec.key = permission := by
          constructor
          · rintro ⟨s, hs, hkey⟩
            rcases mem_put.mp hs with rfl | ⟨hs, _⟩
            · exact .inr hkey
            · exact .inl ⟨s, hs, hkey⟩
          · rintro (⟨s, hs, hkey⟩ | hkey)
            · exact ⟨s, mem_put.mpr (.inr ⟨hs, hfree s hs⟩), hkey⟩
            · exact ⟨spec, mem_put.mpr (.inl rfl), hkey⟩
        rw [ih hloop, hput, or_assoc]
        simp

theorem newCatalog_has {perms : List PermissionSpec} {c : Catalog} (h : newCatalog perms = .ok c)
    (permission : Permission) : c.has permission = true ↔ ∃ spec ∈ perms, spec.key =
      permission := by
  obtain ⟨specs, hloop, hc⟩ := bind_ok.mp h
  cases hc
  rw [has_iff, catalogLoop_mem hloop]
  simp

/-! ## Validated roles -/

def validatePermissions (catalog : Catalog) (roleKey : String) :
    List Permission → Except PolicyError Unit
  | [] => .ok ()
  | permission :: rest => do
      validateIdentifier "permission" permission
      if !catalog.has permission then .error (.references roleKey permission)
      else validatePermissions catalog roleKey rest

def validateLoop (catalog : Catalog) : List String → List RoleDef → Except PolicyError Unit
  | _, [] => .ok ()
  | seen, role :: rest => do
      validateIdentifier "role" role.key
      if role.key ∈ seen then .error (.quoted "duplicate role " role.key "")
      else do
        validatePermissions catalog role.key role.permissions
        validateLoop catalog (role.key :: seen) rest

def validateRoles (catalog : Option Catalog) (roles : List RoleDef) : Except PolicyError Unit :=
  match catalog with
  | none => .error (.message "authorization catalog is required")
  | some catalog => validateLoop catalog [] roles

theorem validatePermissions_ok {catalog : Catalog} {roleKey : String}
    {permissions : List Permission} (h : validatePermissions catalog roleKey permissions = .ok ()) :
    ∀ permission ∈ permissions, catalog.has permission = true := by
  induction permissions with
  | nil => simp
  | cons permission rest ih =>
      obtain ⟨_, _, hrest⟩ := bind_ok.mp h
      split at hrest
      · cases hrest
      · rename_i hhas
        rw [Bool.not_eq_true, Bool.not_eq_false'] at hhas
        intro q hq
        rcases List.mem_cons.mp hq with rfl | hq
        · exact hhas
        · exact ih hrest q hq

/-- Validated roles have different keys and grant permissions of the catalog. -/
structure Validated (catalog : Catalog) (roles : List RoleDef) : Prop where
  known : ∀ role ∈ roles, ∀ permission ∈ role.permissions, catalog.has permission = true
  distinct : (roles.map RoleDef.key).Nodup

theorem validateLoop_ok {catalog : Catalog} {seen : List String} {roles : List RoleDef}
    (h : validateLoop catalog seen roles = .ok ()) :
    Validated catalog roles ∧ ∀ role ∈ roles, role.key ∉ seen := by
  induction roles generalizing seen with
  | nil => exact ⟨⟨by simp, List.nodup_nil⟩, by simp⟩
  | cons role rest ih =>
      obtain ⟨_, _, hnext⟩ := bind_ok.mp h
      split at hnext
      · cases hnext
      · rename_i hnew
        -- the rest is validated with this key among those seen
        obtain ⟨_, hperms, hloop⟩ := bind_ok.mp hnext
        obtain ⟨hrest, hseen⟩ := ih hloop
        refine ⟨⟨?_, ?_⟩, ?_⟩
        · intro r hr
          rcases List.mem_cons.mp hr with rfl | hr
          · exact validatePermissions_ok hperms
          · exact hrest.known r hr
        · rw [List.map_cons, List.nodup_cons]
          refine ⟨?_, hrest.distinct⟩
          intro hmem
          obtain ⟨r, hr, hkey⟩ := List.mem_map.mp hmem
          exact hseen r hr (by rw [hkey]; exact List.mem_cons_self)
        · intro r hr
          rcases List.mem_cons.mp hr with rfl | hr
          · exact hnew
          · exact fun hmem => hseen r hr (List.mem_cons_of_mem _ hmem)

theorem validateRoles_ok {catalog : Option Catalog} {roles : List RoleDef}
    (h : validateRoles catalog roles = .ok ()) :
    ∃ c, catalog = some c ∧ Validated c roles := by
  cases catalog with
  | none => cases h
  | some c => exact ⟨c, rfl, (validateLoop_ok h).1⟩

/-! ## The evaluator -/

abbrev Role := String

/-- One entry of a policy. -/
structure PolicyEntry where
  role : Role
  grants : List Permission
  deriving DecidableEq, Repr

instance : Keyed PolicyEntry Role := ⟨PolicyEntry.role⟩

abbrev Policy := Table PolicyEntry

structure Evaluator where
  permissions : RoleMap

def validateGrants : List Permission → Except PolicyError Unit
  | [] => .ok ()
  | permission :: rest => do
      validateIdentifier "permission" permission
      validateGrants rest

def evaluatorLoop : List PolicyEntry → RoleMap → Except PolicyError RoleMap
  | [], permissions => .ok permissions
  | entry :: rest, permissions => do
      validateIdentifier "role" entry.role
      if entry.grants.isEmpty then
        .error (.quoted "role " entry.role " must grant at least one permission")
      else do
        validateGrants entry.grants
        evaluatorLoop rest fun role => if role =
          entry.role then some entry.grants else permissions role

def newEvaluator (policy : Policy) : Except PolicyError Evaluator :=
  if policy.rows.isEmpty then .error (.message "authorization policy must define at least one role")
  else do
    let permissions ← evaluatorLoop policy.rows fun _ => none
    pure ⟨permissions⟩

/-- `none` is a nil evaluator. -/
def Evaluator.allows (e : Option Evaluator) (roles : List Role) (permission : Permission) : Bool :=
  match e with
  | none => false
  | some e => permission ≠ "" && roles.any fun role => e.permissions.confers role permission

/-- The set of the permissions of the roles, each once. -/
def Evaluator.collect (e : Evaluator) (roles : List Role) : List Permission :=
  roles.foldl (fun set role => ((e.permissions role).getD []).foldl (fun set p => set.insert p) set)
  []

def Evaluator.permissionsOf (e : Option Evaluator) (roles : List Role) : List Permission :=
  match e with
  | none => []
  | some e => (e.collect roles).insertionSort (· ≤ ·)

theorem validateGrants_ok {grants : List Permission} (h : validateGrants grants = .ok ()) :
    ∀ permission ∈ grants, isIdentifier permission = true := by
  induction grants with
  | nil => simp
  | cons permission rest ih =>
      obtain ⟨_, hvalid, hrest⟩ := bind_ok.mp h
      intro q hq
      rcases List.mem_cons.mp hq with rfl | hq
      · exact isIdentifier_of_ok hvalid
      · exact ih hrest q hq

/-- The loop: what it had, overwritten by the entries; every permission is an identifier. -/
theorem evaluatorLoop_ok {entries : List PolicyEntry} {before after : RoleMap}
    (hdistinct : (entries.map PolicyEntry.role).Nodup)
    (h : evaluatorLoop entries before = .ok after) :
    (∀ entry ∈ entries, after entry.role = some entry.grants ∧
      ∀ permission ∈ entry.grants, isIdentifier permission = true) ∧
    ∀ role, role ∉ entries.map PolicyEntry.role → after role = before role := by
  induction entries generalizing before with
  | nil =>
      cases h
      simp
  -- roles are distinct, so the rest of the loop does not overwrite the entry
  | cons entry rest ih =>
      rw [List.map_cons, List.nodup_cons] at hdistinct
      obtain ⟨_, _, hnext⟩ := bind_ok.mp h
      split at hnext
      · cases hnext
      · obtain ⟨_, hgrants, hloop⟩ := bind_ok.mp hnext
        obtain ⟨hentries, hothers⟩ := ih hdistinct.2 hloop
        refine ⟨?_, ?_⟩
        · intro x hx
          rcases List.mem_cons.mp hx with rfl | hx
          · refine ⟨?_, validateGrants_ok hgrants⟩
            rw [hothers x.role hdistinct.1, if_pos rfl]
          · exact hentries x hx
        · intro role hrole
          rw [List.map_cons, List.mem_cons, not_or] at hrole
          rw [hothers role hrole.2, if_neg hrole.1]

/-- An accepted policy: the evaluator confers what the entries grant, and no permission is empty. -/
structure Accepted (policy : Policy) (e : Evaluator) : Prop where
  confers : ∀ role permission, e.permissions.confers role permission = true ↔
    ∃ entry ∈ policy, entry.role = role ∧ permission ∈ entry.grants
  nonempty : ∀ entry ∈ policy, ∀ permission ∈ entry.grants, permission ≠ ""

theorem newEvaluator_ok {policy : Policy} {e : Evaluator} (h : newEvaluator policy = .ok e) :
    Accepted policy e := by
  unfold newEvaluator at h
  split at h
  · cases h
  · obtain ⟨permissions, hloop, he⟩ := bind_ok.mp h
    have hmap : e.permissions = permissions :=
      (congrArg Evaluator.permissions (Except.ok.inj he)).symm
    obtain ⟨hentries, hothers⟩ := evaluatorLoop_ok policy.nodup hloop
    refine ⟨?_, ?_⟩
    · intro role permission
      rw [hmap, RoleMap.confers]
      by_cases hrole : role ∈ policy.rows.map PolicyEntry.role
      · obtain ⟨entry, hentry, rfl⟩ := List.mem_map.mp hrole
        rw [(hentries entry hentry).1]
        simp only [decide_eq_true_eq]
        constructor
        · exact fun hp => ⟨entry, hentry, rfl, hp⟩
        · rintro ⟨other, hother, hkey, hp⟩
          rw [← eq_of_key hother hentry hkey]
          exact hp
      · rw [hothers role hrole]
        simp only [Bool.false_eq_true, false_iff]
        rintro ⟨entry, hentry, rfl, _⟩
        exact hrole (List.mem_map_of_mem hentry)
    · intro entry hentry permission hp
      exact ne_empty_of_identifier ((hentries entry hentry).2 permission hp)

section Evaluator

variable {policy : Policy} {e : Evaluator} {roles : List Role} {permission : Permission}

theorem allows_iff (h : Accepted policy e) :
    Evaluator.allows (some e) roles permission = true ↔
      ∃ role ∈ roles, ∃ entry ∈ policy, entry.role = role ∧ permission ∈ entry.grants := by
  simp only [Evaluator.allows, Bool.and_eq_true, decide_eq_true_eq, List.any_eq_true, h.confers]
  constructor
  · exact fun hboth => hboth.2
  · rintro ⟨role, hrole, entry, hentry, hkey, hp⟩
    exact ⟨h.nonempty entry hentry permission hp, role, hrole, entry, hentry, hkey, hp⟩

theorem mem_insertAll (ps set : List Permission) :
    permission ∈ ps.foldl (fun set p => set.insert p) set ↔ permission ∈ set ∨ permission ∈ ps := by
  induction ps generalizing set with
  | nil => simp
  | cons p ps ih =>
      rw [List.foldl_cons, ih, List.mem_insert_iff, List.mem_cons]
      tauto

theorem nodup_insertAll (ps : List Permission) {set : List Permission} (h : set.Nodup) :
    (ps.foldl (fun set p => set.insert p) set).Nodup := by
  induction ps generalizing set with
  | nil => exact h
  | cons p ps ih => exact ih h.insert

/-- The set of permissions of the roles: each of them, once. -/
theorem collect_spec (e : Evaluator) (roles : List Role) :
    (e.collect roles).Nodup ∧ ∀ permission, permission ∈ e.collect roles ↔
      ∃ role ∈ roles, e.permissions.confers role permission = true := by
  -- over an arbitrary set, since the loop collects into one set for all roles
  have hgeneral : ∀ set : List Permission, set.Nodup →
      (roles.foldl (fun set role => ((e.permissions role).getD []).foldl
        (fun set p => set.insert p) set) set).Nodup ∧
      ∀ permission, permission ∈ roles.foldl
          (fun set role => ((e.permissions role).getD []).foldl (fun set p => set.insert p) set)
            set ↔
        permission ∈ set ∨ ∃ role ∈ roles, e.permissions.confers role permission = true := by
    induction roles with
    | nil =>
        intro set hset
        simp [hset]
    | cons role roles ih =>
        intro set hset
        obtain ⟨hnodup, hmem⟩ := ih _ (nodup_insertAll ((e.permissions role).getD []) hset)
        refine ⟨hnodup, fun permission => ?_⟩
        have hrole : permission ∈ (e.permissions role).getD [] ↔
            e.permissions.confers role permission = true := by
          unfold RoleMap.confers
          cases e.permissions role <;> simp
        rw [List.foldl_cons, hmem, mem_insertAll, hrole]
        simp only [List.mem_cons, exists_eq_or_imp, or_assoc]
  obtain ⟨hnodup, hmem⟩ := hgeneral [] List.nodup_nil
  refine ⟨hnodup, fun permission => (hmem permission).trans ?_⟩
  simp

theorem mem_permissions (h : Accepted policy e) :
    permission ∈ Evaluator.permissionsOf (some e) roles ↔
      ∃ role ∈ roles, ∃ entry ∈ policy, entry.role = role ∧ permission ∈ entry.grants := by
  rw [Evaluator.permissionsOf, List.mem_insertionSort, (collect_spec e roles).2]
  simp only [h.confers]

/-- The permissions are in strictly increasing order. -/
theorem permissions_increasing (e : Option Evaluator) (roles : List Role) :
    (Evaluator.permissionsOf e roles).Pairwise (· < ·) := by
  cases e with
  | none => exact List.Pairwise.nil
  | some e =>
      have hne : ((e.collect roles).insertionSort (· ≤ ·)).Nodup :=
        (List.perm_insertionSort _ _).nodup_iff.mpr (collect_spec e roles).1
      exact ((List.pairwise_insertionSort _ _).sortedLE.sortedLT_of_nodup hne).pairwise

end Evaluator

end Authorization
end OrbitAuth
