import OrbitAuth.Authorization.Policy

/-!
# Decisions — what `Check` and `CanGrant` mean

`Check` folds the roles into a map and runs over the assignments; `Permits` says the same as one
existential over what the store returns.  From that form it is clear what the answer can depend on:
which permissions, roles, assignments and scopes there are, not their order or how often they occur,
and more of them never take a permission away.

`CanGrant` runs over the permissions of the target's role.  Where the role has none, nobody is asked
anything.

* `check_means_permits` — an allowed check is `Permits`, which is monotone in all it reads;
* `keepsOut_iff` — only someone with a role in the organization may grant there, exactly when the
  target's role has a permission;
* `outsider_grants` — a role without permissions that an outsider may grant.
-/

namespace OrbitAuth
namespace Authorization
namespace Decisions

open Foundations

variable {permission : Permission}

/-! ## Check -/

/-- What the store returns for a principal, if both reads succeed. -/
def reads (r : Rbac) (p : Principal) : Option (List RoleDef × List Assignment) :=
  match r.store with
  | none => none
  | some store =>
      match store.roles p.orgID, store.assignments p.orgID p.subject with
      | .ok roles, .ok assignments => some (roles, assignments)
      | _, _ => none

theorem reads_eq_some {r : Rbac} {p : Principal} {roles : List RoleDef}
    {assignments : List Assignment} :
    reads r p = some (roles, assignments) ↔ ∃ store, r.store = some store ∧
      store.roles p.orgID = .ok roles ∧ store.assignments p.orgID p.subject = .ok assignments := by
  unfold reads
  cases r.store with
  | none => simp
  | some store =>
      cases hroles : store.roles p.orgID <;> cases hassign : store.assignments p.orgID p.subject <;>
        simp [hroles, hassign]

/-- The permission is in the catalog. -/
def Known (r : Rbac) (permission : Permission) : Prop :=
  ∃ c, r.catalog = some c ∧ ∃ spec ∈ c.specs, spec.key = permission

theorem hasPermission_iff {r : Rbac} : r.hasPermission permission = true ↔ Known r permission := by
  unfold Rbac.hasPermission Known
  cases r.catalog with
  | none => simp
  | some c => simpa using has_iff

/-- The meaning of an allowed check. -/
def Permits (r : Rbac) (p : Principal) (permission : Permission) (resource : Resource) : Prop :=
  ∃ roles assignments, reads r p = some (roles, assignments) ∧
    p.orgID ≠ "" ∧ p.orgID = resource.orgID ∧ p.subject ≠ "" ∧ Known r permission ∧
    ∃ a ∈ assignments, a.orgID = p.orgID ∧ a.subject = p.subject ∧
      (∃ role ∈ roles, role.key = a.roleKey ∧ permission ∈ role.permissions) ∧
      (a.scope.type = "" ∨ a.scope ∈ resource.scopes)

theorem allowed_iff_permits {r : Rbac} {p : Principal} {resource : Resource} :
    (r.check p permission resource).1.allowed = true ↔ Permits r p permission resource := by
  rw [check_allowed_iff, hasPermission_iff]
  constructor
  · rintro ⟨horg, hres, hsubject, hknown, store, roles, assignments, hstore, hroles,
      hassign, hgranted⟩
    exact ⟨roles, assignments, reads_eq_some.mpr ⟨store, hstore, hroles, hassign⟩, horg, hres.symm,
      hsubject, hknown, hgranted⟩
  · rintro ⟨roles, assignments, hreads, horg, hres, hsubject, hknown, hgranted⟩
    obtain ⟨store, hstore, hroles, hassign⟩ := reads_eq_some.mp hreads
    exact ⟨horg, hres.symm, hsubject, hknown, store, roles, assignments, hstore, hroles,
      hassign, hgranted⟩

/-- All that `r` finds for the principal and the resource, `r'` finds too: as permissions of the
catalog, permissions of roles, assignments and scopes, in whatever order and however often. -/
structure Covers (p : Principal) (r r' : Rbac) (resource resource' : Resource) : Prop where
  catalog : ∀ permission, Known r permission → Known r' permission
  store : ∀ roles assignments, reads r p = some (roles, assignments) →
    ∃ roles' assignments', reads r' p = some (roles', assignments') ∧
      (∀ role ∈ roles, ∀ permission ∈ role.permissions,
        ∃ role' ∈ roles', role'.key = role.key ∧ permission ∈ role'.permissions) ∧
      ∀ a ∈ assignments, a ∈ assignments'
  orgID : resource'.orgID = resource.orgID
  scopes : ∀ scope ∈ resource.scopes, scope ∈ resource'.scopes

theorem permits_mono {r r' : Rbac} {p : Principal} {resource resource' : Resource}
    (h : Covers p r r' resource resource') (hpermits : Permits r p permission resource) :
    Permits r' p permission resource' := by
  obtain ⟨roles, assignments, hreads, horg, hres, hsubject, hknown, a, ha, haorg, hasubject,
    ⟨role, hrole, hkey, hp⟩, hscope⟩ := hpermits
  obtain ⟨roles', assignments', hreads', hroles, hassign⟩ := h.store roles assignments hreads
  obtain ⟨role', hrole', hkey', hp'⟩ := hroles role hrole permission hp
  refine ⟨roles', assignments', hreads', horg, hres.trans h.orgID.symm, hsubject,
    h.catalog permission hknown, a, hassign a ha, haorg, hasubject,
    ⟨role', hrole', hkey'.trans hkey, hp'⟩, ?_⟩
  exact hscope.imp_right (h.scopes a.scope)

/-- A check is allowed exactly when it `Permits`.  Hence a store, catalog and resource with the same
entries, in any order and with any repetitions, get the same answer, and more entries never turn an
allow into a deny. -/
theorem check_means_permits (r : Rbac) (p : Principal) (permission : Permission)
    (resource : Resource) :
    ((r.check p permission resource).1.allowed = true ↔ Permits r p permission resource) ∧
    (∀ r' resource', Covers p r r' resource resource' → Covers p r' r resource' resource →
      (r'.check p permission resource').1.allowed = (r.check p permission resource).1.allowed) ∧
    ∀ r' resource', Covers p r r' resource resource' →
      (r.check p permission resource).1.allowed = true →
        (r'.check p permission resource').1.allowed = true := by
  refine ⟨allowed_iff_permits, ?_, ?_⟩
  · intro r' resource' hcovers hcovered
    rw [Bool.eq_iff_iff, allowed_iff_permits, allowed_iff_permits]
    exact ⟨permits_mono hcovered, permits_mono hcovers⟩
  · intro r' resource' hcovers hallowed
    exact allowed_iff_permits.mpr (permits_mono hcovers (allowed_iff_permits.mp hallowed))

/-- Two roles of one key, the second one listed twice and an assignment of another organization. -/
def manyRoles (roles : List RoleDef) : Rbac where
  catalog := some ⟨Table.empty.put ⟨"stock.read", ""⟩⟩
  store := some
    { roles := fun _ => .ok roles
      assignments :=
        fun _ _ => .ok [⟨"other", "ann", "viewer", ⟨"", ""⟩⟩, ⟨"org", "ann", "viewer", ⟨"", ""⟩⟩] }

/-- The roles in another order and each once. -/
theorem check_means_permits_reordered :
    let stock : Resource := ⟨"org", []⟩
    let roles : List RoleDef :=
      [⟨"viewer", [], true⟩, ⟨"viewer", ["stock.read"], true⟩, ⟨"viewer", ["stock.read"], true⟩]
    let fewer : List RoleDef := [⟨"viewer", ["stock.read"], true⟩, ⟨"viewer", [], true⟩]
    ((manyRoles fewer).check ⟨"ann", "org"⟩ "stock.read" stock).1.allowed =
      ((manyRoles roles).check ⟨"ann", "org"⟩ "stock.read" stock).1.allowed := by
  intro stock roles fewer
  have hcovers : ∀ some' other : List RoleDef,
      (∀ role ∈ some', ∀ permission ∈ role.permissions,
        ∃ role' ∈ other, role'.key = role.key ∧ permission ∈ role'.permissions) →
      Covers ⟨"ann", "org"⟩ (manyRoles some') (manyRoles other) stock stock := by
    intro some' other hroles
    refine ⟨fun _ h => h, ?_, rfl, fun _ h => h⟩
    intro _ _ hreads
    cases hreads
    exact ⟨other, _, rfl, hroles, fun _ h => h⟩
  refine (check_means_permits (manyRoles roles) ⟨"ann", "org"⟩ "stock.read" stock).2.1
    (manyRoles fewer) stock (hcovers roles fewer ?_) (hcovers fewer roles ?_)
  · decide
  · decide

/-! ## CanGrant -/

/-- The key has a definition. -/
def Defined (roles : List RoleDef) (roleKey : String) : Prop :=
  ∃ role ∈ roles, role.key = roleKey

theorem defined_of_confers {roles : List RoleDef} {roleKey : String}
    (h : Confers roles roleKey permission) : Defined roles roleKey :=
  h.imp fun _ hrole => ⟨hrole.1, hrole.2.1⟩

/-- Nobody grants `target` from outside: a granter has a defined role in its organization, and what
they have elsewhere makes no difference. -/
structure KeepsOut (roles : List RoleDef) (target : Assignment) : Prop where
  insider : ∀ granter, canGrant granter roles target = true →
    ∃ a ∈ granter, a.orgID = target.orgID ∧ Defined roles a.roleKey
  framed : ∀ granter granter' : List Assignment,
    (granter.filter fun a => a.orgID = target.orgID) =
      (granter'.filter fun a => a.orgID = target.orgID) →
      canGrant granter roles target = canGrant granter' roles target

/-- The target's role is defined and has no permission. -/
def grantsNothing (roles : List RoleDef) (target : Assignment) : Bool :=
  target.orgID ≠ "" && permissionsByRole roles target.roleKey = some []

/-- Assignments elsewhere are passed over. -/
theorem heldBy_filter (byRole : RoleMap) (granter : List Assignment) (target : Assignment) :
    heldBy byRole granter target =
      heldBy byRole (granter.filter fun a => a.orgID = target.orgID) target := by
  funext permission
  unfold heldBy
  rw [List.any_filter]
  congr 1
  funext a
  cases decide (a.orgID = target.orgID) <;> simp

theorem canGrant_filter (granter : List Assignment) (roles : List RoleDef) (target : Assignment) :
    canGrant granter roles target =
      canGrant (granter.filter fun a => a.orgID = target.orgID) roles target := by
  unfold canGrant
  rw [heldBy_filter]

/-- Granting stays within the organization exactly when the target's role has a permission, or could
not be granted by anyone. -/
theorem keepsOut_iff (roles : List RoleDef) (target : Assignment) :
    KeepsOut roles target ↔ grantsNothing roles target = false := by
  constructor
  · intro h
    by_contra hnothing
    rw [Bool.not_eq_false, grantsNothing, Bool.and_eq_true, decide_eq_true_eq, decide_eq_true_eq]
      at hnothing
    -- someone without any assignment
    have hcan : canGrant [] roles target = true := by
      rw [canGrant, if_neg hnothing.1, hnothing.2]
      rfl
    obtain ⟨a, ha, _⟩ := h.insider [] hcan
    cases ha
  · intro hgrants
    refine ⟨?_, ?_⟩
    · intro granter hcan
      obtain ⟨horg, hdefined, hall⟩ := canGrant_iff.mp hcan
      obtain ⟨permissions, hpermissions⟩ := Option.ne_none_iff_exists'.mp hdefined
      cases permissions with
      | nil => simp [grantsNothing, horg, hpermissions] at hgrants
      | cons permission rest =>
          have hconfers : Confers roles target.roleKey permission :=
            (mem_of_permissionsByRole hpermissions).mp List.mem_cons_self
          obtain ⟨a, ha, haorg, haconfers, _⟩ := hall permission hconfers
          exact ⟨a, ha, haorg, defined_of_confers haconfers⟩
    · intro granter granter' hsame
      rw [canGrant_filter granter, canGrant_filter granter', hsame]

/-- A role without permissions, which passes validation: an owner in another organization may grant
it. -/
theorem outsider_grants :
    let roles : List RoleDef := [⟨"owner", ["stock.read"], true⟩, ⟨"guest", [], false⟩]
    let catalog : Catalog := ⟨Table.empty.put ⟨"stock.read", ""⟩⟩
    let granter : List Assignment := [⟨"other", "eve", "owner", ⟨"", ""⟩⟩]
    let target : Assignment := ⟨"org", "eve", "guest", ⟨"", ""⟩⟩
    validateRoles (some catalog) roles = .ok () ∧ canGrant granter roles target = true ∧
      ∀ a ∈ granter, a.orgID ≠ target.orgID := by
  decide +kernel

end Decisions
end Authorization
end OrbitAuth
