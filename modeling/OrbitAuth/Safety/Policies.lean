import OrbitAuth.Authorization.Policy

/-!
# Policies — from the evaluator to the authorizer, and from validated roles to decisions

A product that moves from an `Evaluator` to the authorizer seeds one role definition for each role
of its policy and one organization-wide assignment for each role a subject has.  `Migrated` says
that this was done, in any order; then both answer alike.

Roles that `ValidateRoles` accepts have different keys and known permissions, which is what the
authorizer needs for a role to give what it lists and nothing else.

* `evaluator_agrees` — `Check`, `Allows` and `Permissions` agree, and the last is sorted;
* `validated_roles_mean` — a validated role gives exactly what it lists.
-/

namespace OrbitAuth
namespace Authorization
namespace Policies

open Foundations

/-! ## The authorizer with organization-wide assignments -/

section Wide

variable {catalog : Catalog} {store : Store} {p : Principal} {defs : List RoleDef}
  {assignments : List Assignment} {permission : Permission}

/-- The assignments are the principal's own and organization-wide. -/
def Wide (p : Principal) (assignments : List Assignment) : Prop :=
  ∀ a ∈ assignments, a.orgID = p.orgID ∧ a.subject = p.subject ∧ a.scope.type = ""

/-- Then a check asks for one of the roles that has the permission. -/
theorem check_wide (horg : p.orgID ≠ "") (hsubject : p.subject ≠ "")
    (hroles : store.roles p.orgID = .ok defs)
    (hassign : store.assignments p.orgID p.subject = .ok assignments) (hwide : Wide p assignments)
    {resource : Resource} (hresource : resource.orgID = p.orgID) :
    ((Rbac.mk (some catalog) (some store)).check p permission resource).1.allowed = true ↔
      catalog.has permission = true ∧ ∃ a ∈ assignments, Confers defs a.roleKey permission := by
  rw [check_allowed_iff]
  constructor
  · rintro ⟨_, _, _, hknown, store', defs', assignments', hstore, hroles', hassign', a, ha, _,
      _, hconfers, _⟩
    cases hstore
    rw [hroles] at hroles'
    rw [hassign] at hassign'
    cases hroles'
    cases hassign'
    exact ⟨hknown, a, ha, hconfers⟩
  · rintro ⟨hknown, a, ha, hconfers⟩
    obtain ⟨haorg, hasubject, hscope⟩ := hwide a ha
    exact ⟨horg, hresource, hsubject, hknown, store, defs, assignments, rfl, hroles,
      hassign, a, ha, haorg, hasubject, hconfers, .inl hscope⟩

/-- And the permission is held organization-wide in the same case. -/
theorem allowedScopes_wide (horg : p.orgID ≠ "") (hsubject : p.subject ≠ "")
    (hroles : store.roles p.orgID = .ok defs)
    (hassign : store.assignments p.orgID p.subject = .ok assignments) (hwide : Wide p assignments)
    (scopeType : String) :
    ((Rbac.mk (some catalog) (some store)).allowedScopes p permission scopeType).1.all = true ↔
      catalog.has permission = true ∧ ∃ a ∈ assignments, Confers defs a.roleKey permission := by
  rw [allowedScopes_all_iff horg hsubject hroles hassign]
  refine and_congr_right fun _ => ?_
  constructor
  · rintro ⟨_, a, ha, ⟨_, _, hconfers⟩, _⟩
    exact ⟨a, ha, hconfers⟩
  · rintro ⟨a, ha, hconfers⟩
    obtain ⟨haorg, hasubject, hscope⟩ := hwide a ha
    exact ⟨a.scope.id, a, ha, ⟨haorg, hasubject, hconfers⟩, by rw [← hscope]⟩

end Wide

/-! ## The evaluator -/

/-- The policy as the authorizer sees it: its permissions are in the catalog, each of its roles has
one definition, and the principal has one organization-wide assignment for each of `roles`. -/
structure Migrated (policy : Policy) (catalog : Catalog) (store : Store) (p : Principal)
    (roles : List Role) : Prop where
  known : ∀ entry ∈ policy, ∀ permission ∈ entry.grants, catalog.has permission = true
  defined : ∃ defs, store.roles p.orgID = .ok defs ∧
    (defs.map fun d => (d.key, d.permissions)).Perm (policy.rows.map fun e => (e.role, e.grants))
  assigned : ∃ assignments, store.assignments p.orgID p.subject = .ok assignments ∧
    (assignments.map Assignment.roleKey).Perm roles ∧ Wide p assignments

/-- The definitions give what the policy grants. -/
theorem confers_policy {policy : Policy} {defs : List RoleDef}
    (h : (defs.map fun d => (d.key, d.permissions)).Perm
      (policy.rows.map fun e => (e.role, e.grants)))
    {key : String} {permission : Permission} :
    Confers defs key permission ↔ ∃ entry ∈ policy, entry.role = key ∧
    permission ∈ entry.grants := by
  constructor
  · rintro ⟨d, hd, hkey, hp⟩
    obtain ⟨entry, hentry, hpair⟩ := List.mem_map.mp (h.mem_iff.mp (List.mem_map_of_mem hd))
    have hkey' : entry.role = d.key := congrArg Prod.fst hpair
    have hgrants : entry.grants = d.permissions := congrArg Prod.snd hpair
    exact ⟨entry, hentry, hkey'.trans hkey, hgrants ▸ hp⟩
  · rintro ⟨entry, hentry, hkey, hp⟩
    have hmem := List.mem_map_of_mem (f := fun e : PolicyEntry => (e.role, e.grants)) hentry
    obtain ⟨d, hd, hpair⟩ := List.mem_map.mp (h.mem_iff.mpr hmem)
    have hkey' : d.key = entry.role := congrArg Prod.fst hpair
    have hgrants : d.permissions = entry.grants := congrArg Prod.snd hpair
    exact ⟨d, hd, hkey'.trans hkey, hgrants ▸ hp⟩

/-- For a policy that `NewEvaluator` accepts and its authorizer, `Check` allows a permission on a
resource of the organization exactly when `Allows` does, and exactly when it is one of
`Permissions`; those are in strictly increasing order. -/
theorem evaluator_agrees {policy : Policy} {e : Evaluator} (haccepted : newEvaluator policy = .ok e)
    {catalog : Catalog} {store : Store} {p : Principal} {roles : List Role}
    (h : Migrated policy catalog store p roles) (horg : p.orgID ≠ "") (hsubject : p.subject ≠ "")
    {resource : Resource} (hresource : resource.orgID = p.orgID) (q : Permission) :
    (((Rbac.mk (some catalog) (some store)).check p q resource).1.allowed = true ↔
      Evaluator.allows (some e) roles q = true) ∧
    (Evaluator.allows (some e) roles q = true ↔ q ∈ Evaluator.permissionsOf (some e) roles) ∧
    (Evaluator.permissionsOf (some e) roles).Pairwise (· < ·) := by
  have hpolicy := newEvaluator_ok haccepted
  obtain ⟨defs, hdefs, hperm⟩ := h.defined
  obtain ⟨assignments, hassign, hroles, hwide⟩ := h.assigned
  refine ⟨?_, ?_, permissions_increasing (some e) roles⟩
  · rw [check_wide horg hsubject hdefs hassign hwide hresource, allows_iff hpolicy]
    constructor
    · rintro ⟨_, a, ha, hconfers⟩
      exact ⟨a.roleKey, hroles.mem_iff.mp (List.mem_map_of_mem ha),
        (confers_policy hperm).mp hconfers⟩
    · rintro ⟨role, hrole, entry, hentry, hkey, hq⟩
      obtain ⟨a, ha, hakey⟩ := List.mem_map.mp (hroles.mem_iff.mpr hrole)
      exact ⟨h.known entry hentry q hq, a, ha,
        (confers_policy hperm).mpr ⟨entry, hentry, hkey.trans hakey.symm, hq⟩⟩
  · rw [allows_iff hpolicy, mem_permissions hpolicy]

/-- A store with these roles and the assignments that follow from the roles of a subject. -/
def seeded (defs : List RoleDef) (p : Principal) (roles : List Role) : Store where
  roles _ := .ok defs
  assignments _ _ := .ok (roles.map fun role => ⟨p.orgID, p.subject, role, ⟨"", ""⟩⟩)

def stockPolicy : Policy :=
  (Table.empty.put ⟨"clerk", ["stock.read"]⟩).put ⟨"manager", ["stock.read", "stock.move"]⟩

def stockDefs : List RoleDef :=
  [⟨"clerk", ["stock.read"], false⟩, ⟨"manager", ["stock.read", "stock.move"], true⟩]

def stockCatalog : Catalog :=
  ⟨(Table.empty.put ⟨"stock.read", ""⟩).put ⟨"stock.move", ""⟩⟩

/-- Two roles that share a permission, one of them held twice, and a role the policy does not know.
-/
theorem evaluator_agrees_stock :
    let ann : Principal := ⟨"ann", "org"⟩
    let roles := ["clerk", "ghost", "clerk"]
    ∃ e, newEvaluator stockPolicy = .ok e ∧
      (((Rbac.mk (some stockCatalog) (some (seeded stockDefs ann roles))).check ann "stock.read"
        ⟨"org", []⟩).1.allowed = true ↔ Evaluator.allows (some e) roles "stock.read" = true) := by
  intro ann roles
  have hmigrated : Migrated stockPolicy stockCatalog (seeded stockDefs ann roles) ann roles := by
    refine ⟨?_, ⟨stockDefs, rfl, ?_⟩, ⟨_, rfl, ?_, ?_⟩⟩
    · have hrows : ∀ entry ∈ stockPolicy.rows, ∀ permission ∈ entry.grants,
          stockCatalog.has permission = true := by decide
      exact hrows
    · decide
    · decide
    · intro a ha
      obtain ⟨role, _, rfl⟩ := List.mem_map.mp ha
      exact ⟨rfl, rfl, rfl⟩
  cases haccepted : newEvaluator stockPolicy with
  | error err =>
      have hok : (newEvaluator stockPolicy).isOk = true := by decide
      rw [haccepted] at hok
      cases hok
  | ok e =>
      exact ⟨e, rfl,
        (evaluator_agrees haccepted hmigrated (by decide) (by decide) rfl "stock.read").1⟩

/-! ## Validated roles -/

/-- With different keys, a key gives what its one definition lists. -/
theorem confers_of_distinct {roles : List RoleDef}
    (hkeys : (roles.map RoleDef.key).Nodup) {r : RoleDef} (hr : r ∈ roles)
    (permission : Permission) :
    Confers roles r.key permission ↔ permission ∈ r.permissions := by
  constructor
  · rintro ⟨role, hrole, hkey, hp⟩
    have hsame : role = r := List.inj_on_of_nodup_map hkeys hrole hr hkey
    exact hsame ▸ hp
  · exact fun hp => ⟨r, hr, rfl, hp⟩

/-- With roles that `ValidateRoles` accepts and a single organization-wide assignment of one of
them, the permissions that `Check` allows in the organization, and those that `AllowedScopes`
reports for all of it, are exactly those the role lists. -/
theorem validated_roles_mean {catalog : Option Catalog} {roles : List RoleDef}
    (hvalid : validateRoles catalog roles = .ok ()) {r : RoleDef} (hr : r ∈ roles) {store : Store}
    {p : Principal} (horg : p.orgID ≠ "") (hsubject : p.subject ≠ "")
    (hroles : store.roles p.orgID = .ok roles) {id : String}
    (hassign : store.assignments p.orgID p.subject = .ok [⟨p.orgID, p.subject, r.key, ⟨"", id⟩⟩]) :
    (∀ resource : Resource, resource.orgID = p.orgID → ∀ q,
      ((Rbac.mk catalog (some store)).check p q resource).1.allowed = true ↔ q ∈ r.permissions) ∧
    ∀ scopeType q,
      ((Rbac.mk catalog (some store)).allowedScopes p q scopeType).1.all = true ↔
        q ∈ r.permissions := by
  obtain ⟨c, rfl, hvalidated⟩ := validateRoles_ok hvalid
  have hwide : Wide p [⟨p.orgID, p.subject, r.key, ⟨"", id⟩⟩] := by
    intro a ha
    rw [List.mem_singleton.mp ha]
    exact ⟨rfl, rfl, rfl⟩
  -- a listed permission is known, so the catalog takes none away
  have hmeans : ∀ q, (c.has q = true ∧
      ∃ a ∈ [(⟨p.orgID, p.subject, r.key, ⟨"", id⟩⟩ : Assignment)], Confers roles a.roleKey q) ↔
        q ∈ r.permissions := by
    intro q
    simp only [List.mem_singleton, exists_eq_left, confers_of_distinct hvalidated.distinct hr]
    exact ⟨fun h => h.2, fun h => ⟨hvalidated.known r hr q h, h⟩⟩
  refine ⟨?_, ?_⟩
  · intro resource hresource q
    rw [check_wide horg hsubject hroles hassign hwide hresource, hmeans]
  · intro scopeType q
    rw [allowedScopes_wide horg hsubject hroles hassign hwide, hmeans]

theorem validated_roles_mean_clerk :
    let ann : Principal := ⟨"ann", "org"⟩
    validateRoles (some stockCatalog) stockDefs = .ok () ∧
      ∀ q, ((Rbac.mk (some stockCatalog) (some (seeded stockDefs ann ["clerk"]))).check ann q
        ⟨"org", []⟩).1.allowed = true ↔ q ∈ ["stock.read"] := by
  intro ann
  have hvalid : validateRoles (some stockCatalog) stockDefs = .ok () := by decide
  have hclerk : (⟨"clerk", ["stock.read"], false⟩ : RoleDef) ∈ stockDefs := by decide
  have hroles : (seeded stockDefs ann ["clerk"]).roles ann.orgID = .ok stockDefs := rfl
  have hassign : (seeded stockDefs ann ["clerk"]).assignments ann.orgID ann.subject =
      .ok [⟨ann.orgID, ann.subject, "clerk", ⟨"", ""⟩⟩] := rfl
  exact ⟨hvalid, (validated_roles_mean hvalid hclerk (by decide) (by decide) hroles hassign).1
    ⟨"org", []⟩ rfl⟩

end Policies
end Authorization
end OrbitAuth
