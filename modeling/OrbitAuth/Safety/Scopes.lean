import OrbitAuth.Authorization.Rbac

/-!
# Scopes — the point check and the bulk list

A single resource is decided by `Check`, a list endpoint filters with `AllowedScopes`.  Both go
through the same assignments, but `AllowedScopes` drops scopes with an empty id and `Check` does
not.

* `scopes_agree_iff`: `all` does not depend on the type asked for, the ids are strictly increasing,
  and the two functions agree on a list of scopes exactly when no grant counts only because of an
  empty id;
* `empty_id_disagrees`: an assignment on a scope without an id.
-/

namespace OrbitAuth
namespace Authorization
namespace Scopes

/-- `Check` allows the permission on a resource of the principal's organization. -/
def Allows (r : Rbac) (p : Principal) (permission : Permission) (scopes : List Scope) : Prop :=
  (r.check p permission ⟨p.orgID, scopes⟩).1.allowed = true

instance (r : Rbac) (p : Principal) (permission : Permission) (scopes : List Scope) :
    Decidable (Allows r p permission scopes) :=
  inferInstanceAs (Decidable (_ = true))

/-- `AllowedScopes` lets one of the scopes through its filter. -/
def Filters (r : Rbac) (p : Principal) (permission : Permission) (scopes : List Scope) : Prop :=
  (∃ scopeType, (r.allowedScopes p permission scopeType).1.all = true) ∨
    ∃ scope ∈ scopes, scope.id ∈ (r.allowedScopes p permission scope.type).1.listed

/-- Every grant on a listed scope without an id is backed by a grant `AllowedScopes` sees: an
organization-wide one, or one on a listed scope with an id. -/
def Backed (roles : List RoleDef) (assignments : List Assignment) (p : Principal)
    (permission : Permission) (scopes : List Scope) : Prop :=
  ∀ a ∈ assignments, a.Gives roles p permission → a.scope.type ≠ "" → a.scope.id = "" →
    a.scope ∈ scopes →
    ∃ b ∈ assignments, b.Gives roles p permission ∧
      (b.scope.type = "" ∨ (b.scope.id ≠ "" ∧ b.scope ∈ scopes))

section Agreement

variable {catalog : Option Catalog} {store : Store} {p : Principal} {permission : Permission}
  {scopes : List Scope} {roles : List RoleDef} {assignments : List Assignment}

theorem allows_iff (horg : p.orgID ≠ "") (hsubject : p.subject ≠ "")
    (hroles : store.roles p.orgID = .ok roles)
    (hassign : store.assignments p.orgID p.subject = .ok assignments) :
    Allows ⟨catalog, some store⟩ p permission scopes ↔
      (Rbac.mk catalog (some store)).hasPermission permission = true ∧
        ∃ a ∈ assignments, a.Gives roles p permission ∧ a.scope.Applies scopes := by
  unfold Allows
  rw [check_allowed_iff]
  constructor
  · rintro ⟨_, _, _, hperm, store', roles', assignments', hstore, hroles', hassign', hgranted⟩
    cases hstore
    rw [hroles] at hroles'
    cases hroles'
    rw [hassign] at hassign'
    cases hassign'
    obtain ⟨a, ha, haorg, hasubject, hconfers, happlies⟩ := hgranted
    exact ⟨hperm, a, ha, ⟨haorg, hasubject, hconfers⟩, happlies⟩
  · rintro ⟨hperm, a, ha, ⟨haorg, hasubject, hconfers⟩, happlies⟩
    exact ⟨horg, rfl, hsubject, hperm, store, roles, assignments, rfl, hroles, hassign,
      a, ha, haorg, hasubject, hconfers, happlies⟩

theorem filters_iff (horg : p.orgID ≠ "") (hsubject : p.subject ≠ "")
    (hroles : store.roles p.orgID = .ok roles)
    (hassign : store.assignments p.orgID p.subject = .ok assignments) :
    Filters ⟨catalog, some store⟩ p permission scopes ↔
      (Rbac.mk catalog (some store)).hasPermission permission = true ∧
        ∃ a ∈ assignments, a.Gives roles p permission ∧
          (a.scope.type = "" ∨ (a.scope.id ≠ "" ∧ a.scope ∈ scopes)) := by
  unfold Filters
  simp only [allowedScopes_all_iff horg hsubject hroles hassign,
    mem_allowedScopes horg hsubject hroles hassign]
  constructor
  · rintro (⟨_, hperm, id, a, ha, hgives, hscope⟩ | ⟨scope, hmem, hperm, _, hid, a, ha,
      hgives, hscope⟩)
    · exact ⟨hperm, a, ha, hgives, .inl (by rw [hscope])⟩
    · have hscope : a.scope = scope := hscope
      exact ⟨hperm, a, ha, hgives, .inr ⟨by rw [hscope]; exact hid, by rw [hscope]; exact hmem⟩⟩
  · rintro ⟨hperm, a, ha, hgives, hseen⟩
    by_cases hwide : ∃ id, GrantedUnder roles assignments p permission ⟨"", id⟩
    · exact .inl ⟨"", hperm, hwide⟩
    · rcases hseen with htype | ⟨hid, hmem⟩
      · exact absurd ⟨a.scope.id, a, ha, hgives, by rw [← htype]⟩ hwide
      · exact .inr ⟨a.scope, hmem, hperm, fun id h => hwide ⟨id, h⟩, hid, a, ha, hgives, rfl⟩

/-- What the two functions have in common, and when they agree. -/
theorem scopes_agree_iff (horg : p.orgID ≠ "") (hsubject : p.subject ≠ "")
    (hroles : store.roles p.orgID = .ok roles)
    (hassign : store.assignments p.orgID p.subject = .ok assignments) :
    (∀ t t', ((Rbac.mk catalog (some store)).allowedScopes p permission t).1.all =
      ((Rbac.mk catalog (some store)).allowedScopes p permission t').1.all) ∧
    (∀ t, ((Rbac.mk catalog (some store)).allowedScopes p permission t).1.listed.Pairwise (· < ·)) ∧
    ((Allows ⟨catalog, some store⟩ p permission scopes ↔
        Filters ⟨catalog, some store⟩ p permission scopes) ↔
      ((Rbac.mk catalog (some store)).hasPermission permission = true →
        Backed roles assignments p permission scopes)) := by
  refine ⟨fun t t' => ?_, allowedScopes_increasing _ p permission, ?_⟩
  · rw [Bool.eq_iff_iff, allowedScopes_all_iff horg hsubject hroles hassign,
      allowedScopes_all_iff horg hsubject hroles hassign]
  · rw [allows_iff horg hsubject hroles hassign, filters_iff horg hsubject hroles hassign]
    constructor
    -- a check passes on a scope without an id, but a filter lists no empty ids
    · rintro hagree hperm a ha hgives htype hid hmem
      exact (hagree.mp ⟨hperm, a, ha, hgives, .inr hmem⟩).2
    · intro hbacked
      constructor
      · rintro ⟨hperm, a, ha, hgives, happlies⟩
        refine ⟨hperm, ?_⟩
        rcases happlies with htype | hmem
        · exact ⟨a, ha, hgives, .inl htype⟩
        · by_cases htype : a.scope.type = ""
          · exact ⟨a, ha, hgives, .inl htype⟩
          · by_cases hid : a.scope.id = ""
            · exact hbacked hperm a ha hgives htype hid hmem
            · exact ⟨a, ha, hgives, .inr ⟨hid, hmem⟩⟩
      · rintro ⟨hperm, a, ha, hgives, hseen⟩
        refine ⟨hperm, a, ha, hgives, ?_⟩
        rcases hseen with htype | ⟨_, hmem⟩
        · exact .inl htype
        · exact .inr hmem

end Agreement

/-! ## A scope without an id -/

/-- One permission, one role that has it. -/
def viewCatalog : Catalog where
  specs := Foundations.Table.empty.put ⟨"view", "see things"⟩

/-- The store of a product in which the subject `ann` is a viewer on the scopes. -/
def viewerOn (scopes : List Scope) : Store where
  roles _ := .ok [⟨"viewer", ["view"], false⟩]
  assignments orgID subject := .ok (scopes.map fun scope => ⟨orgID, subject, "viewer", scope⟩)

def ann : Principal := ⟨"ann", "org"⟩

/-- On scopes with ids the two agree. -/
theorem scopes_agree_on_location :
    Allows ⟨viewCatalog, some (viewerOn [⟨"location", "L1"⟩])⟩ ann "view" [⟨"location", "L1"⟩] ∧
      (Allows ⟨viewCatalog, some (viewerOn [⟨"location", "L1"⟩])⟩ ann "view" [⟨"location", "L1"⟩] ↔
        Filters ⟨viewCatalog, some (viewerOn [⟨"location", "L1"⟩])⟩ ann "view"
          [⟨"location", "L1"⟩]) := by
  refine ⟨by decide +kernel, ?_⟩
  refine (scopes_agree_iff (by decide) (by decide) rfl rfl).2.2.mpr ?_
  intro _ a ha _ _ hid _
  rw [List.mem_singleton.mp ha] at hid
  exact absurd hid (by decide)

/-- On a location without an id, `Check` allows what `AllowedScopes` does not list. -/
theorem empty_id_disagrees :
    Allows ⟨viewCatalog, some (viewerOn [⟨"location", ""⟩])⟩ ann "view" [⟨"location", ""⟩] ∧
      ¬ Filters ⟨viewCatalog, some (viewerOn [⟨"location", ""⟩])⟩ ann "view"
        [⟨"location", ""⟩] := by
  refine ⟨by decide +kernel, ?_⟩
  rw [filters_iff (by decide) (by decide) rfl rfl]
  rintro ⟨_, a, ha, _, hseen⟩
  rw [List.mem_singleton.mp ha] at hseen
  exact absurd hseen (by decide)

end Scopes
end Authorization
end OrbitAuth
