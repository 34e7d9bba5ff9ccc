import OrbitAuth.Authorization.Memstore
import OrbitAuth.Foundations.Unwinding
import OrbitAuth.Safety.Scopes

/-!
# Tenancy — isolation in the in-memory authorizer

The answers for one subject in one organization come from two cells of the store: the roles of the
organization and the assignments of the subject there.  Each writing operation concerns one cell, so
by unwinding the answers depend only on the operations that concern these two (`tenant_isolation`).
-/

namespace OrbitAuth
namespace Authorization
namespace Tenancy

open Foundations

/-- The writing operations of the store. -/
inductive Op
  | setRoles (orgID : String) (roles : List RoleDef)
  | addRole (orgID : String) (role : RoleDef)
  | setAssignments (orgID subject : String) (assignments : List Assignment)
  | addAssignment (a : Assignment)
  deriving DecidableEq

def apply (s : Memstore) : Op → Memstore
  | .setRoles orgID roles => s.setRoles orgID roles
  | .addRole orgID role => s.addRole orgID role
  | .setAssignments orgID subject assignments => s.setAssignments orgID subject assignments
  | .addAssignment a => s.addAssignment a

/-- The store after the operations. -/
def after (ops : List Op) : Memstore :=
  ops.foldl apply Memstore.new

/-- A role operation for the organization. -/
def rolesOf (orgID : String) : Op → Bool
  | .setRoles o _ | .addRole o _ => o = orgID
  | _ => false

/-- An assignment operation for the subject in the organization. -/
def assignmentsOf (orgID subject : String) : Op → Bool
  | .setAssignments o u _ => o = orgID && u = subject
  | .addAssignment a => a.orgID = orgID && a.subject = subject
  | _ => false

theorem file_assignments (s : Memstore) (orgID subject : String) (as : List Assignment)
    (h : ∀ a ∈ as, a.orgID = orgID ∧ a.subject = subject) (o u : String) :
    (s.file orgID subject as h).assignments o u =
      if o = orgID ∧ u = subject then as else s.assignments o u := rfl

theorem setRoles_roles (s : Memstore) (orgID : String) (roles : List RoleDef) (o : String) :
    (s.setRoles orgID roles).roles o = if o = orgID then roles else s.roles o := rfl

/-- The roles of an organization change with its own role operations only. -/
theorem roles_secure (orgID : String) :
    Unwinding.Secure apply (fun s => s.roles orgID) (rolesOf orgID) where
  unseen := by
    intro s o ho
    cases o with
    | setRoles | addRole =>
        have hne : orgID ≠ _ := Ne.symm (of_decide_eq_false ho)
        exact if_neg hne
    | setAssignments | addAssignment => rfl
  seen := by
    intro s s' o ho heq
    have heq : s.roles orgID = s'.roles orgID := heq
    cases o with
    | setRoles o roles =>
        obtain rfl : o = orgID := of_decide_eq_true ho
        simp only [apply, setRoles_roles, if_true]
    | addRole o role =>
        obtain rfl : o = orgID := of_decide_eq_true ho
        simp only [apply, Memstore.addRole, setRoles_roles, heq]
    | setAssignments | addAssignment => cases ho

/-- The assignments of a subject change with the assignment operations for them only. -/
theorem assignments_secure (orgID subject : String) :
    Unwinding.Secure apply (fun s => s.assignments orgID subject)
    (assignmentsOf orgID subject) where
  unseen := by
    intro s o ho
    cases o with
    | setRoles | addRole => rfl
    | setAssignments o u as =>
        simp only [assignmentsOf, Bool.and_eq_false_iff, decide_eq_false_iff_not] at ho
        have hother : ¬ (orgID = o ∧ subject = u) := by tauto
        exact if_neg hother
    | addAssignment a =>
        simp only [assignmentsOf, Bool.and_eq_false_iff, decide_eq_false_iff_not] at ho
        have hother : ¬ (orgID = a.orgID ∧ subject = a.subject) := by tauto
        exact if_neg hother
  seen := by
    intro s s' o ho heq
    have heq : s.assignments orgID subject = s'.assignments orgID subject := heq
    cases o with
    | setRoles | addRole => cases ho
    | setAssignments o u as =>
        simp only [assignmentsOf, Bool.and_eq_true, decide_eq_true_eq] at ho
        obtain ⟨rfl, rfl⟩ := ho
        simp only [apply, Memstore.setAssignments, file_assignments]
        simp
    | addAssignment a =>
        simp only [assignmentsOf, Bool.and_eq_true, decide_eq_true_eq] at ho
        obtain ⟨rfl, rfl⟩ := ho
        simp only [apply, Memstore.addAssignment, file_assignments]
        simp [heq]

/-- What a principal is answered depends on the two cells only. -/
theorem answers_of_cells {s s' : Memstore} {p : Principal}
    (hroles : s.roles p.orgID = s'.roles p.orgID)
    (hassign : s.assignments p.orgID p.subject = s'.assignments p.orgID p.subject)
    (catalog : Option Catalog) :
    (∀ permission resource, (Rbac.mk catalog (some s.store)).check p permission resource =
      (Rbac.mk catalog (some s'.store)).check p permission resource) ∧
    ∀ permission scopeType, (Rbac.mk catalog (some s.store)).allowedScopes p permission scopeType =
      (Rbac.mk catalog (some s'.store)).allowedScopes p permission scopeType := by
  refine ⟨fun permission resource => ?_, fun permission scopeType => ?_⟩
  · unfold Rbac.check
    dsimp only [Memstore.store]
    rw [hroles, hassign]
    rfl
  · unfold Rbac.allowedScopes
    dsimp only [Memstore.store]
    rw [hroles, hassign]
    rfl

/-- Operations on other organizations, and on the assignments of other subjects, change no answer.
-/
theorem tenant_isolation {ops ops' : List Op} {orgID subject : String}
    (hroles : ops.filter (rolesOf orgID) = ops'.filter (rolesOf orgID))
    (hassign : ops.filter (assignmentsOf orgID subject) = ops'.filter (assignmentsOf orgID subject))
    (catalog : Option Catalog) :
    (∀ permission resource,
      (Rbac.mk catalog (some (after ops).store)).check ⟨subject, orgID⟩ permission resource =
        (Rbac.mk catalog (some (after ops').store)).check ⟨subject, orgID⟩ permission resource) ∧
    ∀ permission scopeType,
      (Rbac.mk catalog (some (after ops).store)).allowedScopes ⟨subject, orgID⟩
        permission scopeType =
        (Rbac.mk catalog (some (after ops').store)).allowedScopes ⟨subject, orgID⟩ permission
          scopeType := by
  have hcell₁ : (after ops).roles orgID = (after ops').roles orgID :=
    Unwinding.view_run (roles_secure orgID) hroles rfl
  have hcell₂ : (after ops).assignments orgID subject = (after ops').assignments orgID subject :=
    Unwinding.view_run (assignments_secure orgID subject) hassign rfl
  exact answers_of_cells (p := ⟨subject, orgID⟩) hcell₁ hcell₂ catalog

/-- A viewer, and the same viewer among operations on others. -/
def alone : List Op :=
  [.setRoles "A" [⟨"viewer", ["view"], false⟩], .addAssignment ⟨"A", "ann", "viewer", ⟨"", ""⟩⟩]

def among : List Op :=
  [.addAssignment ⟨"B", "ann", "owner", ⟨"", ""⟩⟩, .setRoles "A" [⟨"viewer", ["view"], false⟩],
    .setRoles "B" [], .addAssignment ⟨"A", "ann", "viewer", ⟨"", ""⟩⟩,
    .setAssignments "A" "bob" [⟨"A", "ann", "owner", ⟨"", ""⟩⟩]]

theorem tenant_isolation_viewer :
    alone ≠ among ∧
      (Rbac.mk (some Scopes.viewCatalog) (some (after alone).store)).check ⟨"ann", "A"⟩
        "view" ⟨"A", []⟩ =
        (⟨true, .granted⟩, none) ∧
      (Rbac.mk (some Scopes.viewCatalog) (some (after alone).store)).check ⟨"ann", "A"⟩
        "view" ⟨"A", []⟩ =
        (Rbac.mk (some Scopes.viewCatalog) (some (after among).store)).check ⟨"ann", "A"⟩
          "view" ⟨"A", []⟩ :=
  ⟨by decide, by decide +kernel, (tenant_isolation (by decide) (by decide) _).1 _ _⟩

end Tenancy
end Authorization
end OrbitAuth
