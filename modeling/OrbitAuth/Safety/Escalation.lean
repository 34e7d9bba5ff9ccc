import OrbitAuth.Authorization.Memstore
import OrbitAuth.Foundations.Delegation

/-!
# Escalation — chains of grants create no privileges

In one organization, with its roles fixed, members of `K` hand out assignments that `CanGrant`
permits.  What `Check` allows a subject is the set of its rights; a permitted assignment gives its
subject only rights that the granter has, so a grant is a delegation step and chains of them create
nothing (`no_escalation`).
-/

namespace OrbitAuth
namespace Authorization
namespace Escalation

open Foundations

variable {s s' : Memstore} {orgID : String}

/-- `g` presents assignments of their own. -/
def Owns (s : Memstore) (g : String) (granter : List Assignment) : Prop :=
  ∀ a ∈ granter, a ∈ s.assignments a.orgID g

/-- A member of `K` hands out an assignment that `CanGrant` permits them. -/
def GrantStep (K : Set String) (orgID : String) (s s' : Memstore) : Prop :=
  ∃ g ∈ K, g ≠ "" ∧ ∃ granter target, Owns s g granter ∧
    canGrant granter (s.roles orgID) target = true ∧ s' = s.addAssignment target

/-- `Check` allows the subject the permission on the resource. -/
def Allows (catalog : Option Catalog) (s : Memstore) (orgID subject : String)
    (permission : Permission) (resource : Resource) : Prop :=
  ((Rbac.mk catalog (some s.store)).check ⟨subject, orgID⟩ permission resource).1.allowed = true

theorem allows_iff {catalog : Option Catalog} {subject : String} {permission : Permission}
    {resource : Resource} :
    Allows catalog s orgID subject permission resource ↔
      orgID ≠ "" ∧ resource.orgID = orgID ∧ subject ≠ "" ∧
        (catalog.any fun c => c.has permission) = true ∧
        ∃ a ∈ s.assignments orgID subject, Confers (s.roles orgID) a.roleKey permission ∧
          a.scope.Applies resource.scopes := by
  unfold Allows
  rw [check_allowed_iff]
  simp only [Memstore.store, Option.some.injEq, Rbac.hasPermission]
  constructor
  · rintro ⟨horg, hres, hsubject, hperm, store, roles, assignments, rfl, hroles, hassign, hgranted⟩
    cases hroles
    cases hassign
    rcases hgranted with ⟨a, ha, _, _, hconfers, happlies⟩
    exact ⟨horg, hres, hsubject, hperm, a, ha, hconfers, happlies⟩
  · rintro ⟨horg, hres, hsubject, hperm, a, ha, hconfers, happlies⟩
    rcases s.filed _ _ a ha with ⟨haorg, hasubject⟩
    exact ⟨horg, hres, hsubject, hperm, _, _, _, rfl, rfl, rfl, a, ha, haorg, hasubject, hconfers,
      happlies⟩

/-- The rights of a subject. -/
def rights (catalog : Option Catalog) (orgID : String) (s : Memstore) (subject : String) :
    Set (Permission × Resource) :=
  fun x => Allows catalog s orgID subject x.1 x.2

/-- What the granter's assignment covers, it applies to wherever the target does. -/
theorem applies_of_covers {scope target : Scope} {scopes : List Scope}
    (hcovers : scope.type = "" ∨ scope = target) (h : target.Applies scopes) :
    scope.Applies scopes := by
  rcases hcovers with hwide | rfl
  · exact .inl hwide
  · exact h

/-- The step lemma: a permitted assignment is a delegation. -/
theorem grants_of_step {K : Set String} (catalog : Option Catalog) (h : GrantStep K orgID s s') :
    Delegation.Grants K (rights catalog orgID s) (rights catalog orgID s') := by
  rcases h with ⟨g, hg, hne, granter, target, howns, hcan, rfl⟩
  refine ⟨g, hg, ?_⟩
  rintro subject ⟨permission, resource⟩ hright
  rcases allows_iff.1 hright with ⟨horg, hres, hsubject, hperm, a, ha, hconfers, happlies⟩
  rcases Memstore.mem_addAssignment.1 ha with hold | ⟨rfl, haorg, _⟩
  · exact .inl (allows_iff.2 ⟨horg, hres, hsubject, hperm, a, hold, hconfers, happlies⟩)
  · -- the new assignment: each of its permissions is one the granter holds on its scope
    refine .inr (allows_iff.2 ⟨horg, hres, hne, hperm, ?_⟩)
    rcases (canGrant_iff.1 hcan).2.2 permission hconfers with ⟨b, hb, hborg, hbconfers, hcovers⟩
    have hmem : b ∈ s.assignments orgID g := by
      have hown := howns b hb
      rwa [hborg, haorg] at hown
    exact ⟨b, hmem, hbconfers, applies_of_covers hcovers happlies⟩

/-- What `Check` allows after any chain of permitted grants, it allowed at the start, to the same
subject or to a member of `K`. -/
theorem no_escalation {K : Set String} {start finish : Memstore}
    (h : Relation.ReflTransGen (GrantStep K orgID) start finish) (catalog : Option Catalog)
    {subject : String} {permission : Permission} {resource : Resource}
    (hallows : Allows catalog finish orgID subject permission resource) :
    Allows catalog start orgID subject permission resource ∨
      ∃ k ∈ K, Allows catalog start orgID k permission resource := by
  have hcovered := Delegation.covered_of_chain (rights catalog orgID)
    (fun s s' hstep => grants_of_step catalog hstep) h
  exact hcovered subject (permission, resource) hallows

/-! ## A grant

Ann manages the organization and makes Bob a viewer at one location. -/

def toyCatalog : Catalog where
  specs := (Foundations.Table.empty.put ⟨"stock.read", ""⟩).put ⟨"stock.move", ""⟩

def toyStart : Memstore :=
  (Memstore.new.setRoles "org"
    [⟨"manager", ["stock.read", "stock.move"], false⟩,
      ⟨"viewer", ["stock.read"], false⟩]).addAssignment ⟨"org", "ann", "manager", ⟨"", ""⟩⟩

def toyTarget : Assignment := ⟨"org", "bob", "viewer", ⟨"location", "L1"⟩⟩

/-- Bob reads the location's stock afterwards, as Ann did before. -/
theorem no_escalation_viewer :
    Allows (some toyCatalog) (toyStart.addAssignment toyTarget) "org" "bob" "stock.read"
        ⟨"org", [⟨"location", "L1"⟩]⟩ ∧
      (Allows (some toyCatalog) toyStart "org" "bob" "stock.read" ⟨"org", [⟨"location", "L1"⟩]⟩ ∨
        ∃ k ∈ ({"ann"} : Set String),
          Allows (some toyCatalog) toyStart "org" k "stock.read"
            ⟨"org", [⟨"location", "L1"⟩]⟩) := by
  have hallows : Allows (some toyCatalog) (toyStart.addAssignment toyTarget) "org" "bob"
      "stock.read" ⟨"org", [⟨"location", "L1"⟩]⟩ := by
    unfold Allows
    decide
  have howns : Owns toyStart "ann" [⟨"org", "ann", "manager", ⟨"", ""⟩⟩] := by
    unfold Owns
    decide
  have hstep : GrantStep {"ann"} "org" toyStart (toyStart.addAssignment toyTarget) :=
    ⟨"ann", rfl, by decide, _, toyTarget, howns, by decide, rfl⟩
  exact ⟨hallows, no_escalation (.single hstep) (some toyCatalog) hallows⟩

end Escalation
end Authorization
end OrbitAuth
