import OrbitAuth.Authorization.Rbac

/-!
# Memstore — roles and assignments in memory

Roles are kept per organization and assignments per organization and subject.  Every assignment is
filed under its own organization and subject; the structure carries that as a field, and all four
writing operations keep it.
-/

namespace OrbitAuth
namespace Authorization

structure Memstore where
  roles : String → List RoleDef
  assignments : String → String → List Assignment
  filed : ∀ orgID subject, ∀ a ∈ assignments orgID subject,
    a.orgID = orgID ∧ a.subject = subject

namespace Memstore

def new : Memstore where
  roles _ := []
  assignments _ _ := []
  filed _ _ a ha := by cases ha

def setRoles (s : Memstore) (orgID : String) (roles : List RoleDef) : Memstore :=
  { s with roles := fun o => if o = orgID then roles else s.roles o }

/-- The first role with the key is replaced. -/
def replaceRole (role : RoleDef) : List RoleDef → Option (List RoleDef)
  | [] => none
  | r :: rest =>
      if r.key = role.key then some (role :: rest) else (replaceRole role rest).map (r :: ·)

def addRole (s : Memstore) (orgID : String) (role : RoleDef) : Memstore :=
  s.setRoles orgID ((replaceRole role (s.roles orgID)).getD (s.roles orgID ++ [role]))

/-- The assignments filed under one organization and subject are rewritten. -/
def file (s : Memstore) (orgID subject : String) (assignments : List Assignment)
    (h : ∀ a ∈ assignments, a.orgID = orgID ∧ a.subject = subject) : Memstore where
  roles := s.roles
  assignments o u := if o = orgID ∧ u = subject then assignments else s.assignments o u
  filed := by
    intro o u a ha
    split at ha
    · rename_i hcell
      rw [hcell.1, hcell.2]
      exact h a ha
    · exact s.filed o u a ha

def setAssignments (s : Memstore) (orgID subject : String) (assignments : List Assignment) :
    Memstore :=
  s.file orgID subject (assignments.map fun a => { a with orgID := orgID, subject := subject }) (by
    intro a ha
    rcases List.mem_map.1 ha with ⟨b, _, rfl⟩
    exact ⟨rfl, rfl⟩)

def addAssignment (s : Memstore) (a : Assignment) : Memstore :=
  s.file a.orgID a.subject (s.assignments a.orgID a.subject ++ [a]) (by
    intro b hb
    rcases List.mem_append.1 hb with hb | hb
    · exact s.filed _ _ b hb
    · rw [List.mem_singleton.1 hb]
      exact ⟨rfl, rfl⟩)

/-- The store as the authorizer reads it, with a context that is not cancelled. -/
def store (s : Memstore) : Store where
  roles orgID := .ok (s.roles orgID)
  assignments orgID subject := .ok (s.assignments orgID subject)

theorem mem_addAssignment {s : Memstore} {a b : Assignment} {orgID subject : String} :
    b ∈ (s.addAssignment a).assignments orgID subject ↔
      b ∈ s.assignments orgID subject ∨ (b = a ∧ a.orgID = orgID ∧ a.subject = subject) := by
  have hcell : (s.addAssignment a).assignments orgID subject =
      if orgID = a.orgID ∧ subject = a.subject then s.assignments a.orgID a.subject ++ [a]
      else s.assignments orgID subject := rfl
  rw [hcell]
  split
  · rename_i h
    simp [h.1, h.2]
  · rename_i h
    constructor
    · exact .inl
    · rintro (hold | ⟨_, horg, hsubject⟩)
      · exact hold
      · exact absurd ⟨horg.symm, hsubject.symm⟩ h

end Memstore

end Authorization
end OrbitAuth
