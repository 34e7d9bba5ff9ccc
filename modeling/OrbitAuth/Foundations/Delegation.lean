import Mathlib.Data.Set.Basic
import Mathlib.Logic.Relation

/-!
# Delegation — handing on what one holds

Agents hold rights.  A grant by a member of `K` may give one other agent rights that the granter
holds at that moment, and nothing else changes for the better.  Then no chain of grants creates a
right: whatever somebody ends up with, they or some member of `K` had at the beginning.
-/

namespace OrbitAuth
namespace Foundations
namespace Delegation

variable {Agent Right : Type} {K : Set Agent}

/-- Everything new after the step is held by one granter before it. -/
def Grants (K : Set Agent) (held held' : Agent → Set Right) : Prop :=
  ∃ g ∈ K, ∀ a, ∀ r ∈ held' a, r ∈ held a ∨ r ∈ held g

/-- Rights come from the agent or from `K`. -/
def Covered (K : Set Agent) (held held' : Agent → Set Right) : Prop :=
  ∀ a, ∀ r ∈ held' a, r ∈ held a ∨ ∃ k ∈ K, r ∈ held k

theorem covered_grants {start held held' : Agent → Set Right} (h : Covered K start held)
    (hstep : Grants K held held') : Covered K start held' := by
  rcases hstep with ⟨g, hg, hnew⟩
  intro a r hr
  rcases hnew a r hr with hold | hgranter
  · exact h a r hold
  · -- the granter's own right has an origin already
    rcases h g r hgranter with hstart | hk
    · exact .inr ⟨g, hg, hstart⟩
    · exact .inr hk

/-- The rule for chains, for states from which the holdings can be read off. -/
theorem covered_of_chain {S : Type} {step : S → S → Prop} (held : S → Agent → Set Right)
    (hstep : ∀ s s', step s s' → Grants K (held s) (held s')) {start finish : S}
    (h : Relation.ReflTransGen step start finish) : Covered K (held start) (held finish) := by
  induction h with
  | refl =>
      intro a r hr
      exact .inl hr
  | tail _ hlast ih => exact covered_grants ih (hstep _ _ hlast)

end Delegation
end Foundations
end OrbitAuth
