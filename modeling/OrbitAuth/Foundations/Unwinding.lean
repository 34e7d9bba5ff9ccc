import Mathlib.Data.List.Basic

/-!
# Unwinding — what an observer sees of a run

Operations act on states, and an observer sees a view of the state.  If the operations that do not
concern the observer leave the view alone, and the others change it in a way that only depends on
the view, then what the observer sees after a run depends only on the operations that concern them
(`view_run`).
-/

namespace OrbitAuth
namespace Foundations
namespace Unwinding

variable {State Op View : Type} {apply : State → Op → State} {view : State → View}
  {concerns : Op → Bool}

/-- The two conditions on single operations. -/
structure Secure (apply : State → Op → State) (view : State → View)
    (concerns : Op → Bool) : Prop where
  unseen : ∀ s o, concerns o = false → view (apply s o) = view s
  seen : ∀ s s' o, concerns o = true → view s = view s' → view (apply s o) = view (apply s' o)

/-- Leaving out what does not concern the observer changes nothing they see. -/
theorem view_filter (h : Secure apply view concerns) (ops : List Op) :
    ∀ s s', view s = view s' → view (ops.foldl apply s) =
      view ((ops.filter concerns).foldl apply s') := by
  induction ops with
  | nil => exact fun _ _ heq => heq
  | cons o ops ih =>
      intro s s' heq
      cases ho : concerns o with
      | false =>
          rw [List.filter_cons_of_neg (by simp [ho])]
          exact ih _ _ ((h.unseen s o ho).trans heq)
      | true =>
          rw [List.filter_cons_of_pos ho]
          exact ih _ _ (h.seen s s' o ho heq)

/-- Runs with the same operations that concern the observer look the same. -/
theorem view_run (h : Secure apply view concerns) {ops ops' : List Op}
    (hops : ops.filter concerns = ops'.filter concerns) {s s' : State} (heq : view s = view s') :
    view (ops.foldl apply s) = view (ops'.foldl apply s') := by
  calc view (ops.foldl apply s)
      = view ((ops.filter concerns).foldl apply s) := view_filter h ops s s rfl
    _ = view ((ops'.filter concerns).foldl apply s) := by rw [hops]
    _ = view (ops'.foldl apply s') := (view_filter h ops' s' s heq.symm).symm

end Unwinding
end Foundations
end OrbitAuth
