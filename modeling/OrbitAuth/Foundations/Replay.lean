import Mathlib.Logic.Basic

/-!
# Replay — a keyed store rebuilt from its log

A change sets one key to a value or removes it.  Replaying a log of changes from nothing gives a
partial map: the last change of a key decides.  `Replays cs m` says that the map `m` is what the log
`cs` gives; the lemmas say how the two move together.
-/

namespace OrbitAuth
namespace Foundations

/-- Set a key to a value, or remove it. -/
structure Change (κ ν : Type) where
  key : κ
  value : Option ν

variable {κ ν : Type} [DecidableEq κ]

def Change.apply (c : Change κ ν) (m : κ → Option ν) : κ → Option ν :=
  fun k => if c.key = k then c.value else m k

def replay (cs : List (Change κ ν)) : κ → Option ν :=
  cs.foldl (fun m c => c.apply m) fun _ => none

theorem replay_snoc (cs : List (Change κ ν)) (c : Change κ ν) :
    replay (cs ++ [c]) = c.apply (replay cs) := by
  simp [replay, List.foldl_append]

/-- The map is what the log gives. -/
def Replays (cs : List (Change κ ν)) (m : κ → Option ν) : Prop :=
  ∀ k, replay cs k = m k

section Replays

variable {cs : List (Change κ ν)} {m m' : κ → Option ν} {c : Change κ ν}

theorem replays_nil (h : ∀ k, m k = none) : Replays [] m :=
  fun k => (h k).symm

/-- One more change: its key has the new value and the others stay. -/
theorem replays_snoc (h : Replays cs m) (hkey : m' c.key = c.value)
    (hother : ∀ k, k ≠ c.key → m' k = m k) : Replays (cs ++ [c]) m' := by
  intro k
  rw [replay_snoc, Change.apply]
  split
  · rename_i hk
    exact hk ▸ hkey.symm
  · rename_i hk
    rw [h k, hother k (Ne.symm hk)]

theorem replays_congr (h : Replays cs m) (heq : ∀ k, m' k = m k) : Replays cs m' :=
  fun k => (h k).trans (heq k).symm

end Replays

end Foundations
end OrbitAuth
