import Mathlib.Algebra.Order.Monoid.Defs
import Mathlib.Data.List.NodupEquivFin

/-!
# Spacing — events that keep their distance

A list of instants is `Spaced k d` when every entry and the one `k` places after it are at least `d`
apart.

* `spaced_cons` — the list, entry by entry;
* `window_length_le` — in a sorted list, a window shorter than `d` holds at most `k` of the entries.
-/

namespace OrbitAuth
namespace Foundations

variable {τ : Type} [LinearOrder τ] [Add τ] {k : Nat} {d : τ} {ts : List τ}

def Spaced (k : Nat) (d : τ) (ts : List τ) : Prop :=
  ∀ i s t, ts[i]? = some s → ts[i + k]? = some t → s + d ≤ t

theorem spaced_nil : Spaced k d ([] : List τ) := by
  intro i s t hs _
  cases hs

theorem spaced_cons {s : τ} :
    Spaced (k + 1) d (s :: ts) ↔ (∀ t, ts[k]? = some t → s + d ≤ t) ∧ Spaced (k + 1) d ts := by
  have hshift : ∀ i, (s :: ts)[i + 1 + (k + 1)]? = ts[i + (k + 1)]? := by
    intro i
    rw [Nat.add_right_comm i 1, List.getElem?_cons_succ]
  constructor
  · intro h
    refine ⟨fun t ht => h 0 s t rfl (by simpa using ht), fun i s' t hs ht => ?_⟩
    exact h (i + 1) s' t (by simpa using hs) ((hshift i).trans ht)
  · rintro ⟨hhead, htail⟩ i s' t hs ht
    cases i with
    | zero =>
        obtain rfl : s = s' := by simpa using hs
        exact hhead t (by simpa using ht)
    | succ i =>
        exact htail i s' t (by simpa using hs) ((hshift i).symm.trans ht)

/-- `k + 1` entries of a window would be as far apart as the first and the last of them. -/
theorem window_length_le [AddRightMono τ] (hsorted : ts.Pairwise (· ≤ ·))
    (hspaced : Spaced k d ts) {a b : τ} (hshort : b < a + d) :
    (ts.filter fun t => decide (a ≤ t) && decide (t ≤ b)).length ≤ k := by
  by_contra hlong
  obtain ⟨f, hf⟩ := List.sublist_iff_exists_orderEmbedding_getElem?_eq.mp
    (List.filter_sublist (l := ts) (p := fun t => decide (a ≤ t) && decide (t ≤ b)))
  have hat : ∀ i, i ≤ k → ∃ t, ts[f i]? = some t ∧ a ≤ t ∧ t ≤ b := by
    intro i hi
    have hlt : i < (ts.filter fun t => decide (a ≤ t) && decide (t ≤ b)).length := by omega
    have hget := List.getElem?_eq_getElem hlt
    have hmem := List.getElem_mem hlt
    rw [hf i] at hget
    simp only [List.mem_filter, Bool.and_eq_true, decide_eq_true_eq] at hmem
    exact ⟨_, hget, hmem.2⟩
  obtain ⟨first, hfirst, hafter, _⟩ := hat 0 (Nat.zero_le k)
  obtain ⟨last, hlast, _, hbefore⟩ := hat k le_rfl
  -- the positions in `ts` are at least as far apart as those in the window
  have hfar : f 0 + k ≤ f k := by
    have hstep : ∀ n, f 0 + n ≤ f n := by
      intro n
      induction n with
      | zero => exact le_rfl
      | succ n ih =>
          exact Nat.succ_le_of_lt (lt_of_le_of_lt ih (f.lt_iff_lt.mpr (Nat.lt_succ_self n)))
    exact hstep k
  obtain ⟨hk, hlastEq⟩ := List.getElem?_eq_some_iff.mp hlast
  have hbound : f 0 + k < ts.length := lt_of_le_of_lt hfar hk
  have hbetween : ts[f 0 + k] ≤ last := by
    rcases Nat.lt_or_eq_of_le hfar with hlt | heq
    · rw [← hlastEq]
      exact List.pairwise_iff_getElem.mp hsorted _ _ hbound hk hlt
    · subst hlastEq
      simp only [heq, le_refl]
  have hspan : first + d ≤ ts[f 0 + k] := hspaced _ _ _ hfirst (List.getElem?_eq_getElem hbound)
  have hshift : a + d ≤ first + d := add_le_add_left hafter d
  exact absurd (hshift.trans (hspan.trans (hbetween.trans hbefore))) (not_le.mpr hshort)

end Foundations
end OrbitAuth
