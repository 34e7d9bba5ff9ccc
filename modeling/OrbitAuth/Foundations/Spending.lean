import Mathlib.Data.List.Perm.Subperm
import OrbitAuth.Foundations.Interleaving

/-!
# Spending — things that exist, are spent and come back only when they are stored

`live` says whether a thing is there, a *spending* call takes it away and a *bearing* call brings
it.  If every spending call finds the thing and only bearing calls bring it, then in every run the
thing is spent at most as often as it was there to begin with or was brought (`spends_le`).  A
group of distinct threads that have each spent it is no larger than that (`length_le_spends`).
-/

namespace OrbitAuth
namespace Foundations
namespace Pool

variable {S : Signature} {ε α C W : Type} {exec : (o : S.Op) → C → W → S.Ans o × W}

/-- The logged call balances: it spends only what is there, and brings only what it bears. -/
structure Balanced (live : W → Bool) (spends bears : Entry S W → Bool) (e : Entry S W) : Prop where
  spent : spends e = true → live e.before = true ∧ live e.after = false
  born : live e.before = false → live e.after = true → bears e = true

section Spending

variable {live : W → Bool} {spends bears : Entry S W → Bool}

theorem Balanced.toNat_le {e : Entry S W} (h : Balanced live spends bears e) :
    (spends e).toNat + (live e.after).toNat ≤ (live e.before).toNat + (bears e).toNat := by
  have hspent := h.spent
  have hborn := h.born
  revert hspent hborn
  cases spends e <;> cases live e.before <;> cases live e.after <;> cases bears e <;> simp

/-- The account of a pool that started from `w₀`. -/
def Account (live : W → Bool) (spends bears : Entry S W → Bool) (w₀ : W) (p : Pool S ε α W) :
    Prop :=
  p.log.countP spends + (live p.world).toNat ≤ (live w₀).toNat + p.log.countP bears

theorem countP_snoc (f : Entry S W → Bool) (log : List (Entry S W)) (e : Entry S W) :
    (log ++ [e]).countP f = log.countP f + (f e).toNat := by
  cases hf : f e <;> simp [List.countP_append, hf]

theorem account_called {w₀ : W} {p : Pool S ε α W} {i : Nat} {c : C} {o : S.Op}
    {k : S.Ans o → Program S ε α} (hp : p.Account live spends bears w₀)
    (hbal : Balanced live spends bears
      ⟨i, o, (exec o c p.world).1, p.world, (exec o c p.world).2⟩) :
    (p.called exec i c o k).Account live spends bears w₀ := by
  have hcall := hbal.toNat_le
  dsimp only at hcall
  unfold Account at hp ⊢
  simp only [called, countP_snoc]
  omega

/-- A thing is spent at most as often as it was there or was brought. -/
theorem spends_le {ok : Pool S ε α W → Nat → C → Prop}
    (hbal : ∀ (p : Pool S ε α W) i c o, ok p i c → p.head? i = some o →
      Balanced live spends bears ⟨i, o, (exec o c p.world).1, p.world, (exec o c p.world).2⟩)
    {w₀ : W} {ps : List (Program S ε α)} {sched : List (Nat × C)}
    (hok : Along exec ok (start w₀ ps) sched) :
    ((start w₀ ps).run exec sched).log.countP spends ≤
      (live w₀).toNat + ((start w₀ ps).run exec sched).log.countP bears := by
  have hrun : ((start w₀ ps).run exec sched).Account live spends bears w₀ := by
    refine run_inv (J := Account live spends bears w₀) ?_ sched _ hok ?_
    · intro p i c hp hstep
      rcases step_cases exec p i c with h | ⟨o, k, hi, h⟩
      · rw [h]
        exact hp
      · rw [h]
        exact account_called hp (hbal p i c o hstep (head?_of_threads hi))
    · simp [Account, start]
  exact Nat.le_trans (Nat.le_add_right _ _) hrun

/-- Distinct threads that have each made a spending call. -/
theorem length_le_spends {p : Pool S ε α W} {is : List Nat} (hnodup : is.Nodup)
    (hspent : ∀ i ∈ is, ∃ e ∈ p.log, e.thread = i ∧ spends e = true) :
    is.length ≤ p.log.countP spends := by
  have hsub : is ⊆ (p.log.filter spends).map Entry.thread := by
    intro i hi
    rcases hspent i hi with ⟨e, he, hthread, hs⟩
    exact List.mem_map.2 ⟨e, List.mem_filter.2 ⟨he, hs⟩, hthread⟩
  calc is.length ≤ ((p.log.filter spends).map Entry.thread).length :=
        (List.subperm_of_subset hnodup hsub).length_le
    _ = p.log.countP spends := by rw [List.length_map, List.countP_eq_length_filter]

end Spending

end Pool
end Foundations
end OrbitAuth
