import OrbitAuth.Foundations.Solo

/-!
# Trail — how a program alone ends, and what it has performed on the way

The rules of `Foundations.Solo` speak about the result and the last world.  Some properties are
about the operations in between: which of them failed, at what instant one was performed.  The
`trail` of a run lists them, each with the choice that was made for it and the world it was
performed in.

* `Ends ok post` — whatever the environment chooses, as long as each choice meets `ok`, the result,
  the last world and the trail meet `post`;
* `ends_bind`, `ends_of_uses` — the rules along a program;
* `ends_run` — the theorem about its runs.
-/

namespace OrbitAuth
namespace Foundations

/-- An operation of a run, the choice made for it and the world before it. -/
structure Performed (S : Signature) (C W : Type) where
  op : S.Op
  choice : C
  world : W

namespace Program

variable {S : Signature} {ε α β C W : Type} {exec : (o : S.Op) → C → W → S.Ans o × W}
variable {p : Program S ε α}

/-- The operations that a run of `p` performs. -/
def trail (exec : (o : S.Op) → C → W → S.Ans o × W) :
    Program S ε α → (Nat → C) → W → List (Performed S C W)
  | done _, _, _ => []
  | fail _, _, _ => []
  | call o k, cs, w =>
      ⟨o, cs 0, w⟩ :: (k (exec o (cs 0) w).1).trail exec (fun n => cs (n + 1)) (exec o (cs 0) w).2

/-- After the operations `tr`, and whatever choices that meet `ok` are made, `p` ends as `post`
says. -/
inductive Ends (exec : (o : S.Op) → C → W → S.Ans o × W) (ok : S.Op → C → W → Prop)
    (post : Except ε α → W → List (Performed S C W) → Prop) :
    Program S ε α → W → List (Performed S C W) → Prop
  | done {a : α} {w : W} {tr : List (Performed S C W)} (h : post (.ok a) w tr) :
      Ends exec ok post (done a) w tr
  | fail {e : ε} {w : W} {tr : List (Performed S C W)} (h : post (.error e) w tr) :
      Ends exec ok post (fail e) w tr
  | call {o : S.Op} {k : S.Ans o → Program S ε α} {w : W} {tr : List (Performed S C W)}
      (h : ∀ c, ok o c w →
        Ends exec ok post (k (exec o c w).1) (exec o c w).2 (tr ++ [⟨o, c, w⟩])) :
      Ends exec ok post (call o k) w tr

section Ends

variable {ok : S.Op → C → W → Prop} {w : W} {tr : List (Performed S C W)}

/-- A sequence: what the first part leaves is where the second one starts. -/
theorem ends_bind {M : Except ε α → W → List (Performed S C W) → Prop}
    {post : Except ε β → W → List (Performed S C W) → Prop} {f : α → Program S ε β}
    (hp : p.Ends exec ok M w tr)
    (hf : ∀ a w' tr', M (.ok a) w' tr' → (f a).Ends exec ok post w' tr')
    (herr : ∀ e w' tr', M (.error e) w' tr' → post (.error e) w' tr') :
    (p >>= f).Ends exec ok post w tr := by
  induction hp with
  | done h => exact hf _ _ _ h
  | fail h => exact .fail (herr _ _ _ h)
  | call _ ih => exact .call ih

theorem ends_map {post : Except ε β → W → List (Performed S C W) → Prop} {f : α → β}
    (hp : p.Ends exec ok (fun res w' tr' => post (res.map f) w' tr') w tr) :
    (f <$> p).Ends exec ok post w tr :=
  ends_bind hp (fun _ _ _ h => .done h) fun _ _ _ h => h

theorem ends_mono {post post' : Except ε α → W → List (Performed S C W) → Prop}
    (himp : ∀ res w' tr', post res w' tr' → post' res w' tr') (hp : p.Ends exec ok post w tr) :
    p.Ends exec ok post' w tr := by
  induction hp with
  | done h => exact .done (himp _ _ _ h)
  | fail h => exact .fail (himp _ _ _ h)
  | call _ ih => exact .call ih

/-- A part whose error is handed on as a value. -/
theorem ends_reify {ε' : Type} {post : Except ε' (Except ε α) → W → List (Performed S C W) → Prop}
    (hp : p.Ends exec ok (fun res w' tr' => post (.ok res) w' tr') w tr) :
    (p.reify : Program S ε' (Except ε α)).Ends exec ok post w tr := by
  induction hp with
  | done h => exact .done h
  | fail h => exact .done h
  | call _ ih => exact .call ih

/-- What every operation of the program keeps holds at its end. -/
theorem ends_of_uses {I : W → List (Performed S C W) → Prop} {allowed : S.Op → Prop}
    (hstep : ∀ o c w tr, allowed o → ok o c w → I w tr → I (exec o c w).2 (tr ++ [⟨o, c, w⟩]))
    (hp : p.Uses allowed) : ∀ w tr, I w tr → p.Ends exec ok (fun _ w' tr' => I w' tr') w tr := by
  induction hp with
  | done a =>
      intro w tr h
      exact .done h
  | fail e =>
      intro w tr h
      exact .fail h
  | call ho _ ih =>
      intro w tr h
      exact .call fun c hc => ih _ _ _ (hstep _ c w tr ho hc h)

theorem ends_run {post : Except ε α → W → List (Performed S C W) → Prop}
    (hp : p.Ends exec ok post w tr) :
    ∀ cs : Nat → C, (∀ s ∈ p.trail exec cs w, ok s.op s.choice s.world) →
      post (p.run exec cs w).1 (p.run exec cs w).2 (tr ++ p.trail exec cs w) := by
  induction hp with
  | done h =>
      intro cs _
      simpa [trail] using h
  | fail h =>
      intro cs _
      simpa [trail] using h
  | call _ ih =>
      intro cs hok
      rw [trail, List.forall_mem_cons] at hok
      simpa [trail] using ih (cs 0) hok.1 (fun n => cs (n + 1)) hok.2

end Ends

end Program

export Program (ends_bind ends_map ends_mono ends_of_uses ends_run)
end Foundations
end OrbitAuth
