import OrbitAuth.Foundations.Interleaving

/-!
# Solo — a program alone with its world

Without other threads a run is decided by the choices of the environment alone.  `Must` says what
holds of the result whatever the environment chooses, `May` what it can choose to bring about, and
`Surely` how the run ends, with a value or an error, as long as the environment cooperates;
`MustFor` is `Must` for the choices it makes for certain operations.  They are proved piece by piece
along the program (`safe_bind`, `may_bind`, `surely_bind`, `mustFor_bind`) and then read off its
runs (`must_run`, `may_run`, `surely_run`, `mustFor_run`).
-/

namespace OrbitAuth
namespace Foundations
namespace Program

variable {S : Signature} {ε α β C W : Type} {exec : (o : S.Op) → C → W → S.Ans o × W}
variable {p : Program S ε α} {post : α → W → Prop} {w : W}

/-! ## Whatever happens -/

/-- Every result of `p`, started in `w`, meets `post`.  Nothing moves while the program waits. -/
abbrev Must (exec : (o : S.Op) → C → W → S.Ans o × W) (post : α → W → Prop)
    (p : Program S ε α) (w : W) : Prop :=
  p.Safe exec (fun _ => True) (fun _ w w' => w' = w) (fun _ _ _ _ => True) post w

theorem must_call {o : S.Op} {k : S.Ans o → Program S ε α}
    (h : ∀ c : C, (k (exec o c w).1).Must exec post (exec o c w).2) :
    (call o k).Must exec post w := by
  refine .call (fun _ _ _ _ => ⟨trivial, trivial⟩) ?_
  intro w' _ hw c
  subst hw
  exact h c

theorem must_true (p : Program S ε α) (w : W) : p.Must exec (fun _ _ => True) w :=
  safe_of_uses (fun _ _ _ _ _ => ⟨trivial, trivial⟩) (uses_true p) w

theorem must_run (hp : p.Must exec post w) :
    ∀ (cs : Nat → C) (a : α), (p.run exec cs w).1 = .ok a → post a (p.run exec cs w).2 := by
  induction hp with
  | done h =>
      intro cs a ha
      cases ha
      exact h
  | fail =>
      intro cs a ha
      cases ha
  | call _ _ ih =>
      intro cs a ha
      exact ih _ trivial rfl (cs 0) _ a ha

theorem must_and {post post' : α → W → Prop} (h : p.Must exec post w) (h' : p.Must exec post' w) :
    p.Must exec (fun a w => post a w ∧ post' a w) w := by
  induction h with
  | done hpost =>
      cases h' with
      | done hpost' => exact .done ⟨hpost, hpost'⟩
  | fail => exact .fail
  | call _ _ ih =>
      refine must_call fun c => ?_
      exact ih _ trivial rfl c (safe_call h' trivial rfl c).2.2

/-- Catching the error of a program. -/
theorem must_reify {ε' : Type} (h : p.Must exec post w) :
    (p.reify : Program S ε' (Except ε α)).Must exec (fun r w => ∀ a, r = .ok a → post a w) w := by
  induction h with
  | done hpost =>
      refine .done fun a ha => ?_
      cases ha
      exact hpost
  | fail => exact .done fun a ha => by cases ha
  | call _ _ ih =>
      refine must_call fun c => ?_
      exact ih _ trivial rfl c

/-- A program that makes only allowed calls keeps what they keep. -/
theorem must_of_makes {honest : (o : S.Op) → S.Ans o → Prop} {allowed : S.Op → Prop}
    {I : W → Prop} {post : α → Prop}
    (hexec : ∀ o c w, allowed o → I w → honest o (exec o c w).1 ∧ I (exec o c w).2)
    (hp : p.Makes honest allowed post) : ∀ w, I w → p.Must exec (fun a w => post a ∧ I w) w := by
  induction hp with
  | done h =>
      intro w hw
      exact .done ⟨h, hw⟩
  | fail e =>
      intro w _
      exact .fail
  | call ho _ ih =>
      intro w hw
      refine must_call fun c => ?_
      obtain ⟨hans, hnext⟩ := hexec _ c w ho hw
      exact ih _ hans _ hnext

/-! ## What can happen -/

/-- Some choices of the environment take `p` from `w` to a result that meets `post`. -/
inductive May (exec : (o : S.Op) → C → W → S.Ans o × W) (post : α → W → Prop) :
    Program S ε α → W → Prop
  | done {a : α} {w : W} (h : post a w) : May exec post (done a) w
  | call {o : S.Op} {k : S.Ans o → Program S ε α} {w : W} (c : C)
      (h : May exec post (k (exec o c w).1) (exec o c w).2) : May exec post (call o k) w

theorem may_bind {M : α → W → Prop} {post : β → W → Prop} {f : α → Program S ε β}
    (hp : p.May exec M w) (hf : ∀ a w, M a w → (f a).May exec post w) :
    (p >>= f).May exec post w := by
  induction hp with
  | done h => exact hf _ _ h
  | call c _ ih => exact .call c ih

theorem may_mono {post post' : α → W → Prop} (himp : ∀ a w, post a w → post' a w)
    (hp : p.May exec post w) : p.May exec post' w := by
  induction hp with
  | done h => exact .done (himp _ _ h)
  | call c _ ih => exact .call c ih

theorem may_map {post : β → W → Prop} {f : α → β} (hp : p.May exec (fun a w => post (f a) w) w) :
    (f <$> p).May exec post w :=
  may_bind hp fun _ _ h => .done h

/-- First `c`, then `cs`. -/
def consChoice (c : C) (cs : Nat → C) : Nat → C
  | 0 => c
  | n + 1 => cs n

/-- The choices of a run that can happen, put in a row. -/
theorem may_run [Inhabited C] (hp : p.May exec post w) :
    ∃ (cs : Nat → C) (a : α), (p.run exec cs w).1 = .ok a ∧ post a (p.run exec cs w).2 := by
  induction hp with
  | @done a w h => exact ⟨fun _ => default, a, rfl, h⟩
  | call c _ ih =>
      rcases ih with ⟨cs, a, ha, hpost⟩
      exact ⟨consChoice c cs, a, ha, hpost⟩

/-! ## How it ends -/

/-- Whatever choices that meet `ok` the environment makes, `p` started in `w` ends as `post` says.
-/
inductive Surely (exec : (o : S.Op) → C → W → S.Ans o × W) (ok : C → Prop)
    (post : Except ε α → W → Prop) : Program S ε α → W → Prop
  | done {a : α} {w : W} (h : post (.ok a) w) : Surely exec ok post (done a) w
  | fail {e : ε} {w : W} (h : post (.error e) w) : Surely exec ok post (fail e) w
  | call {o : S.Op} {k : S.Ans o → Program S ε α} {w : W}
      (h : ∀ c, ok c → Surely exec ok post (k (exec o c w).1) (exec o c w).2) :
      Surely exec ok post (call o k) w

section Surely

variable {ok : C → Prop}

theorem surely_bind {M : Except ε α → W → Prop} {post : Except ε β → W → Prop}
    {f : α → Program S ε β} (hp : p.Surely exec ok M w)
    (hf : ∀ a w, M (.ok a) w → (f a).Surely exec ok post w)
    (herr : ∀ e w, M (.error e) w → post (.error e) w) : (p >>= f).Surely exec ok post w := by
  induction hp with
  | done h => exact hf _ _ h
  | fail h => exact .fail (herr _ _ h)
  | call _ ih => exact .call ih

theorem surely_run {post : Except ε α → W → Prop} (hp : p.Surely exec ok post w) :
    ∀ cs : Nat → C, (∀ n, ok (cs n)) → post (p.run exec cs w).1 (p.run exec cs w).2 := by
  induction hp with
  | done h =>
      intro cs _
      exact h
  | fail h =>
      intro cs _
      exact h
  | call _ ih =>
      intro cs hcs
      exact ih (cs 0) (hcs 0) _ fun n => hcs (n + 1)

end Surely

/-! ## For some choices -/

/-- The operations that a run of `p` performs, each with the choice that is made for it. -/
def steps (exec : (o : S.Op) → C → W → S.Ans o × W) :
    Program S ε α → (Nat → C) → W → List (S.Op × C)
  | done _, _, _ => []
  | fail _, _, _ => []
  | call o k, cs, w =>
      (o, cs 0) :: (k (exec o (cs 0) w).1).steps exec (fun n => cs (n + 1)) (exec o (cs 0) w).2

/-- As `Must`, when the choices made for each operation meet `ok`. -/
inductive MustFor (exec : (o : S.Op) → C → W → S.Ans o × W) (ok : S.Op → C → Prop)
    (post : α → W → Prop) : Program S ε α → W → Prop
  | done {a : α} {w : W} (h : post a w) : MustFor exec ok post (done a) w
  | fail {e : ε} {w : W} : MustFor exec ok post (fail e) w
  | call {o : S.Op} {k : S.Ans o → Program S ε α} {w : W}
      (h : ∀ c, ok o c → MustFor exec ok post (k (exec o c w).1) (exec o c w).2) :
      MustFor exec ok post (call o k) w

section MustFor

variable {ok : S.Op → C → Prop}

theorem mustFor_of_must (hp : p.Must exec post w) : p.MustFor exec ok post w := by
  induction hp with
  | done h => exact .done h
  | fail => exact .fail
  | call _ _ ih => exact .call fun c _ => ih _ trivial rfl c

theorem mustFor_bind {M : α → W → Prop} {post : β → W → Prop} {f : α → Program S ε β}
    (hp : p.MustFor exec ok M w) (hf : ∀ a w, M a w → (f a).MustFor exec ok post w) :
    (p >>= f).MustFor exec ok post w := by
  induction hp with
  | done h => exact hf _ _ h
  | fail => exact .fail
  | call _ ih => exact .call ih

theorem mustFor_mono {post post' : α → W → Prop} (himp : ∀ a w, post a w → post' a w)
    (hp : p.MustFor exec ok post w) : p.MustFor exec ok post' w := by
  induction hp with
  | done h => exact .done (himp _ _ h)
  | fail => exact .fail
  | call _ ih => exact .call ih

theorem mustFor_map {post : β → W → Prop} {f : α → β}
    (hp : p.MustFor exec ok (fun a w => post (f a) w) w) : (f <$> p).MustFor exec ok post w :=
  mustFor_bind hp fun _ _ h => .done h

/-- The condition is only asked of the operations that the run performs. -/
theorem mustFor_run (hp : p.MustFor exec ok post w) :
    ∀ (cs : Nat → C) (a : α), (∀ s ∈ p.steps exec cs w, ok s.1 s.2) → (p.run exec cs w).1 = .ok a →
      post a (p.run exec cs w).2 := by
  induction hp with
  | done h =>
      intro cs a _ ha
      cases ha
      exact h
  | fail =>
      intro cs a _ ha
      cases ha
  | call _ ih =>
      intro cs a hok ha
      rw [steps, List.forall_mem_cons] at hok
      exact ih (cs 0) hok.1 _ a hok.2 ha

end MustFor

end Program

export Program (must_true must_call must_run may_bind may_map may_mono)
end Foundations
end OrbitAuth
