import Mathlib.Logic.Basic

/-!
# Program — effectful code as a tree of calls

A program over a signature is a value, a failure, or a call to one operation followed by a
continuation for every answer.  The tree fixes *which* calls happen in *which* order and what the
code does with every possible answer; it says nothing about what the calls do.  That is left to a
handler `exec`, so the same program can be run alone (`run`) or interleaved with others
(`Foundations.Interleaving`).

`Traces` speaks about all complete call histories of a program at once and is the tool for
statements of the form "whoever got this result has made that call".
-/

namespace OrbitAuth
namespace Foundations

/-- The operations a program may call, with the answer type of each. -/
structure Signature where
  Op : Type
  Ans : Op → Type

inductive Program (S : Signature) (ε α : Type) : Type where
  | done (a : α)
  | fail (e : ε)
  | call (o : S.Op) (k : S.Ans o → Program S ε α)

/-- One answered call. -/
structure Answered (S : Signature) where
  op : S.Op
  ans : S.Ans op

namespace Program

variable {S : Signature} {ε α β γ C W : Type}
variable {p : Program S ε α} {f : α → Program S ε β} {a : α}

/-! ## Sequencing -/

def bind : Program S ε α → (α → Program S ε β) → Program S ε β
  | done a, f => f a
  | fail e, _ => fail e
  | call o k, f => call o fun r => (k r).bind f

instance : Monad (Program S ε) where
  pure := done
  bind := bind

/-- The program that makes one call and returns its answer. -/
def perform (o : S.Op) : Program S ε (S.Ans o) :=
  call o done

/-- Go's `if err != nil { return f(err) }`. -/
def orFail {δ : Type} (f : δ → ε) : Except δ α → Program S ε α
  | .ok a => done a
  | .error e => fail (f e)

/-- Run a program and hand its error to the caller as a value. -/
def reify {ε' : Type} : Program S ε α → Program S ε' (Except ε α)
  | done a => done (.ok a)
  | fail e => done (.error e)
  | call o k => call o fun r => (k r).reify

/-- Rename the results and the failures of a program. -/
def bimap {ε' : Type} (f : α → β) (g : ε → ε') : Program S ε α → Program S ε' β
  | done a => done (f a)
  | fail e => fail (g e)
  | call o k => call o fun r => (k r).bimap f g

@[simp] theorem pure_eq (a : α) : (pure a : Program S ε α) = done a := rfl

@[simp] theorem bind_eq (p : Program S ε α) (f : α → Program S ε β) : p >>= f = p.bind f := rfl

@[simp] theorem map_eq (p : Program S ε α) (f : α → β) :
    f <$> p = p.bind fun a => done (f a) := rfl

@[simp] theorem done_bind (a : α) (f : α → Program S ε β) : (done a).bind f = f a := rfl

@[simp] theorem fail_bind (e : ε) (f : α → Program S ε β) :
    (fail e : Program S ε α).bind f = fail e := rfl

@[simp] theorem call_bind (o : S.Op) (k : S.Ans o → Program S ε α) (f : α → Program S ε β) :
    (call o k).bind f = call o fun r => (k r).bind f := rfl

@[simp] theorem perform_bind (o : S.Op) (f : S.Ans o → Program S ε β) :
    (perform o : Program S ε (S.Ans o)).bind f = call o f := rfl

@[simp] theorem orFail_ok {δ : Type} (f : δ → ε) (a : α) :
    (orFail f (.ok a) : Program S ε α) = done a := rfl

@[simp] theorem orFail_error {δ : Type} (f : δ → ε) (e : δ) :
    (orFail f (.error e) : Program S ε α) = fail (f e) := rfl

@[simp] theorem reify_done {ε' : Type} (a : α) :
    ((done a : Program S ε α).reify : Program S ε' (Except ε α)) = done (.ok a) := rfl

@[simp] theorem reify_fail {ε' : Type} (e : ε) :
    ((fail e : Program S ε α).reify : Program S ε' (Except ε α)) = done (.error e) := rfl

@[simp] theorem reify_call {ε' : Type} (o : S.Op) (k : S.Ans o → Program S ε α) :
    ((call o k).reify : Program S ε' (Except ε α)) = call o fun r => (k r).reify := rfl

theorem bind_assoc (p : Program S ε α) (f : α → Program S ε β) (g : β → Program S ε γ) :
    (p.bind f).bind g = p.bind fun a => (f a).bind g := by
  induction p with
  | done a => rfl
  | fail e => rfl
  | call o k ih =>
      simp only [call_bind]
      congr 1
      funext r
      exact ih r

/-! ## Observations -/

/-- The result of a program that has nothing left to call. -/
def result? : Program S ε α → Option (Except ε α)
  | done a => some (.ok a)
  | fail e => some (.error e)
  | call _ _ => none

/-- The operation a program is about to call. -/
def head? : Program S ε α → Option S.Op
  | call o _ => some o
  | _ => none

@[simp] theorem result?_done (a : α) : (done a : Program S ε α).result? = some (.ok a) := rfl

@[simp] theorem result?_fail (e : ε) : (fail e : Program S ε α).result? = some (.error e) := rfl

@[simp] theorem result?_call (o : S.Op) (k : S.Ans o → Program S ε α) :
    (call o k).result? = none := rfl

@[simp] theorem head?_call (o : S.Op) (k : S.Ans o → Program S ε α) :
    (call o k).head? = some o := rfl

theorem result?_eq_ok (h : p.result? = some (.ok a)) : p = done a := by
  cases p with
  | done b =>
      have : b = a := by simpa [result?] using h
      rw [this]
  | fail e => simp [result?] at h
  | call o k => simp [result?] at h

/-! ## Running alone -/

/-- Run a program by itself.  `exec` answers each call; `cs` supplies, call by call, whatever the
environment is free to choose. -/
def run (exec : (o : S.Op) → C → W → S.Ans o × W) :
    Program S ε α → (Nat → C) → W → Except ε α × W
  | done a, _, w => (.ok a, w)
  | fail e, _, w => (.error e, w)
  | call o k, cs, w =>
      (k (exec o (cs 0) w).1).run exec (fun n => cs (n + 1)) (exec o (cs 0) w).2

section Run

variable {exec : (o : S.Op) → C → W → S.Ans o × W}

@[simp] theorem run_done (a : α) (cs : Nat → C) (w : W) :
    (done a : Program S ε α).run exec cs w = (.ok a, w) := rfl

@[simp] theorem run_fail (e : ε) (cs : Nat → C) (w : W) :
    (fail e : Program S ε α).run exec cs w = (.error e, w) := rfl

@[simp] theorem run_call (o : S.Op) (k : S.Ans o → Program S ε α) (cs : Nat → C) (w : W) :
    (call o k).run exec cs w =
      (k (exec o (cs 0) w).1).run exec (fun n => cs (n + 1)) (exec o (cs 0) w).2 := rfl

/-- A sequence gets through when both of its parts do, one after the other. -/
theorem run_bind_eq_ok {c : C} {w w'' : W} {b : β} :
    (p.bind f).run exec (fun _ => c) w = (.ok b, w'') ↔
      ∃ a w', p.run exec (fun _ => c) w = (.ok a, w') ∧
        (f a).run exec (fun _ => c) w' = (.ok b, w'') := by
  induction p generalizing w with
  | done a =>
      constructor
      · intro h
        exact ⟨a, w, rfl, h⟩
      · rintro ⟨a', w', hdone, h⟩
        cases hdone
        exact h
  | fail e =>
      constructor
      · intro h
        cases h
      · rintro ⟨a, w', hfail, _⟩
        cases hfail
  | call o k ih => exact ih _

/-- A sequence whose first part gets through goes on with the choices that are left. -/
theorem run_bind_ok {cs : Nat → C} {w w' : W} (h : p.run exec cs w = (.ok a, w')) :
    ∃ n, (p.bind f).run exec cs w = (f a).run exec (fun k => cs (k + n)) w' := by
  induction p generalizing cs w with
  | done a' =>
      cases h
      exact ⟨0, rfl⟩
  | fail e => cases h
  | call o k ih =>
      obtain ⟨n, hn⟩ := ih _ h
      exact ⟨n + 1, hn⟩

/-- A sequence whose first part fails has failed. -/
theorem run_bind_error {cs : Nat → C} {w w' : W} {e : ε} (h : p.run exec cs w = (.error e, w')) :
    (p.bind f).run exec cs w = (.error e, w') := by
  induction p generalizing cs w with
  | done a => cases h
  | fail e' =>
      cases h
      rfl
  | call o k ih => exact ih _ h

theorem run_bimap {ε' : Type} (f : α → β) (g : ε → ε') (p : Program S ε α) (cs : Nat → C) (w : W) :
    (p.bimap f g).run exec cs w =
      ((p.run exec cs w).1.map f |>.mapError g, (p.run exec cs w).2) := by
  induction p generalizing cs w with
  | done a => rfl
  | fail e => rfl
  | call o k ih => exact ih _ _ _

end Run

/-! ## The calls of a program -/

/-- Every call the program can make satisfies `allowed`. -/
inductive Uses (allowed : S.Op → Prop) : Program S ε α → Prop
  | done (a : α) : Uses allowed (done a)
  | fail (e : ε) : Uses allowed (fail e)
  | call {o : S.Op} {k : S.Ans o → Program S ε α} (ho : allowed o)
      (hk : ∀ r, Uses allowed (k r)) : Uses allowed (call o k)

section Uses

variable {allowed : S.Op → Prop}

theorem uses_bind (hp : p.Uses allowed) (hf : ∀ a, (f a).Uses allowed) :
    (p >>= f).Uses allowed := by
  induction hp with
  | done a => exact hf a
  | fail e => exact .fail e
  | call ho _ ih => exact .call ho ih

theorem uses_map (hp : p.Uses allowed) (f : α → β) : (f <$> p).Uses allowed :=
  uses_bind hp fun a => .done (f a)

theorem uses_bimap {ε' : Type} (hp : p.Uses allowed) (f : α → β) (g : ε → ε') :
    (p.bimap f g).Uses allowed := by
  induction hp with
  | done a => exact .done _
  | fail e => exact .fail _
  | call ho _ ih => exact .call ho ih

theorem uses_reify {ε' : Type} (hp : p.Uses allowed) :
    (p.reify : Program S ε' (Except ε α)).Uses allowed := by
  induction hp with
  | done a => exact .done _
  | fail e => exact .done _
  | call ho _ ih => exact .call ho ih

theorem uses_mono {allowed' : S.Op → Prop} (himp : ∀ o, allowed o → allowed' o)
    (hp : p.Uses allowed) : p.Uses allowed' := by
  induction hp with
  | done a => exact .done a
  | fail e => exact .fail e
  | call ho _ ih => exact .call (himp _ ho) ih

theorem uses_true (p : Program S ε α) : p.Uses fun _ => True := by
  induction p with
  | done a => exact .done a
  | fail e => exact .fail e
  | call o k ih => exact .call trivial ih

/-- What every allowed call does to the world, a whole run does. -/
theorem run_rel {exec : (o : S.Op) → C → W → S.Ans o × W} {R : W → W → Prop} (hrefl : ∀ w, R w w)
    (htrans : ∀ w₁ w₂ w₃, R w₁ w₂ → R w₂ w₃ → R w₁ w₃)
    (hexec : ∀ o c w, allowed o → R w (exec o c w).2) (hp : p.Uses allowed) :
    ∀ (cs : Nat → C) (w : W), R w (p.run exec cs w).2 := by
  induction hp with
  | done a =>
      intro cs w
      exact hrefl w
  | fail e =>
      intro cs w
      exact hrefl w
  | call ho _ ih =>
      intro cs w
      exact htrans _ _ _ (hexec _ (cs 0) w ho) (ih _ _ _)

end Uses

/-! ## The calls of a program, given its answers -/

/-- As long as the answers are `honest`, every call the program makes is `allowed` and its result
meets `post`. -/
inductive Makes (honest : (o : S.Op) → S.Ans o → Prop) (allowed : S.Op → Prop) (post : α → Prop) :
    Program S ε α → Prop
  | done {a : α} (h : post a) : Makes honest allowed post (done a)
  | fail (e : ε) : Makes honest allowed post (fail e)
  | call {o : S.Op} {k : S.Ans o → Program S ε α} (ho : allowed o)
      (hk : ∀ r, honest o r → Makes honest allowed post (k r)) :
      Makes honest allowed post (call o k)

section Makes

variable {honest : (o : S.Op) → S.Ans o → Prop} {allowed : S.Op → Prop}

/-- Sequencing: the first part says what the second part may assume about its value. -/
theorem makes_bind {M : α → Prop} {post : β → Prop} (hp : p.Makes honest allowed M)
    (hf : ∀ a, M a → (f a).Makes honest allowed post) : (p >>= f).Makes honest allowed post := by
  induction hp with
  | done h => exact hf _ h
  | fail e => exact .fail e
  | call ho _ ih => exact .call ho ih

theorem makes_map {post : β → Prop} {f : α → β} (hp : p.Makes honest allowed fun a => post (f a)) :
    (f <$> p).Makes honest allowed post :=
  makes_bind hp fun _ h => .done h

theorem makes_mono {allowed' : S.Op → Prop} {post : α → Prop} (himp : ∀ o, allowed o → allowed' o)
    (hp : p.Makes honest allowed post) : p.Makes honest allowed' post := by
  induction hp with
  | done h => exact .done h
  | fail e => exact .fail e
  | call ho _ ih => exact .call (himp _ ho) ih

theorem makes_bimap {ε' : Type} {post : β → Prop} {f : α → β} {g : ε → ε'}
    (hp : p.Makes honest allowed fun a => post (f a)) :
    (p.bimap f g).Makes honest allowed post := by
  induction hp with
  | done h => exact .done h
  | fail e => exact .fail (g e)
  | call ho _ ih => exact .call ho ih

/-- A bound on the calls that does not depend on the answers. -/
theorem makes_of_uses (hp : p.Uses allowed) : p.Makes honest allowed fun _ => True := by
  induction hp with
  | done a => exact .done trivial
  | fail e => exact .fail e
  | call ho _ ih => exact .call ho fun r _ => ih r

/-- An invariant that every allowed call keeps, answering honestly, holds after a run. -/
theorem run_makes {exec : (o : S.Op) → C → W → S.Ans o × W} {I : W → Prop} {post : α → Prop}
    (hexec : ∀ o c w, allowed o → I w → honest o (exec o c w).1 ∧ I (exec o c w).2)
    (hp : p.Makes honest allowed post) : ∀ (cs : Nat → C) (w : W), I w → I (p.run exec cs w).2 := by
  induction hp with
  | done h =>
      intro cs w hw
      exact hw
  | fail e =>
      intro cs w hw
      exact hw
  | call ho _ ih =>
      intro cs w hw
      obtain ⟨hans, hnext⟩ := hexec _ (cs 0) w ho hw
      exact ih _ hans _ _ hnext

end Makes

/-! ## A last call -/

/-- As long as the answers are `honest`, every call is `quiet`, except that the program may end with
one `final` call. -/
inductive Finishes (honest : (o : S.Op) → S.Ans o → Prop) (quiet final : S.Op → Prop) :
    Program S ε α → Prop
  | done (a : α) : Finishes honest quiet final (done a)
  | fail (e : ε) : Finishes honest quiet final (fail e)
  | call {o : S.Op} {k : S.Ans o → Program S ε α} (ho : quiet o)
      (hk : ∀ r, honest o r → Finishes honest quiet final (k r)) :
      Finishes honest quiet final (call o k)
  | last {o : S.Op} {k : S.Ans o → Program S ε α} (ho : final o)
      (hk : ∀ r, (∃ a, k r = .done a) ∨ ∃ e, k r = .fail e) : Finishes honest quiet final (call o k)

section Finishes

variable {honest : (o : S.Op) → S.Ans o → Prop} {quiet final : S.Op → Prop}

theorem finishes_of_uses (hp : p.Uses quiet) : p.Finishes honest quiet final := by
  induction hp with
  | done a => exact .done a
  | fail e => exact .fail e
  | call ho _ ih => exact .call ho fun r _ => ih r

theorem finishes_bind {M : α → Prop} (hp : p.Makes honest quiet M)
    (hf : ∀ a, M a → (f a).Finishes honest quiet final) :
    (p >>= f).Finishes honest quiet final := by
  induction hp with
  | done h => exact hf _ h
  | fail e => exact .fail e
  | call ho _ ih => exact .call ho ih

theorem finishes_bimap {ε' : Type} (hp : p.Finishes honest quiet final) (f : α → β) (g : ε → ε') :
    (p.bimap f g).Finishes honest quiet final := by
  induction hp with
  | done a => exact .done _
  | fail e => exact .fail _
  | call ho _ ih => exact .call ho ih
  | last ho hk =>
      refine .last ho fun r => ?_
      rcases hk r with ⟨a, h⟩ | ⟨e, h⟩
      · exact .inl ⟨f a, by rw [h]; rfl⟩
      · exact .inr ⟨g e, by rw [h]; rfl⟩

theorem finishes_map (hp : p.Finishes honest quiet final) (f : α → β) :
    (f <$> p).Finishes honest quiet final := by
  induction hp with
  | done a => exact .done _
  | fail e => exact .fail _
  | call ho _ ih => exact .call ho ih
  | last ho hk =>
      refine .last ho fun r => ?_
      rcases hk r with ⟨a, h⟩ | ⟨e, h⟩
      · exact .inl ⟨f a, by rw [h]; rfl⟩
      · exact .inr ⟨e, by rw [h]; rfl⟩

/-- A run gets somewhere with quiet calls and ends there, or one final call later. -/
theorem run_finishes {exec : (o : S.Op) → C → W → S.Ans o × W} {R : W → W → Prop}
    (hrefl : ∀ w, R w w) (htrans : ∀ w₁ w₂ w₃, R w₁ w₂ → R w₂ w₃ → R w₁ w₃)
    (hexec : ∀ o c w, quiet o → honest o (exec o c w).1 ∧ R w (exec o c w).2)
    (hp : p.Finishes honest quiet final) : ∀ (cs : Nat → C) (w : W),
      ∃ w', R w w' ∧ ((p.run exec cs w).2 = w' ∨
        ∃ o c, final o ∧ (p.run exec cs w).2 = (exec o c w').2) := by
  induction hp with
  | done a =>
      intro cs w
      exact ⟨w, hrefl w, .inl rfl⟩
  | fail e =>
      intro cs w
      exact ⟨w, hrefl w, .inl rfl⟩
  | @call o k ho _ ih =>
      intro cs w
      obtain ⟨hans, hstep⟩ := hexec o (cs 0) w ho
      obtain ⟨w', hR, hend⟩ := ih _ hans (fun n => cs (n + 1)) (exec o (cs 0) w).2
      exact ⟨w', htrans _ _ _ hstep hR, hend⟩
  -- the last operation is executed and nothing follows it
  | @last o k ho hk =>
      intro cs w
      refine ⟨w, hrefl w, .inr ⟨o, cs 0, ho, ?_⟩⟩
      rw [run_call]
      rcases hk (exec o (cs 0) w).1 with ⟨a, h⟩ | ⟨e, h⟩
      · rw [h, run_done]
      · rw [h, run_fail]

end Finishes

/-! ## All complete histories -/

/-- `p.Traces P tr`: whatever the answers, a run of `p` that starts with the history `tr` ends with
a history and a result related by `P`. -/
inductive Traces (P : List (Answered S) → Except ε α → Prop) :
    Program S ε α → List (Answered S) → Prop
  | done {a : α} {tr : List (Answered S)} (h : P tr (.ok a)) : Traces P (done a) tr
  | fail {e : ε} {tr : List (Answered S)} (h : P tr (.error e)) : Traces P (fail e) tr
  | call {o : S.Op} {k : S.Ans o → Program S ε α} {tr : List (Answered S)}
      (h : ∀ r, Traces P (k r) (tr ++ [⟨o, r⟩])) : Traces P (call o k) tr

section Traces

variable {P : List (Answered S) → Except ε α → Prop}

theorem traces_done {tr : List (Answered S)} :
    (done a : Program S ε α).Traces P tr ↔ P tr (.ok a) := by
  constructor
  · rintro ⟨⟩
    assumption
  · exact .done

theorem traces_call {o : S.Op} {k : S.Ans o → Program S ε α} {tr : List (Answered S)} :
    (call o k).Traces P tr ↔ ∀ r : S.Ans o, (k r).Traces P (tr ++ [⟨o, r⟩]) := by
  constructor
  · rintro ⟨⟩
    assumption
  · exact .call

/-- A property that a history already has, and that longer histories keep, holds at every end. -/
theorem traces_of_extends (p : Program S ε α) :
    ∀ tr : List (Answered S),
      (∀ more (res : Except ε α), P (tr ++ more) res) → p.Traces P tr := by
  induction p with
  | done a =>
      intro tr h
      exact .done (by simpa using h [] (.ok a))
  | fail e =>
      intro tr h
      exact .fail (by simpa using h [] (.error e))
  | call o k ih =>
      intro tr h
      refine .call fun r => ih r _ ?_
      intro more res
      simpa [List.append_assoc] using h (⟨o, r⟩ :: more) res

/-- Sequencing, with everything the first part leaves to know. -/
theorem traces_bind {Q : List (Answered S) → Except ε β → Prop} {p : Program S ε β}
    {f : β → Program S ε α} {tr : List (Answered S)} (hp : p.Traces Q tr)
    (hok : ∀ b tr', Q tr' (.ok b) → (f b).Traces P tr')
    (herr : ∀ e tr', Q tr' (.error e) → P tr' (.error e)) : (p >>= f).Traces P tr := by
  induction hp with
  | done h => exact hok _ _ h
  | fail h => exact .fail (herr _ _ h)
  | call _ ih => exact .call ih

theorem traces_true (p : Program S ε α) : ∀ tr, p.Traces (fun _ _ => True) tr := by
  intro tr
  exact traces_of_extends p tr fun _ _ => trivial

/-- A history property of the runs that succeed. -/
def OnOk (Q : List (Answered S) → α → Prop) (tr : List (Answered S)) (res : Except ε α) : Prop :=
  ∀ a, res = .ok a → Q tr a

theorem onOk_error {Q : List (Answered S) → α → Prop} (tr : List (Answered S)) (e : ε) :
    OnOk Q tr (.error e) := by
  intro a h
  cases h

section OnOk

variable {Q : List (Answered S) → α → Prop} {tr : List (Answered S)}

theorem traces_ok_done (h : Q tr a) : (done a : Program S ε α).Traces (OnOk Q) tr :=
  .done fun _ heq => Except.ok.inj heq ▸ h

theorem traces_ok_fail (e : ε) : (fail e : Program S ε α).Traces (OnOk Q) tr :=
  .fail (onOk_error tr e)

theorem traces_ok_bind {M : List (Answered S) → β → Prop} {p : Program S ε β}
    {f : β → Program S ε α} (hp : p.Traces (OnOk M) tr)
    (hf : ∀ b tr', M tr' b → (f b).Traces (OnOk Q) tr') : (p >>= f).Traces (OnOk Q) tr :=
  traces_bind hp (fun b tr' h => hf b tr' (h b rfl)) fun e tr' _ => onOk_error tr' e

/-- Sequencing after a part whose history does not matter. -/
theorem traces_ok_skip {p : Program S ε β} {f : β → Program S ε α}
    (hf : ∀ b tr', (f b).Traces (OnOk Q) tr') : (p >>= f).Traces (OnOk Q) tr :=
  traces_bind (traces_true p tr) (fun b tr' _ => hf b tr') fun e tr' _ => onOk_error tr' e

theorem traces_ok_map {p : Program S ε β} {f : β → α}
    (hp : p.Traces (OnOk fun tr b => Q tr (f b)) tr) : (f <$> p).Traces (OnOk Q) tr :=
  traces_ok_bind hp fun _ _ h => traces_ok_done h

/-- Sequencing before a part whose history does not matter. -/
theorem traces_ok_of_extends (h : ∀ more a, Q (tr ++ more) a) : p.Traces (OnOk Q) tr :=
  traces_of_extends p tr fun more _ a _ => h more a

theorem traces_ok_mono {Q' : List (Answered S) → α → Prop} (himp : ∀ tr a, Q tr a → Q' tr a)
    (hp : p.Traces (OnOk Q) tr) : p.Traces (OnOk Q') tr := by
  induction hp with
  | done h => exact .done fun a heq => himp _ _ (h a heq)
  | fail _ => exact traces_ok_fail _
  | call _ ih => exact .call ih

/-- What the allowed calls preserve of a history holds at the end of a program that makes no
others. -/
theorem traces_ok_inv {M : List (Answered S) → Prop} {allowed : S.Op → Prop}
    (hM : ∀ tr a, M tr → allowed a.op → M (tr ++ [a])) (hp : p.Uses allowed) :
    ∀ tr, M tr → p.Traces (OnOk fun tr' _ => M tr') tr := by
  induction hp with
  | done a =>
      intro tr h
      exact traces_ok_done h
  | fail e =>
      intro tr _
      exact traces_ok_fail e
  | call ho _ ih =>
      intro tr h
      exact .call fun r => ih r _ (hM tr ⟨_, r⟩ h ho)

end OnOk

end Traces

/-! ## Calls after a history -/

/-- `p.Orderly next post tr`: after the history `tr`, whatever the answers, `p` makes only calls
that `next` allows after what came before them, and returns only where `post` holds. -/
inductive Orderly (next : List (Answered S) → S.Op → Prop) (post : List (Answered S) → α → Prop) :
    Program S ε α → List (Answered S) → Prop
  | done {a : α} {tr : List (Answered S)} (h : post tr a) : Orderly next post (done a) tr
  | fail {e : ε} {tr : List (Answered S)} : Orderly next post (fail e) tr
  | call {o : S.Op} {k : S.Ans o → Program S ε α} {tr : List (Answered S)} (h : next tr o)
      (hk : ∀ r, Orderly next post (k r) (tr ++ [⟨o, r⟩])) : Orderly next post (call o k) tr

section Orderly

variable {next : List (Answered S) → S.Op → Prop} {tr : List (Answered S)}

theorem orderly_bind {M : List (Answered S) → β → Prop} {post : List (Answered S) → α → Prop}
    {p : Program S ε β} {f : β → Program S ε α} (hp : p.Orderly next M tr)
    (hf : ∀ b tr', M tr' b → (f b).Orderly next post tr') : (p >>= f).Orderly next post tr := by
  induction hp with
  | done h => exact hf _ _ h
  | fail => exact .fail
  | call h _ ih => exact .call h ih

theorem orderly_mono {next' : List (Answered S) → S.Op → Prop}
    {post post' : List (Answered S) → α → Prop} (hnext : ∀ tr o, next tr o → next' tr o)
    (hpost : ∀ tr a, post tr a → post' tr a) (hp : p.Orderly next post tr) :
    p.Orderly next' post' tr := by
  induction hp with
  | done h => exact .done (hpost _ _ h)
  | fail => exact .fail
  | call h _ ih => exact .call (hnext _ _ h) ih

/-- Calls that are allowed wherever `M` holds, and keep it. -/
theorem orderly_of_uses {M : List (Answered S) → Prop} {allowed : S.Op → Prop}
    (hnext : ∀ tr o, M tr → allowed o → next tr o) (hM : ∀ tr a, M tr → M (tr ++ [a]))
    (hp : p.Uses allowed) : ∀ tr, M tr → p.Orderly next (fun tr' _ => M tr') tr := by
  induction hp with
  | done a =>
      intro tr h
      exact .done h
  | fail e =>
      intro tr _
      exact .fail
  | call ho _ ih =>
      intro tr h
      exact .call (hnext tr _ h ho) fun r => ih r _ (hM tr _ h)

end Orderly

end Program

export Program (uses_bind uses_map uses_bimap uses_mono makes_bind makes_map makes_of_uses
  finishes_bind finishes_map traces_bind traces_ok_bind traces_ok_skip traces_ok_map
  traces_ok_done traces_ok_fail orderly_bind orderly_of_uses orderly_mono)

end Foundations
end OrbitAuth
