import Mathlib.Data.List.Basic
import OrbitAuth.Foundations.Program

/-!
# Interleaving — many programs over one world

A pool holds a shared world and one program per thread.  A step lets one thread make its next
call; the call is atomic and everything between two calls is local to the thread.  A schedule is
any list of (thread, environment choice) pairs, so a theorem about every schedule is a theorem
about every interleaving.

The pool keeps a log of the calls made so far, each with the world before and after it.

* `Along ok` restricts a schedule to steps that meet a condition on the state before them.
* `run_inv` is the induction over a run.
* `Program.Safe` / `run_safe` is a rely–guarantee rule: a thread is verified alone against what it
  may rely on while it waits for its next call.
* `Traces` of the initial programs transfer to the log (`run_traces`).
-/

namespace OrbitAuth
namespace Foundations

variable {S : Signature} {ε α C W : Type}

/-- A call made by a thread, with the world around it. -/
structure Entry (S : Signature) (W : Type) where
  thread : Nat
  op : S.Op
  ans : S.Ans op
  before : W
  after : W

def Entry.answered (e : Entry S W) : Answered S :=
  ⟨e.op, e.ans⟩

structure Pool (S : Signature) (ε α W : Type) where
  world : W
  threads : List (Program S ε α)
  log : List (Entry S W)

namespace Pool

/-! ## Steps and runs -/

/-- Every thread at its beginning, nothing called yet. -/
def start (w : W) (ps : List (Program S ε α)) : Pool S ε α W :=
  ⟨w, ps, []⟩

/-- Thread `i` makes its next call.  A finished thread stays where it is. -/
def step (exec : (o : S.Op) → C → W → S.Ans o × W) (p : Pool S ε α W) (i : Nat) (c : C) :
    Pool S ε α W :=
  match p.threads[i]? with
  | some (.call o k) =>
      { world := (exec o c p.world).2
        threads := p.threads.set i (k (exec o c p.world).1)
        log := p.log ++ [⟨i, o, (exec o c p.world).1, p.world, (exec o c p.world).2⟩] }
  | _ => p

def run (exec : (o : S.Op) → C → W → S.Ans o × W) (p : Pool S ε α W) (sched : List (Nat × C)) :
    Pool S ε α W :=
  sched.foldl (fun q t => q.step exec t.1 t.2) p

/-- Every step of the schedule meets `ok` in the state it is taken in. -/
def Along (exec : (o : S.Op) → C → W → S.Ans o × W) (ok : Pool S ε α W → Nat → C → Prop) :
    Pool S ε α W → List (Nat × C) → Prop
  | _, [] => True
  | p, t :: rest => ok p t.1 t.2 ∧ Along exec ok (p.step exec t.1 t.2) rest

/-- The result of thread `i`, once it has one. -/
def result? (p : Pool S ε α W) (i : Nat) : Option (Except ε α) :=
  p.threads[i]?.bind Program.result?

/-- The operation thread `i` is about to call. -/
def head? (p : Pool S ε α W) (i : Nat) : Option S.Op :=
  p.threads[i]?.bind Program.head?

/-- The calls thread `i` has made so far. -/
def history (p : Pool S ε α W) (i : Nat) : List (Answered S) :=
  (p.log.filter fun e => e.thread == i).map Entry.answered

section Rules

variable {exec : (o : S.Op) → C → W → S.Ans o × W} {p : Pool S ε α W} {i : Nat} {o : S.Op}
  {k : S.Ans o → Program S ε α} {J : Pool S ε α W → Prop}

@[simp] theorem run_nil (p : Pool S ε α W) : p.run exec [] = p := rfl

@[simp] theorem run_cons (p : Pool S ε α W) (t : Nat × C) (rest : List (Nat × C)) :
    p.run exec (t :: rest) = (p.step exec t.1 t.2).run exec rest := rfl

/-- The pool after thread `i` called `o`. -/
def called (exec : (o : S.Op) → C → W → S.Ans o × W) (p : Pool S ε α W) (i : Nat) (c : C)
    (o : S.Op) (k : S.Ans o → Program S ε α) : Pool S ε α W :=
  { world := (exec o c p.world).2
    threads := p.threads.set i (k (exec o c p.world).1)
    log := p.log ++ [⟨i, o, (exec o c p.world).1, p.world, (exec o c p.world).2⟩] }

/-- A step changes nothing, or it is one call of a thread that was waiting for it. -/
theorem step_cases (exec : (o : S.Op) → C → W → S.Ans o × W) (p : Pool S ε α W) (i : Nat)
    (c : C) :
    p.step exec i c = p ∨
      ∃ o k, p.threads[i]? = some (.call o k) ∧ p.step exec i c = p.called exec i c o k := by
  unfold step
  cases h : p.threads[i]? with
  | none => exact .inl rfl
  | some q =>
      cases q with
      | done a => exact .inl rfl
      | fail e => exact .inl rfl
      | call o k => exact .inr ⟨o, k, rfl, rfl⟩

theorem head?_of_threads (h : p.threads[i]? = some (.call o k)) : p.head? i = some o := by
  simp [head?, h]

theorem result?_eq_ok {a : α} (h : p.result? i = some (.ok a)) :
    p.threads[i]? = some (.done a) := by
  unfold result? at h
  cases hi : p.threads[i]? with
  | none => simp [hi] at h
  | some q =>
      have hq : q.result? = some (.ok a) := by simpa [hi] using h
      rw [Program.result?_eq_ok hq]

/-! ## Invariants of runs -/

/-- What one admissible step preserves, a whole admissible run preserves. -/
theorem run_inv {ok : Pool S ε α W → Nat → C → Prop}
    (hstep : ∀ p i c, J p → ok p i c → J (p.step exec i c)) :
    ∀ (sched : List (Nat × C)) (p : Pool S ε α W),
      Along exec ok p sched → J p → J (p.run exec sched) := by
  intro sched
  induction sched with
  | nil =>
      intro p _ hJ
      exact hJ
  | cons t rest ih =>
      intro p hok hJ
      rcases hok with ⟨h₁, h₂⟩
      exact ih _ h₂ (hstep p t.1 t.2 hJ h₁)

theorem along_true (sched : List (Nat × C)) (p : Pool S ε α W) :
    Along exec (fun _ _ _ => True) p sched := by
  induction sched generalizing p with
  | nil => exact trivial
  | cons t rest ih => exact ⟨trivial, ih _⟩

theorem along_mono {ok ok' : Pool S ε α W → Nat → C → Prop} (himp : ∀ p i c, ok p i c → ok' p i c) :
    ∀ (sched : List (Nat × C)) (p : Pool S ε α W), Along exec ok p sched →
    Along exec ok' p sched := by
  intro sched
  induction sched with
  | nil =>
      intro p _
      exact trivial
  | cons t rest ih =>
      intro p h
      exact ⟨himp _ _ _ h.1, ih _ h.2⟩

/-- A condition on what the environment decides, step by step. -/
theorem along_of_forall {ok : C → Prop} (sched : List (Nat × C)) (h : ∀ t ∈ sched, ok t.2)
    (p : Pool S ε α W) : Along exec (fun _ _ c => ok c) p sched := by
  induction sched generalizing p with
  | nil => exact trivial
  | cons t rest ih =>
      have hhead : ok t.2 := h t List.mem_cons_self
      have hrest : ∀ t' ∈ rest, ok t'.2 := fun t' ht' => h t' (List.mem_cons_of_mem t ht')
      exact ⟨hhead, ih hrest _⟩

instance decidableAlong {ok : Pool S ε α W → Nat → C → Prop} [∀ p i c, Decidable (ok p i c)] :
    ∀ (p : Pool S ε α W) (sched : List (Nat × C)), Decidable (Along exec ok p sched)
  | _, [] => .isTrue trivial
  | p, t :: rest =>
      match (inferInstance : Decidable (ok p t.1 t.2)),
        decidableAlong (p.step exec t.1 t.2) rest with
      | .isTrue h₁, .isTrue h₂ => .isTrue ⟨h₁, h₂⟩
      | .isFalse h, _ => .isFalse fun hs => h hs.1
      | _, .isFalse h => .isFalse fun hs => h hs.2

/-- The unconditional form of `run_inv`. -/
theorem run_inv_all (hstep : ∀ p i c, J p → J (p.step exec i c)) (sched : List (Nat × C))
    (p : Pool S ε α W) (hJ : J p) : J (p.run exec sched) :=
  run_inv (fun p i c h (_ : True) => hstep p i c h) sched p (along_true sched p) hJ

/-- An invariant of single calls is an invariant of pools. -/
theorem run_inv_calls
    (hcall : ∀ p i c o k, J p → p.threads[i]? = some (.call o k) → J (p.called exec i c o k))
    (sched : List (Nat × C)) (p : Pool S ε α W) (hJ : J p) : J (p.run exec sched) := by
  refine run_inv_all ?_ sched p hJ
  intro q i c hq
  rcases step_cases exec q i c with h | ⟨o, k, hi, h⟩
  · rw [h]
    exact hq
  · rw [h]
    exact hcall q i c o k hq hi

theorem threads_length_run (exec : (o : S.Op) → C → W → S.Ans o × W) (p : Pool S ε α W)
    (sched : List (Nat × C)) :
    (p.run exec sched).threads.length = p.threads.length := by
  refine run_inv_calls (J := fun q => q.threads.length = p.threads.length) ?_ sched p rfl
  intro q i c o k hq _
  simpa [called] using hq

/-! ## Threads after a call -/

theorem called_self {c : C} (h : p.threads[i]? = some (.call o k)) :
    (p.called exec i c o k).threads[i]? = some (k (exec o c p.world).1) := by
  have hi : i < p.threads.length := by
    by_contra hge
    rw [List.getElem?_eq_none (Nat.le_of_not_lt hge)] at h
    cases h
  simp [called, hi]

theorem called_other {i j : Nat} {c : C} (h : j ≠ i) :
    (p.called exec i c o k).threads[j]? = p.threads[j]? := by
  simp [called, List.getElem?_set_ne (Ne.symm h)]

theorem called_history_self (p : Pool S ε α W) (i : Nat) (c : C) (o : S.Op)
    (k : S.Ans o → Program S ε α) :
    (p.called exec i c o k).history i = p.history i ++ [⟨o, (exec o c p.world).1⟩] := by
  simp [history, called, Entry.answered]

theorem called_history_other (p : Pool S ε α W) {i j : Nat} (c : C) (o : S.Op)
    (k : S.Ans o → Program S ε α) (h : j ≠ i) :
    (p.called exec i c o k).history j = p.history j := by
  have hne : (i == j) = false := by simpa using Ne.symm h
  simp [history, called, hne]

/-- Threads make only the calls their programs may make. -/
theorem run_uses {allowed : S.Op → Prop} {w : W} {ps : List (Program S ε α)}
    (h : ∀ q ∈ ps, q.Uses allowed) (sched : List (Nat × C)) :
    ∀ e ∈ ((start w ps).run exec sched).log, allowed e.op := by
  have hrun : (∀ q ∈ ((start w ps).run exec sched).threads, q.Uses allowed) ∧
      ∀ e ∈ ((start w ps).run exec sched).log, allowed e.op := by
    refine run_inv_calls (J := fun p => (∀ q ∈ p.threads, q.Uses allowed) ∧
      ∀ e ∈ p.log, allowed e.op) ?_ sched _ ⟨h, fun e he => by cases he⟩
    intro p i c o k hp hi
    cases hp.1 _ (List.mem_of_getElem? hi) with
    | call ho hk =>
        refine ⟨?_, ?_⟩
        · intro q hq
          rcases List.mem_or_eq_of_mem_set hq with hq | rfl
          · exact hp.1 q hq
          · exact hk _
        · intro e he
          rcases List.mem_append.1 he with he | he
          · exact hp.2 e he
          · rw [List.mem_singleton] at he
            exact he ▸ ho
  exact hrun.2

/-- Threads whose calls keep the invariant and whose answers are honest while it holds.  The
condition `ok` restricts the schedule. -/
theorem run_makes (ok : Pool S ε α W → Nat → C → Prop) (honest : (o : S.Op) → S.Ans o → Prop)
    (allowed : Nat → S.Op → Prop) (inv : W → Prop) {w : W} {ps : List (Program S ε α)}
    (hstep : ∀ (p : Pool S ε α W) i c o, ok p i c → p.head? i = some o → inv p.world → allowed i o →
      honest o (exec o c p.world).1 ∧ inv (exec o c p.world).2)
    (hps : ∀ (i : Nat) (q : Program S ε α), ps[i]? = some q →
      q.Makes honest (allowed i) fun _ => True) (hw : inv w)
    (sched : List (Nat × C)) (hok : Along exec ok (start w ps) sched) :
    inv ((start w ps).run exec sched).world ∧
      ∀ e ∈ ((start w ps).run exec sched).log,
        allowed e.thread e.op ∧ inv e.before ∧ ∃ c, e.after = (exec e.op c e.before).2 := by
  have hrun : (inv ((start w ps).run exec sched).world ∧
      ∀ e ∈ ((start w ps).run exec sched).log,
        allowed e.thread e.op ∧ inv e.before ∧ ∃ c, e.after = (exec e.op c e.before).2) ∧
      ∀ (i : Nat) (q : Program S ε α), ((start w ps).run exec sched).threads[i]? = some q →
        q.Makes honest (allowed i) fun _ => True := by
    -- carried along the run: the invariant, the log, and that what is left of each thread still
    -- asks only for what it may
    refine run_inv (J := fun p => (inv p.world ∧ ∀ e ∈ p.log,
        allowed e.thread e.op ∧ inv e.before ∧ ∃ c, e.after = (exec e.op c e.before).2) ∧
      ∀ (i : Nat) (q : Program S ε α), p.threads[i]? = some q →
        q.Makes honest (allowed i) fun _ => True) ?_ sched _ hok
      ⟨⟨hw, fun e he => by cases he⟩, hps⟩
    intro p i c hJ hp
    rcases hJ with ⟨⟨hinv, hlog⟩, hthreads⟩
    rcases step_cases exec p i c with h | ⟨o, k, hi, h⟩
    · rw [h]
      exact ⟨⟨hinv, hlog⟩, hthreads⟩
    · rw [h]
      cases hthreads i _ hi with
      | call ho hk =>
          have hnext := hstep p i c o hp (head?_of_threads hi) hinv ho
          refine ⟨⟨hnext.2, ?_⟩, ?_⟩
          · intro e he
            rcases List.mem_append.1 he with he | he
            · exact hlog e he
            · rw [List.mem_singleton] at he
              subst he
              exact ⟨ho, hinv, c, rfl⟩
          · intro j q hj
            by_cases hji : j = i
            · subst hji
              rw [called_self hi] at hj
              cases hj
              exact hk _ hnext.1
            · rw [called_other hji] at hj
              exact hthreads j q hj
  exact hrun.1

/-- What is true of all complete histories of the initial program of a thread is true of the
history its log shows when it has finished. -/
theorem run_traces {P : List (Answered S) → Except ε α → Prop} {p₀ : Pool S ε α W}
    (h₀ : ∀ q, p₀.threads[i]? = some q → q.Traces P (p₀.history i)) (sched : List (Nat × C)) :
    ∀ q, (p₀.run exec sched).threads[i]? = some q →
      q.Traces P ((p₀.run exec sched).history i) := by
  refine run_inv_calls
    (J := fun p => ∀ q, p.threads[i]? = some q → q.Traces P (p.history i)) ?_ sched p₀ h₀
  intro p j c o k hp hj q hq
  by_cases hij : i = j
  · subst hij
    rw [called_self hj] at hq
    cases hq
    rw [called_history_self]
    exact Program.traces_call.1 (hp _ hj) (exec o c p.world).1
  · rw [called_other hij] at hq
    rw [called_history_other p c o k hij]
    exact hp q hq

theorem finished_traces {Q : List (Answered S) → α → Prop} {w : W} {ps : List (Program S ε α)}
    {q : Program S ε α} {a : α} (sched : List (Nat × C)) (hq : ps[i]? = some q)
    (h₀ : q.Traces (Program.OnOk Q) [])
    (hres : ((start w ps).run exec sched).result? i = some (.ok a)) :
    Q (((start w ps).run exec sched).history i) a := by
  have hdone := result?_eq_ok hres
  have hstart : ∀ q', (start w ps).threads[i]? = some q' →
      q'.Traces (Program.OnOk Q) ((start w ps).history i) := by
    intro q' hq'
    have : q = q' := Option.some.inj (hq.symm.trans hq')
    exact this ▸ h₀
  exact Program.traces_done.1 (run_traces hstart sched _ hdone) a rfl

/-- Every thread is orderly after the history its log shows. -/
def Orderly (next : Nat → List (Answered S) → S.Op → Prop) (p : Pool S ε α W) : Prop :=
  ∀ (i : Nat) q, p.threads[i]? = some q → q.Orderly (next i) (fun _ _ => True) (p.history i)

theorem orderly_called {next : Nat → List (Answered S) → S.Op → Prop} (hp : p.Orderly next)
    (c : C) (hi : p.threads[i]? = some (.call o k)) : (p.called exec i c o k).Orderly next := by
  intro j q hq
  by_cases hji : j = i
  · subst hji
    rw [called_self hi] at hq
    cases hq
    rw [called_history_self]
    cases hp j _ hi with
    | call _ hk => exact hk _
  · rw [called_other hji] at hq
    rw [called_history_other p c o k hji]
    exact hp j q hq

/-- What a thread calls next is allowed after what it has called. -/
theorem next_of_head? {next : Nat → List (Answered S) → S.Op → Prop} (hp : p.Orderly next)
    (h : p.head? i = some o) : next i (p.history i) o := by
  obtain ⟨q, hq, hhead⟩ := Option.bind_eq_some_iff.mp h
  cases q with
  | done a => cases hhead
  | fail e => cases hhead
  | call o' k =>
      cases hhead
      cases hp i _ hq with
      | call hnext _ => exact hnext

/-- An invariant of orderly threads. -/
theorem run_orderly {ok : Pool S ε α W → Nat → C → Prop}
    {next : Nat → List (Answered S) → S.Op → Prop}
    (hstep : ∀ p i c o k, p.Orderly next → J p → ok p i c → p.threads[i]? = some (.call o k) →
      J (p.called exec i c o k)) {sched : List (Nat × C)} (hok : Along exec ok p sched)
    (hp : p.Orderly next) (hJ : J p) : J (p.run exec sched) := by
  have hrun := run_inv (J := fun q => q.Orderly next ∧ J q) ?_ sched p hok ⟨hp, hJ⟩
  · exact hrun.2
  · intro q i c hq hqi
    rcases step_cases exec q i c with h | ⟨o, k, hi, h⟩
    · rw [h]
      exact hq
    · rw [h]
      exact ⟨orderly_called hq.1 c hi, hstep q i c o k hq.1 hq.2 hqi hi⟩

/-- A call in the history of a thread is an entry of the log. -/
theorem mem_history {a : Answered S} (h : a ∈ p.history i) :
    ∃ e ∈ p.log, e.thread = i ∧ e.answered = a := by
  simp only [history, List.mem_map, List.mem_filter] at h
  rcases h with ⟨e, ⟨he, hi⟩, rfl⟩
  exact ⟨e, he, by simpa using hi, rfl⟩

end Rules

end Pool

/-! ## Rely and guarantee -/

namespace Program

/-- `p.Safe exec inv rely good post w`: started in `w`, with the world moving by `rely o` while the
program waits to call `o`, every call of `p` keeps the invariant and meets `good`, and a result
meets `post`. -/
inductive Safe (exec : (o : S.Op) → C → W → S.Ans o × W) (inv : W → Prop)
    (rely : S.Op → W → W → Prop) (good : (o : S.Op) → W → S.Ans o → W → Prop)
    (post : α → W → Prop) : Program S ε α → W → Prop
  | done {a : α} {w : W} (h : post a w) : Safe exec inv rely good post (.done a) w
  | fail {e : ε} {w : W} : Safe exec inv rely good post (.fail e) w
  | call {o : S.Op} {k : S.Ans o → Program S ε α} {w : W}
      (hstep : ∀ w', inv w' → rely o w w' → ∀ c : C,
        inv (exec o c w').2 ∧ good o w' (exec o c w').1 (exec o c w').2)
      (hk : ∀ w', inv w' → rely o w w' → ∀ c : C,
        Safe exec inv rely good post (k (exec o c w').1) (exec o c w').2) :
      Safe exec inv rely good post (.call o k) w

section Safe

variable {β : Type} {exec : (o : S.Op) → C → W → S.Ans o × W} {inv : W → Prop}
  {rely : S.Op → W → W → Prop} {good : (o : S.Op) → W → S.Ans o → W → Prop}

theorem safe_call {post : α → W → Prop} {o : S.Op} {k : S.Ans o → Program S ε α} {w : W}
    (h : (call o k).Safe exec inv rely good post w) {w' : W} (hinv : inv w') (hr : rely o w w')
    (c : C) :
    inv (exec o c w').2 ∧ good o w' (exec o c w').1 (exec o c w').2 ∧
      (k (exec o c w').1).Safe exec inv rely good post (exec o c w').2 := by
  cases h with
  | call hstep hk => exact ⟨(hstep w' hinv hr c).1, (hstep w' hinv hr c).2, hk w' hinv hr c⟩

/-- Sequencing: the first part establishes what the second part needs. -/
theorem safe_bind {M : α → W → Prop} {post : β → W → Prop} {p : Program S ε α}
    {f : α → Program S ε β} {w : W} (hp : p.Safe exec inv rely good M w)
    (hf : ∀ a w, M a w → (f a).Safe exec inv rely good post w) :
    (p >>= f).Safe exec inv rely good post w := by
  induction hp with
  | done h => exact hf _ _ h
  | fail => exact .fail
  | call hstep _ ih => exact .call hstep ih

theorem safe_map {post : β → W → Prop} {p : Program S ε α} {f : α → β} {w : W}
    (hp : p.Safe exec inv rely good (fun a w => post (f a) w) w) :
    (f <$> p).Safe exec inv rely good post w :=
  safe_bind hp fun _ _ h => .done h

theorem safe_bimap {ε' : Type} {post : β → W → Prop} {p : Program S ε α} {f : α → β} {g : ε → ε'}
    {w : W} (hp : p.Safe exec inv rely good (fun a w => post (f a) w) w) :
    (p.bimap f g).Safe exec inv rely good post w := by
  induction hp with
  | done h => exact .done h
  | fail => exact .fail
  | call hstep _ ih => exact .call hstep ih

theorem safe_mono {post post' : α → W → Prop} (himp : ∀ a w, post a w → post' a w)
    {p : Program S ε α} {w : W} (hp : p.Safe exec inv rely good post w) :
    p.Safe exec inv rely good post' w := by
  induction hp with
  | done h => exact .done (himp _ _ h)
  | fail => exact .fail
  | call hstep _ ih => exact .call hstep ih

/-- A program whose every call is harmless where `K` holds is safe and keeps `K`, as long as the
others do not take `K` away. -/
theorem safe_keeps {allowed : S.Op → Prop} {K : W → Prop}
    (hrely : ∀ o w w', rely o w w' → K w → K w')
    (hallowed : ∀ o, allowed o → ∀ w, inv w → K w → ∀ c : C,
      inv (exec o c w).2 ∧ good o w (exec o c w).1 (exec o c w).2 ∧ K (exec o c w).2)
    {p : Program S ε α} (hp : p.Uses allowed) :
    ∀ w, K w → p.Safe exec inv rely good (fun _ w => K w) w := by
  induction hp with
  | done a =>
      intro w hK
      exact .done hK
  | fail e =>
      intro w _
      exact .fail
  | call ho _ ih =>
      intro w hK
      refine .call ?_ ?_
      · intro w' hinv hr c
        have hstep := hallowed _ ho w' hinv (hrely _ _ _ hr hK) c
        exact ⟨hstep.1, hstep.2.1⟩
      · intro w' hinv hr c
        exact ih _ _ (hallowed _ ho w' hinv (hrely _ _ _ hr hK) c).2.2

/-- A program whose every call is harmless by itself is safe. -/
theorem safe_of_uses {allowed : S.Op → Prop}
    (hallowed : ∀ o, allowed o → ∀ w, inv w → ∀ c : C,
      inv (exec o c w).2 ∧ good o w (exec o c w).1 (exec o c w).2)
    {p : Program S ε α} (hp : p.Uses allowed) (w : W) :
    p.Safe exec inv rely good (fun _ _ => True) w := by
  refine safe_keeps (K := fun _ => True) (fun _ _ _ _ _ => trivial) ?_ hp w trivial
  intro o ho w hinv _ c
  have hstep := hallowed o ho w hinv c
  exact ⟨hstep.1, hstep.2, trivial⟩

/-- A waiting program stays safe while others move within its rely. -/
theorem safe_of_rely {post : α → W → Prop}
    (htrans : ∀ o w₁ w₂ w₃, rely o w₁ w₂ → rely o w₂ w₃ → rely o w₁ w₃)
    {o : S.Op} {k : S.Ans o → Program S ε α} {w w₁ : W}
    (h : (call o k).Safe exec inv rely good post w) (hr : rely o w w₁) :
    (call o k).Safe exec inv rely good post w₁ := by
  cases h with
  | call hstep hk =>
      refine .call ?_ ?_
      · intro w' hinv hrely
        exact hstep w' hinv (htrans _ _ _ _ hr hrely)
      · intro w' hinv hrely
        exact hk w' hinv (htrans _ _ _ _ hr hrely)

end Safe

end Program

export Program (safe_bind safe_map safe_bimap safe_mono safe_keeps)

namespace Pool

section RelyGuarantee

variable {exec : (o : S.Op) → C → W → S.Ans o × W} {inv : W → Prop}
  {rely : Nat → S.Op → W → W → Prop} {good : Nat → (o : S.Op) → W → S.Ans o → W → Prop}

/-- All threads are safe from the current world on, and all logged calls were good. -/
structure Sound (exec : (o : S.Op) → C → W → S.Ans o × W) (inv : W → Prop)
    (rely : Nat → S.Op → W → W → Prop) (good : Nat → (o : S.Op) → W → S.Ans o → W → Prop)
    (p : Pool S ε α W) : Prop where
  world : inv p.world
  threads : ∀ (i : Nat) (q : Program S ε α), p.threads[i]? = some q →
    q.Safe exec inv (rely i) (good i) (fun _ _ => True) p.world
  log : ∀ e ∈ p.log, good e.thread e.op e.before e.ans e.after

theorem sound_called
    (hrefl : ∀ i o w, rely i o w w)
    (htrans : ∀ i o w₁ w₂ w₃, rely i o w₁ w₂ → rely i o w₂ w₃ → rely i o w₁ w₃)
    {p : Pool S ε α W} {i : Nat} {c : C} {o : S.Op} {k : S.Ans o → Program S ε α}
    (hp : p.Sound exec inv rely good) (hi : p.threads[i]? = some (.call o k))
    (hother : good i o p.world (exec o c p.world).1 (exec o c p.world).2 →
      ∀ j o', j ≠ i → p.head? j = some o' → rely j o' p.world (exec o c p.world).2) :
    (p.called exec i c o k).Sound exec inv rely good := by
  rcases Program.safe_call (hp.threads i _ hi) hp.world (hrefl i o p.world) c with
    ⟨hinv, hgood, hsafe⟩
  refine ⟨hinv, ?_, ?_⟩
  · intro j q hj
    by_cases hji : j = i
    · subst hji
      rw [called_self hi] at hj
      cases hj
      exact hsafe
    · rw [called_other hji] at hj
      -- the other threads have not moved, and can bear what this one did
      have hold := hp.threads j q hj
      cases q with
      | done a => exact .done trivial
      | fail e => exact .fail
      | call o' k' =>
          exact Program.safe_of_rely (htrans j) hold
            (hother hgood j o' hji (head?_of_threads hj))
  · intro e he
    rcases List.mem_append.1 he with h | h
    · exact hp.log e h
    · have : e = ⟨i, o, (exec o c p.world).1, p.world, (exec o c p.world).2⟩ := by
        simpa using h
      subst this
      exact hgood

/-- The rely–guarantee rule for runs.  `hother` is the only place where threads meet: a good call
of one thread, taken in a state that meets `ok`, moves the world within what every other thread
relies on. -/
theorem run_safe {ok : Pool S ε α W → Nat → C → Prop}
    (hrefl : ∀ i o w, rely i o w w)
    (htrans : ∀ i o w₁ w₂ w₃, rely i o w₁ w₂ → rely i o w₂ w₃ → rely i o w₁ w₃)
    (hother : ∀ (p : Pool S ε α W) i c o, p.Sound exec inv rely good → ok p i c →
      p.head? i = some o →
      good i o p.world (exec o c p.world).1 (exec o c p.world).2 →
      ∀ j o', j ≠ i → p.head? j = some o' → rely j o' p.world (exec o c p.world).2)
    (sched : List (Nat × C)) (p : Pool S ε α W) (hok : Along exec ok p sched)
    (hp : p.Sound exec inv rely good) :
    (p.run exec sched).Sound exec inv rely good := by
  refine run_inv ?_ sched p hok hp
  intro q i c hq hqok
  rcases step_cases exec q i c with h | ⟨o, k, hi, h⟩
  · rw [h]
    exact hq
  · rw [h]
    exact sound_called hrefl htrans hq hi (fun hg j o' hji hj =>
      hother q i c o hq hqok (head?_of_threads hi) hg j o' hji hj)

end RelyGuarantee

end Pool

end Foundations
end OrbitAuth
