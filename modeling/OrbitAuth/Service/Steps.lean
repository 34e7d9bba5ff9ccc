import OrbitAuth.Foundations.Solo
import OrbitAuth.Service.Footprints

/-!
# Steps — what one operation does to the world

Only store calls touch the database, and a store call that reaches it does what
`Postgres.Atomic` says.  `safe_passes`, `traces_passes` and their companions are the proof rules of
the vocabulary in which the use cases are written.
-/

namespace OrbitAuth
namespace Service

open Domain Foundations Postgres Token

variable {e : Err} {w : World} {c : Choice} {o : Store.Op} {p : Action o.Val}

/-! ## The database -/

section Database

variable {env : Env}

/-- A store call that reaches the database. -/
theorem exec_store_runs (env : Env) (o : Store.Op) (hc : c.fails = false) (w : World) :
    exec env (.store o) c w =
      ((o.exec env (max w.now c.now) c.id c.pick w.db).1,
        { w.advance c.now with db := (o.exec env (max w.now c.now) c.id c.pick w.db).2 }) := by
  simp [exec, answer, execStore, hc, World.advance]

/-- A store call that does not. -/
theorem exec_store_fails (env : Env) (o : Store.Op) (hc : c.fails = true) (w : World) :
    exec env (.store o) c w = (.error .dependency, w.advance c.now) := by
  simp [exec, answer, execStore, hc]

/-- A store call fails without an effect or runs as one step of the store. -/
theorem exec_store (env : Env) (o : Store.Op) (c : Choice) (w : World) :
    (exec env (.store o) c w = (.error .dependency, w.advance c.now)) ∨
      exec env (.store o) c w =
        ((o.exec env (max w.now c.now) c.id c.pick w.db).1,
          { w.advance c.now with db := (o.exec env (max w.now c.now) c.id c.pick w.db).2 }) := by
  cases hf : c.fails with
  | true => exact .inl (exec_store_fails env o hf w)
  | false => exact .inr (exec_store_runs env o hf w)

/-- A store call with a value has run. -/
theorem exec_store_ok {v : o.Val} (h : (exec env (.store o) c w).1 = .ok v) :
    (o.exec env (max w.now c.now) c.id c.pick w.db).1 = .ok v ∧
      (exec env (.store o) c w).2.db = (o.exec env (max w.now c.now) c.id c.pick w.db).2 := by
  rcases exec_store env o c w with hx | hx
  · rw [hx] at h
    cases h
  · rw [hx] at h ⊢
    exact ⟨h, rfl⟩

/-- A store call that reports an error has changed nothing. -/
theorem exec_store_error (h : (exec env (.store o) c w).1 = .error e) :
    (exec env (.store o) c w).2.db = w.db := by
  rcases exec_store env o c w with hx | hx
  · rw [hx]
    rfl
  · rw [hx] at h ⊢
    exact Store.exec_error_db h

/-- What every store call does to the database, every operation does. -/
theorem exec_db_rel {R : DB → DB → Prop} (hrefl : ∀ db, R db db) {o : Port}
    (hstore : ∀ o', o = .store o' → ∀ now id pick, R w.db (o'.exec env now id pick w.db).2)
    (c : Choice) : R w.db (exec env o c w).2.db := by
  cases o with
  | store o' =>
      rcases exec_store env o' c w with h | h
      · rw [h]
        exact hrefl w.db
      · rw [h]
        exact hstore o' rfl _ _ _
  | sign subject orgID expires =>
      simp only [exec, answer, execSign]
      split <;> exact hrefl w.db
  | send n =>
      simp only [exec, answer, execSend]
      split <;> exact hrefl w.db
  | now => exact hrefl w.db
  | newID => exact hrefl w.db
  | newCode => exact hrefl w.db
  | newSecret => exact hrefl w.db
  | hash secret => exact hrefl w.db
  | flag name => exact hrefl w.db

/-- A plain store call writes at most the challenges. -/
theorem plainStore_writes (h : plainStore o = true) {n : TableName} (hn : n ≠ .challenges) :
    n ∉ o.writes := by
  cases o <;> first | (simp [plainStore] at h; done) | simp [Store.Op.writes, hn]

end Database

/-! ## Proof rules -/

/-- `p` is one store call that passes its value on; an error ends the use case. -/
inductive Passes (o : Store.Op) : Action o.Val → Prop
  | mk (k : Except Err o.Val → Action o.Val) (hok : ∀ v, k (.ok v) = .done v)
      (herr : ∀ e, ∃ e', k (.error e) = .fail e') : Passes o (.call (.store o) k)

theorem passes_store (o : Store.Op) : Passes o (store o) :=
  .mk _ (fun _ => rfl) fun e => ⟨e, rfl⟩

theorem passes_storeOr (e : Err) (o : Store.Op) : Passes o (storeOr e o) :=
  .mk _ (fun _ => rfl) fun _ => ⟨e, rfl⟩

theorem passes_storeMapping (sentinel generic : Err) (o : Store.Op) :
    Passes o (storeMapping sentinel generic o) :=
  .mk _ (fun _ => rfl) fun _ => ⟨_, rfl⟩

/-- What a store call passes on, an honest store has answered. -/
theorem makes_passes {honest : (o : Port) → o.Ans → Prop} {allowed : Port → Prop}
    {post : o.Val → Prop} (hp : Passes o p) (ho : allowed (.store o))
    (hpost : ∀ v, honest (.store o) (.ok v) → post v) : p.Makes honest allowed post := by
  cases hp with
  | mk k hok herr =>
      refine .call ho fun r hr => ?_
      cases r with
      | ok v =>
          rw [hok v]
          exact .done (hpost v hr)
      | error e =>
          obtain ⟨e', he⟩ := herr e
          rw [he]
          exact .fail e'

section Rules

variable {env : Env} {inv : World → Prop} {rely : Port → World → World → Prop}
  {good : (o : Port) → World → o.Ans → World → Prop} {w : World}

/-- An operation whose error ends the use case: `k` passes a value on and fails on an error. -/
theorem safe_orFail {α : Type} {o : Port} {k : o.Ans → Action α} {Q : α → World → Prop}
    (hstep : ∀ w', inv w' → rely o w w' → ∀ c,
      inv (exec env o c w').2 ∧ good o w' (exec env o c w').1 (exec env o c w').2)
    (hk : ∀ w', inv w' → rely o w w' → ∀ c,
      (∃ e, k (exec env o c w').1 = .fail e) ∨
        ∃ v, k (exec env o c w').1 = .done v ∧ Q v (exec env o c w').2) :
    (Program.call o k : Action α).Safe (exec env) inv rely good Q w := by
  refine .call hstep ?_
  intro w' hinv hr c
  rcases hk w' hinv hr c with ⟨e, h⟩ | ⟨v, h, hQ⟩
  · rw [h]
    exact .fail
  · rw [h]
    exact .done hQ

theorem safe_hash {secret : String} {Q : String → World → Prop}
    (hstep : ∀ w', inv w' → rely (.hash secret) w w' → ∀ c,
      inv (exec env (.hash secret) c w').2 ∧
        good (.hash secret) w' (exec env (.hash secret) c w').1 (exec env (.hash secret) c w').2)
    (hQ : ∀ salt w', Q (env.hash salt secret) w') :
    (hash secret).Safe (exec env) inv rely good Q w := by
  refine safe_orFail hstep ?_
  intro w' _ _ c
  cases hf : c.fails with
  | true => exact .inl ⟨.dependency, by simp [exec, answer, attempt, hf, orReturn]⟩
  | false =>
      exact .inr ⟨_, by simp [exec, answer, attempt, hf, orReturn], hQ c.salt _⟩

theorem safe_passes (hp : Passes o p) {Q : o.Val → World → Prop}
    (hstep : ∀ w', inv w' → rely (.store o) w w' → ∀ c,
      inv (exec env (.store o) c w').2 ∧
        good (.store o) w' (exec env (.store o) c w').1 (exec env (.store o) c w').2)
    (hQ : ∀ w', inv w' → rely (.store o) w w' → ∀ c v,
      (exec env (.store o) c w').1 = .ok v → Q v (exec env (.store o) c w').2) :
    p.Safe (exec env) inv rely good Q w := by
  cases hp with
  | mk k hok herr =>
      refine safe_orFail hstep ?_
      intro w' hinv hr c
      cases hres : (exec env (.store o) c w').1 with
      | error e => exact .inl (herr e)
      | ok v => exact .inr ⟨v, hok v, hQ w' hinv hr c v hres⟩

theorem safe_failIf {c : Bool} {Q : Unit → World → Prop} (h : c = false → Q () w) :
    (failIf c e).Safe (exec env) inv rely good Q w := by
  cases c with
  | true => exact .fail
  | false => exact .done (h rfl)

/-- Calls that are safe by themselves make up a sound system. -/
theorem serve_sound {cfg : Config} {calls : List Call} {inv : World → Prop}
    {rely : Nat → Port → World → World → Prop}
    {good : Nat → (o : Port) → World → o.Ans → World → Prop} (hw : inv w)
    (hcalls : ∀ (i : Nat) (call : Call), calls[i]? = some call →
      (call.program cfg).Safe (exec cfg.env) inv (rely i) (good i) (fun _ _ => True) w) :
    (serve cfg w calls).Sound (exec cfg.env) inv rely good := by
  refine ⟨hw, ?_, ?_⟩
  · intro i q hq
    have hmap : (calls.map (Call.program cfg))[i]? = some q := hq
    rw [List.getElem?_map, Option.map_eq_some_iff] at hmap
    rcases hmap with ⟨call, hi, rfl⟩
    exact hcalls i call hi
  · intro e he
    cases he

end Rules

/-! ## Runs, operation by operation -/

section Runs

variable {α : Type} (env : Env) (cs : Nat → Choice) (w : World)

theorem run_failIf (c : Bool) (e : Err) (f : Unit → Action α) :
    ((failIf c e).bind f).run (exec env) cs w =
      if c then (.error e, w) else (f ()).run (exec env) cs w := by
  cases c <;> rfl

theorem run_now (f : Time → Action α) :
    (now.bind f).run (exec env) cs w =
      (f (max w.now (cs 0).now)).run (exec env) (fun n => cs (n + 1)) (w.advance (cs 0).now) := rfl

theorem run_newID (f : String → Action α) :
    (newID.bind f).run (exec env) cs w =
      (f (cs 0).id.string).run (exec env) (fun n => cs (n + 1)) (w.advance (cs 0).now) := rfl

theorem run_newSecret (f : String → Action α) :
    (newSecret.bind f).run (exec env) cs w =
      if (cs 0).fails then (.error .dependency, w.advance (cs 0).now)
      else (f (cs 0).secret).run (exec env) (fun n => cs (n + 1)) (w.advance (cs 0).now) := by
  cases hf : (cs 0).fails <;> simp [newSecret, exec, answer, attempt, hf, orReturn]

theorem run_hash (secret : String) (f : String → Action α) :
    ((hash secret).bind f).run (exec env) cs w =
      if (cs 0).fails then (.error .dependency, w.advance (cs 0).now)
      else (f (env.hash (cs 0).salt secret)).run (exec env) (fun n => cs (n + 1))
        (w.advance (cs 0).now) := by
  cases hf : (cs 0).fails <;> simp [hash, exec, answer, attempt, hf, orReturn]

theorem run_store (o : Store.Op) (f : o.Val → Action α) :
    ((store o).bind f).run (exec env) cs w =
      match exec env (.store o) (cs 0) w with
      | (.ok v, w') => (f v).run (exec env) (fun n => cs (n + 1)) w'
      | (.error e, w') => (.error e, w') := by
  cases hx : exec env (.store o) (cs 0) w with
  | mk r w' => cases r <;> simp [store, hx, orReturn]

/-- A store call at the end of a program is its answer. -/
theorem run_lone_store (o : Store.Op) :
    (store o).run (exec env) cs w = exec env (.store o) (cs 0) w := by
  cases hx : exec env (.store o) (cs 0) w with
  | mk r w' => cases r <;> simp [store, hx, orReturn]

theorem run_storeOr (e : Err) (o : Store.Op) (f : o.Val → Action α) :
    ((storeOr e o).bind f).run (exec env) cs w =
      match exec env (.store o) (cs 0) w with
      | (.ok v, w') => (f v).run (exec env) (fun n => cs (n + 1)) w'
      | (.error _, w') => (.error e, w') := by
  cases hx : exec env (.store o) (cs 0) w with
  | mk r w' => cases r <;> simp [storeOr, hx]

theorem run_storeMapping_ok {sentinel generic : Err} {v : o.Val} {db' : DB}
    (hc : (cs 0).fails = false)
    (hx : o.exec env (max w.now (cs 0).now) (cs 0).id (cs 0).pick w.db = (.ok v, db'))
    (f : o.Val → Action α) :
    ((storeMapping sentinel generic o).bind f).run (exec env) cs w =
      (f v).run (exec env) (fun n => cs (n + 1)) { w.advance (cs 0).now with db := db' } := by
  have hexec := exec_store_runs env o hc w
  rw [hx] at hexec
  simp [storeMapping, hexec]

theorem run_storeMapping_error {sentinel generic : Err} {db' : DB} (hc : (cs 0).fails = false)
    (hx : o.exec env (max w.now (cs 0).now) (cs 0).id (cs 0).pick w.db = (.error e, db'))
    (f : o.Val → Action α) :
    ((storeMapping sentinel generic o).bind f).run (exec env) cs w =
      (.error (if e = sentinel then generic else e), { w.advance (cs 0).now with db := db' }) := by
  have hexec := exec_store_runs env o hc w
  rw [hx] at hexec
  simp [storeMapping, hexec]

end Runs

/-! ## Calls without interference -/

section Solo

variable {env : Env} {w : World}

theorem must_passes (hp : Passes o p) {Q : o.Val → World → Prop}
    (h : ∀ c v, (exec env (.store o) c w).1 = .ok v → Q v (exec env (.store o) c w).2) :
    p.Must (exec env) Q w := by
  refine safe_passes hp (fun _ _ _ _ => ⟨trivial, trivial⟩) ?_
  intro w' _ hw c v hv
  subst hw
  exact h c v hv

theorem must_now {Q : Time → World → Prop} (h : ∀ w', w.now ≤ w'.now → w'.db = w.db → Q w'.now w') :
    now.Must (exec env) Q w :=
  must_call fun _ => .done (h _ (le_max_left _ _) rfl)

theorem may_passes (hp : Passes o p) {Q : o.Val → World → Prop} {v : o.Val} (c : Choice)
    (hc : c.fails = false) (hv : (o.exec env (max w.now c.now) c.id c.pick w.db).1 = .ok v)
    (hQ : Q v { w.advance c.now with db := (o.exec env (max w.now c.now) c.id c.pick w.db).2 }) :
    p.May (exec env) Q w := by
  have hexec : exec env (.store o) c w = (.ok v,
      { w.advance c.now with db := (o.exec env (max w.now c.now) c.id c.pick w.db).2 }) := by
    rw [exec_store_runs env o hc w, hv]
  cases hp with
  | mk k hok herr =>
      refine .call c ?_
      rw [hexec, hok v]
      exact .done hQ

theorem may_tryStore {r : Except Err o.Val} (c : Choice) (hc : c.fails = false)
    (hr : (o.exec env (max w.now c.now) c.id c.pick w.db).1 = r) :
    (tryStore o).May (exec env) (fun r' w' => r' = r ∧ w' =
      { w.advance c.now with db := (o.exec env (max w.now c.now) c.id c.pick w.db).2 }) w := by
  refine .call c (.done ?_)
  simp [exec, answer, execStore, hc, World.advance, hr]

/-- The environment can let a store call fail. -/
theorem may_tryStore_fails (o : Store.Op) :
    (tryStore o).May (exec env) (fun r w' => r = .error .dependency ∧ w'.db = w.db) w :=
  .call { fails := true } (.done ⟨rfl, rfl⟩)

theorem may_ignore_fails (o : Store.Op) :
    (ignore o).May (exec env) (fun _ w' => w'.db = w.db) w :=
  .call { fails := true } (.done rfl)

theorem may_failIf {c : Bool} {Q : Unit → World → Prop} (hc : c = false) (h : Q () w) :
    (failIf c e).May (exec env) Q w := by
  subst hc
  exact .done h

/-- Every operation is performed at the later of the two instants. -/
theorem exec_now (env : Env) (o : Port) (c : Choice) (w : World) :
    (exec env o c w).2.now = max w.now c.now := by
  cases o with
  | store o =>
      rcases exec_store env o c w with hx | hx <;> rw [hx] <;> rfl
  | sign subject orgID expires =>
      simp only [exec, answer, execSign]
      split <;> rfl
  | send n =>
      simp only [exec, answer, execSend]
      split <;> rfl
  | _ => rfl

/-- The clock never runs backwards. -/
theorem exec_now_le (env : Env) (o : Port) (c : Choice) (w : World) :
    w.now ≤ (exec env o c w).2.now := by
  rw [exec_now]
  exact le_max_left _ _

end Solo

/-! ## Histories -/

section Histories

variable {tr : List (Answered ports)}

theorem traces_passes (hp : Passes o p) :
    p.Traces (Program.OnOk fun tr' v => tr' = tr ++ [⟨.store o, .ok v⟩]) tr := by
  cases hp with
  | mk k hok herr =>
      refine .call fun r => ?_
      cases r with
      | ok v =>
          rw [hok v]
          exact traces_ok_done rfl
      | error e =>
          rcases herr e with ⟨e', he⟩
          rw [he]
          exact traces_ok_fail e'

theorem traces_ignore :
    (ignore o).Traces (Program.OnOk fun tr' _ => ∃ r, tr' = tr ++ [⟨.store o, r⟩]) tr :=
  .call fun r => traces_ok_done ⟨r, rfl⟩

theorem traces_now : now.Traces (Program.OnOk fun tr' t => tr' = tr ++ [⟨.now, t⟩]) tr :=
  .call fun _ => traces_ok_done rfl

theorem traces_failIf {c : Bool} : (failIf c e).Traces (Program.OnOk fun tr' _ => tr' = tr) tr := by
  cases c with
  | true => exact traces_ok_fail e
  | false => exact traces_ok_done rfl

section Orderly

variable {next : List (Answered ports) → Port → Prop}

theorem orderly_passes (hp : Passes o p) (h : next tr (.store o)) :
    p.Orderly next (fun tr' v => tr' = tr ++ [⟨.store o, .ok v⟩]) tr := by
  cases hp with
  | mk k hok herr =>
      refine .call h fun r => ?_
      cases r with
      | ok v =>
          rw [hok v]
          exact .done rfl
      | error e =>
          rcases herr e with ⟨e', he⟩
          rw [he]
          exact .fail

theorem orderly_ignore (h : next tr (.store o)) :
    (ignore o).Orderly next (fun tr' _ => ∃ r, tr' = tr ++ [⟨.store o, r⟩]) tr :=
  .call h fun r => .done ⟨r, rfl⟩

theorem orderly_now (h : next tr .now) :
    now.Orderly next (fun tr' t => tr' = tr ++ [⟨.now, t⟩]) tr :=
  .call h fun _ => .done rfl

theorem orderly_failIf {c : Bool} :
    (failIf c e).Orderly next (fun tr' _ => tr' = tr ∧ c = false) tr := by
  cases c with
  | true => exact .fail
  | false => exact .done ⟨rfl, rfl⟩

end Orderly

/-- A call that has returned was one of the calls served. -/
theorem serve_call {cfg : Config} {calls : List Call} {sched : Schedule} {i : Nat}
    {res : Except Err Reply} (h : (runOn cfg (serve cfg w calls) sched).result? i = some res) :
    ∃ call, calls[i]? = some call := by
  have hlength : (runOn cfg (serve cfg w calls) sched).threads.length = calls.length := by
    simpa [runOn, serve, Pool.start] using Pool.threads_length_run (exec cfg.env)
      (serve cfg w calls) sched
  cases hi : calls[i]? with
  | some call => exact ⟨call, rfl⟩
  | none =>
      have hle := List.getElem?_eq_none_iff.1 hi
      unfold Pool.result? at h
      rw [List.getElem?_eq_none (by omega)] at h
      cases h

/-- What a call did before it returned. -/
theorem serve_history {cfg : Config} {calls : List Call} {sched : Schedule} {i : Nat}
    {call : Call} {reply : Reply} {Q : List (Answered ports) → Reply → Prop}
    (hi : calls[i]? = some call) (htraces : (call.program cfg).Traces (Program.OnOk Q) [])
    (hres : (runOn cfg (serve cfg w calls) sched).result? i = some (.ok reply)) :
    Q ((runOn cfg (serve cfg w calls) sched).history i) reply := by
  refine Pool.finished_traces sched (q := call.program cfg) ?_ htraces hres
  simp [hi]

end Histories

end Service
end OrbitAuth
