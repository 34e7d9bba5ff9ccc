import OrbitAuth.Foundations.Trail
import OrbitAuth.Service.Steps

/-!
# Trails — the use cases, operation by operation

The rules of `Foundations.Trail` for the vocabulary of the use cases.  A store call that does not
get through leaves the database as it was, so its error is reported in the world before it, at the
later instant (`ends_passes`).  `Still` collects what operations leave behind that neither write nor
send.
-/

namespace OrbitAuth
namespace Service

open Domain Foundations Postgres

/-- An operation of an undisturbed call. -/
abbrev Done := Performed ports Choice World

/-- The instant at which the operation was performed. -/
def instant (s : Done) : Time :=
  max s.world.now s.choice.now

/-! ## One more operation -/

section Snoc

variable {tr : List Done}

theorem forall_snoc {P : Done → Prop} {d : Done} (h : ∀ d ∈ tr, P d) (hd : P d) :
    ∀ x ∈ tr ++ [d], P x := by
  intro x hx
  rcases List.mem_append.mp hx with hx | hx
  · exact h x hx
  · rw [List.mem_singleton] at hx
    exact hx ▸ hd

theorem any_snoc (f : Done → Bool) (d : Done) : (tr ++ [d]).any f = (tr.any f || f d) := by
  simp

theorem last_mem (d : Done) : d ∈ tr ++ [d] :=
  List.mem_append_right _ (List.mem_singleton_self d)

end Snoc

/-! ## Rules -/

section Rules

variable {env : Env} {ok : Port → Choice → World → Prop} {w : World} {tr : List Done}

/-- The world after a store call that got through. -/
def stored (env : Env) (o : Store.Op) (c : Choice) (w : World) : World :=
  { w.advance c.now with db := (o.exec env (max w.now c.now) c.id c.pick w.db).2 }

/-- A store call gets through, or answers with an error and changes nothing. -/
theorem exec_store_cases (env : Env) (o : Store.Op) (c : Choice) (w : World) :
    (∃ v, c.fails = false ∧ (o.exec env (max w.now c.now) c.id c.pick w.db).1 = .ok v ∧
        exec env (.store o) c w = (.ok v, stored env o c w)) ∨
      ∃ e, exec env (.store o) c w = (.error e, w.advance c.now) ∧
        (c.fails = false → (o.exec env (max w.now c.now) c.id c.pick w.db).1 = .error e) := by
  cases hc : c.fails with
  | true =>
      exact .inr ⟨.dependency, exec_store_fails env o hc w, fun h => nomatch h⟩
  | false =>
      have hruns := exec_store_runs env o hc w
      cases hres : (o.exec env (max w.now c.now) c.id c.pick w.db).1 with
      | ok v => exact .inl ⟨v, rfl, rfl, by rw [hruns, hres]; rfl⟩
      | error e =>
          refine .inr ⟨e, ?_, fun _ => rfl⟩
          rw [hruns, hres, Store.exec_error_db hres]
          rfl

/-- A check in front of the rest. -/
theorem ends_check {α : Type} {c : Bool} {e : Err} {f : Unit → Action α}
    {post : Except Err α → World → List Done → Prop}
    (hok : c = false → (f ()).Ends (exec env) ok post w tr)
    (herr : c = true → post (.error e) w tr) : (failIf c e >>= f).Ends (exec env) ok post w tr := by
  cases c with
  | true => exact .fail (herr rfl)
  | false => exact hok rfl

theorem ends_failIf {c : Bool} {e : Err} {post : Except Err Unit → World → List Done → Prop}
    (hok : c = false → post (.ok ()) w tr) (herr : c = true → post (.error e) w tr) :
    (failIf c e).Ends (exec env) ok post w tr := by
  cases c with
  | true => exact .fail (herr rfl)
  | false => exact .done (hok rfl)

theorem ends_now {post : Except Err Time → World → List Done → Prop}
    (h : ∀ c, ok .now c w →
      post (.ok (max w.now c.now)) (w.advance c.now) (tr ++ [⟨.now, c, w⟩])) :
    now.Ends (exec env) ok post w tr :=
  .call fun c hc => .done (h c hc)

theorem ends_newID {post : Except Err String → World → List Done → Prop}
    (h : ∀ c, ok .newID c w →
      post (.ok c.id.string) (w.advance c.now) (tr ++ [⟨.newID, c, w⟩])) :
    newID.Ends (exec env) ok post w tr :=
  .call fun c hc => .done (h c hc)

/-- The answer of a dependency that can fail but changes nothing. -/
theorem ends_attempt {α : Type} {v : α} {c : Choice}
    {post : Except Err α → World → List Done → Prop} (hok : c.fails = false → post (.ok v) w tr)
    (herr : c.fails = true → ∀ e, post (.error e) w tr) :
    (orReturn (attempt c (.ok v))).Ends (exec env) ok post w tr := by
  unfold attempt
  cases hf : c.fails with
  | false => exact .done (hok hf)
  | true => exact .fail (herr hf _)

theorem ends_newCode {post : Except Err String → World → List Done → Prop}
    (hok : ∀ c, ok .newCode c w → c.fails = false →
      post (.ok c.code) (w.advance c.now) (tr ++ [⟨.newCode, c, w⟩]))
    (herr : ∀ c e, ok .newCode c w → c.fails = true →
      post (.error e) (w.advance c.now) (tr ++ [⟨.newCode, c, w⟩])) :
    newCode.Ends (exec env) ok post w tr :=
  .call fun c hc => ends_attempt (hok c hc) fun hf e => herr c e hc hf

theorem ends_hash {secret : String} {post : Except Err String → World → List Done → Prop}
    (hok : ∀ c, ok (.hash secret) c w → c.fails = false →
      post (.ok (env.hash c.salt secret)) (w.advance c.now) (tr ++ [⟨.hash secret, c, w⟩]))
    (herr : ∀ c e, ok (.hash secret) c w → c.fails = true →
      post (.error e) (w.advance c.now) (tr ++ [⟨.hash secret, c, w⟩])) :
    (hash secret).Ends (exec env) ok post w tr :=
  .call fun c hc => ends_attempt (hok c hc) fun hf e => herr c e hc hf

/-- A notification is recorded when it went out. -/
theorem ends_send {n : Notification} {post : Except Err Unit → World → List Done → Prop}
    (hok : ∀ c, ok (.send n) c w → c.fails = false →
      post (.ok ()) { w.advance c.now with sent := w.sent ++ [n] } (tr ++ [⟨.send n, c, w⟩]))
    (herr : ∀ c e, ok (.send n) c w → c.fails = true →
      post (.error e) (w.advance c.now) (tr ++ [⟨.send n, c, w⟩])) :
    (send n).Ends (exec env) ok post w tr := by
  refine .call fun c hc => ?_
  cases hf : c.fails with
  | false =>
      have hx : exec env (.send n) c w =
          (.ok (), { w.advance c.now with sent := w.sent ++ [n] }) := by
        simp [exec, answer, execSend, attempt, hf, World.advance]
      rw [hx]
      exact .done (hok c hc hf)
  | true =>
      have hx : exec env (.send n) c w = (.error .dependency, w.advance c.now) := by
        simp [exec, answer, execSend, attempt, hf]
      rw [hx]
      exact .fail (herr c _ hc hf)

/-- A store call whose errors end the use case. -/
theorem ends_passes {o : Store.Op} {p : Action o.Val} (hp : Passes o p)
    {post : Except Err o.Val → World → List Done → Prop}
    (hok : ∀ c v, ok (.store o) c w → c.fails = false →
      (o.exec env (max w.now c.now) c.id c.pick w.db).1 = .ok v →
        post (.ok v) (stored env o c w) (tr ++ [⟨.store o, c, w⟩]))
    (herr : ∀ c e e', ok (.store o) c w →
      (c.fails = false → (o.exec env (max w.now c.now) c.id c.pick w.db).1 = .error e) →
        post (.error e') (w.advance c.now) (tr ++ [⟨.store o, c, w⟩])) :
    p.Ends (exec env) ok post w tr := by
  cases hp with
  | mk k hkok hkerr =>
      refine .call fun c hc => ?_
      rcases exec_store_cases env o c w with ⟨v, hf, hv, hx⟩ | ⟨e, hx, hres⟩
      · rw [hx]
        dsimp only
        rw [hkok v]
        exact .done (hok c v hc hf hv)
      · rw [hx]
        dsimp only
        obtain ⟨e', he'⟩ := hkerr e
        rw [he']
        exact .fail (herr c e e' hc hres)

theorem ends_tryStore {o : Store.Op}
    {post : Except Err (Except Err o.Val) → World → List Done → Prop}
    (hok : ∀ c v, ok (.store o) c w → c.fails = false →
      (o.exec env (max w.now c.now) c.id c.pick w.db).1 = .ok v →
        post (.ok (.ok v)) (stored env o c w) (tr ++ [⟨.store o, c, w⟩]))
    (herr : ∀ c e, ok (.store o) c w →
      (c.fails = false → (o.exec env (max w.now c.now) c.id c.pick w.db).1 = .error e) →
        post (.ok (.error e)) (w.advance c.now) (tr ++ [⟨.store o, c, w⟩])) :
    (tryStore o).Ends (exec env) ok post w tr := by
  refine .call fun c hc => .done ?_
  rcases exec_store_cases env o c w with ⟨v, hf, hv, hx⟩ | ⟨e, hx, hres⟩
  · rw [hx]
    exact hok c v hc hf hv
  · rw [hx]
    exact herr c e hc hres

/-- A lookup answers from the store, or fails as a dependency. -/
theorem ends_lookup {o : Store.Op} {post : Except Err (Except Err o.Val) → World → List Done → Prop}
    (hruns : ∀ c, c.fails = false → post (.ok (o.exec env (max w.now c.now) c.id c.pick w.db).1)
      (stored env o c w) (tr ++ [⟨.store o, c, w⟩]))
    (hfails : ∀ c, c.fails = true →
      post (.ok (.error .dependency)) (w.advance c.now) (tr ++ [⟨.store o, c, w⟩])) :
    (tryStore o).Ends (exec env) ok post w tr := by
  refine .call fun c _ => .done ?_
  cases hf : c.fails with
  | true =>
      rw [exec_store_fails env o hf]
      exact hfails c hf
  | false =>
      rw [exec_store_runs env o hf]
      exact hruns c hf

end Rules

/-! ## Choices and instants of a run -/

section Runs

variable {env : Env} {α : Type}

theorem trail_choices (p : Action α) (choices : Nat → Choice) (w : World) :
    ∀ d ∈ p.trail (exec env) choices w, ∃ n, d.choice = choices n := by
  induction p generalizing choices w with
  | done a => exact fun _ hd => nomatch hd
  | fail e => exact fun _ hd => nomatch hd
  | call o k ih =>
      intro d hd
      rcases List.mem_cons.mp hd with rfl | hd
      · exact ⟨0, rfl⟩
      · obtain ⟨n, hn⟩ := ih _ _ _ d hd
        exact ⟨n + 1, hn⟩

/-- The clock only shows what its operations were given. -/
theorem run_now_le {t : Time} (p : Action α) (choices : Nat → Choice) {w : World} (hw : w.now ≤ t)
    (h : ∀ d ∈ p.trail (exec env) choices w, d.choice.now ≤ t) :
    (p.run (exec env) choices w).2.now ≤ t := by
  induction p generalizing choices w with
  | done a => exact hw
  | fail e => exact hw
  | call o k ih =>
      rw [Program.trail, List.forall_mem_cons] at h
      rw [Program.run_call]
      refine ih _ _ ?_ h.2
      rw [exec_now]
      exact max_le hw h.1

/-- When the run is over all its instants are past. -/
theorem instant_le_run (p : Action α) (choices : Nat → Choice) (w : World) :
    w.now ≤ (p.run (exec env) choices w).2.now ∧
      ∀ d ∈ p.trail (exec env) choices w, instant d ≤ (p.run (exec env) choices w).2.now := by
  induction p generalizing choices w with
  | done a => exact ⟨le_rfl, fun _ hd => nomatch hd⟩
  | fail e => exact ⟨le_rfl, fun _ hd => nomatch hd⟩
  | call o k ih =>
      obtain ⟨hstart, hrest⟩ := ih (exec env o (choices 0) w).1 (fun n => choices (n + 1))
        (exec env o (choices 0) w).2
      rw [exec_now] at hstart
      rw [Program.run_call]
      refine ⟨(le_max_left _ _).trans hstart, fun d hd => ?_⟩
      rcases List.mem_cons.mp hd with rfl | hd
      · exact hstart
      · exact hrest d hd

end Runs

/-! ## Operations that neither write nor send -/

/-- Operations that leave the database and the mail alone. -/
def idle : Port → Bool
  | .now | .newID | .newCode | .newSecret | .hash _ | .flag _ => true
  | .sign _ _ _ | .send _ => false
  | .store o => o.writes = []

/-- Since `w` and `tr` only idle operations were performed. -/
structure Still (w : World) (tr : List Done) (w' : World) (tr' : List Done) : Prop where
  now_le : w.now ≤ w'.now
  db : w'.db = w.db
  sent : w'.sent = w.sent
  trail : ∃ more, tr' = tr ++ more ∧ ∀ s ∈ more, idle s.op = true

section Still

variable {env : Env} {ok : Port → Choice → World → Prop} {w w' w'' : World}
  {tr tr' tr'' : List Done}

theorem still_refl (w : World) (tr : List Done) : Still w tr w tr :=
  ⟨le_rfl, rfl, rfl, [], (List.append_nil tr).symm, fun _ hs => nomatch hs⟩

theorem still_trans (h : Still w tr w' tr') (h' : Still w' tr' w'' tr'') : Still w tr w'' tr'' := by
  obtain ⟨more, rfl, hmore⟩ := h.trail
  obtain ⟨more', rfl, hmore'⟩ := h'.trail
  refine ⟨h.now_le.trans h'.now_le, h'.db.trans h.db, h'.sent.trans h.sent, more ++ more', ?_, ?_⟩
  · rw [List.append_assoc]
  · intro s hs
    rcases List.mem_append.mp hs with hs | hs
    · exact hmore s hs
    · exact hmore' s hs

theorem still_step {o : Port} (ho : idle o = true) (c : Choice) (w : World) (tr : List Done) :
    Still w tr (exec env o c w).2 (tr ++ [⟨o, c, w⟩]) := by
  have htrail : ∃ more, tr ++ [⟨o, c, w⟩] = tr ++ more ∧ ∀ s ∈ more, idle s.op = true := by
    refine ⟨[⟨o, c, w⟩], rfl, fun s hs => ?_⟩
    rw [List.mem_singleton] at hs
    rw [hs]
    exact ho
  refine ⟨exec_now_le env o c w, ?_, ?_, htrail⟩
  · refine exec_db_rel (R := fun db db' => db' = db) (fun _ => rfl) ?_ c
    rintro o' rfl now id pick
    exact Store.exec_reads (of_decide_eq_true ho) now id pick w.db
  · cases o with
    | store o' => rcases exec_store env o' c w with hx | hx <;> rw [hx] <;> rfl
    | sign => cases ho
    | send => cases ho
    | _ => rfl

/-- A part of a use case that only reads. -/
theorem ends_idle {α : Type} {p : Action α} (hp : p.Uses fun o => idle o = true) (w : World)
    (tr : List Done) : p.Ends (exec env) ok (fun _ w' tr' => Still w tr w' tr') w tr :=
  ends_of_uses (fun _ c w' tr' ho _ h => still_trans h (still_step ho c w' tr')) hp w tr
    (still_refl w tr)

end Still

end Service
end OrbitAuth
