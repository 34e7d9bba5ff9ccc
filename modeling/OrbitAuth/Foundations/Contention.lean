import OrbitAuth.Foundations.ReadCommitted

/-!
# Contention — rows that several transactions want

Three rules for transactions under READ COMMITTED that write the same rows.

* `step_moves` — a relation that every statement keeps between what a row was and what it is, is
  kept by every commit, because the row is locked from the first write on; `run_moves` says so of
  runs;
* `run_winner` — where something can be taken once and is seen to be free by the statement that
  takes it, at most one transaction commits having taken it;
* `run_unique` — a unique index stays unique: each statement checks it against what it sees, and who
  puts a value into it keeps others from doing so.
-/

namespace OrbitAuth
namespace Foundations

variable {S : Signature} {ε α C W X K P ρ ι : Type}
variable {sys : System S ε α W X K} {wins : α → K → Prop} {taken : K → P → Prop}

/-! ## How a commit changes a part -/

namespace Partition

variable {E : Engine S C W X K} {Q : Partition E P} {R : K → P → P → Prop}

variable (Q) in
/-- What a transaction has made of the parts it holds. -/
def Moves (R : K → P → P → Prop) (l : Local W X K) : Prop :=
  ∀ k ∈ l.held, R k (Q.part k l.base) (Q.part k (E.view l))

theorem moves_rely {l l' : Local W X K} (h : Q.Rely l l') (hl : Q.Moves R l) : Q.Moves R l' := by
  intro k hk
  rw [h.held] at hk
  rw [h.part k hk, part_view h hk]
  exact hl k hk

/-- The parts that a transaction does not hold are as they were. -/
theorem moves_part (hrefl : ∀ k x, R k x x) {l : Local W X K} (hcov : Q.Covered l.writes l.held)
    (hl : Q.Moves R l) (k : K) : R k (Q.part k l.base) (Q.part k (E.view l)) := by
  by_cases hk : k ∈ l.held
  · exact hl k hk
  · have hsame : Q.part k (E.view l) = Q.part k l.base := part_applyAll hcov hk l.base
    rw [hsame]
    exact hrefl k _

theorem moves_statement (hrefl : ∀ k x, R k x x) (htrans : ∀ k x y z, R k x y → R k y z → R k x z)
    {o : S.Op} {c : C} {l : Local W X K} (hok : Q.Ok l) (hl : Q.Moves R l)
    (hstep : ∀ k, R k (Q.part k (E.view l))
      (Q.part k (E.applyAll (E.view l) (E.eval o c (E.view l)).2))) :
    Q.Moves R (E.statement o c l).2 := by
  intro k _
  rw [E.statement_view]
  exact htrans k _ _ _ (moves_part hrefl hok.2 hl k) (hstep k)

/-- A transaction moves a part as its statements do. -/
theorem keeps_moves (hown : Q.Owned) (hrefl : ∀ k x, R k x x)
    (htrans : ∀ k x y z, R k x y → R k y z → R k x z) {allowed : S.Op → Prop}
    (hstep : ∀ o, allowed o → ∀ c w k, R k (Q.part k w) (Q.part k (E.applyAll w (E.eval o c w).2)))
    {p : Program S ε α} (hp : p.Uses allowed) {l : Local W X K} (hl : Q.Moves R l) :
    Q.Keeps p (fun _ l => Q.Moves R l) l := by
  refine safe_keeps (K := Q.Moves R) ?_ ?_ hp l hl
  · intro _ l l' hrely
    exact moves_rely hrely
  · intro o ho l hok hl c
    exact ⟨ok_owned hown hok, trivial, moves_statement hrefl htrans hok hl (hstep o ho c _)⟩

variable (Q) in
/-- Whoever ends with a winning answer has taken what was free. -/
def Takes (taken : K → P → Prop) (wins : α → K → Prop) (a : α) (l : Local W X K) : Prop :=
  ∀ k, wins a k → k ∈ l.held ∧ ¬ taken k (Q.part k l.base) ∧ taken k (Q.part k (E.view l))

theorem stable_takes : Q.Stable (Q.Takes taken wins) := by
  intro a l l' hrely h k hk
  obtain ⟨hheld, hfree, htaken⟩ := h k hk
  refine ⟨by rw [hrely.held]; exact hheld, ?_, ?_⟩
  · rw [hrely.part k hheld]
    exact hfree
  · rw [part_view hrely hheld]
    exact htaken

end Partition

namespace System

variable {E : Engine S C W X K} {Q : Partition E P} {post : Nat → α → Local W X K → Prop}

/-- A step of session `i` changes the committed state as that session's transaction does. -/
theorem step_moves [DecidableEq K] {R : Nat → K → P → P → Prop} (hrefl : ∀ i k x, R i k x x)
    (hpost : ∀ i a l, post i a l → Q.Moves (R i) l) (h : sys.Sound Q post) (i : Nat) (m : Move C)
    (k : K) : R i k (Q.part k sys.committed) (Q.part k (sys.step E i m).committed) := by
  rcases step_cases E sys i m with hx | ⟨e, hx⟩ | ⟨a, writes, held, hi, hx⟩ |
    ⟨o, k', writes, held, c, hi, hwait, hx⟩
  · rw [hx]
    exact hrefl i k _
  · rw [hx]
    exact hrefl i k _
  · rw [hx]
    obtain ⟨hcov, hdone⟩ := sound_done h hi
    exact Partition.moves_part (hrefl i) hcov (hpost i a _ hdone) k
  · rw [hx]
    exact hrefl i k _

/-- What every statement makes of a part, every further stretch of a run makes of it. -/
theorem run_moves [DecidableEq K] (hown : Q.Owned) (hfine : ∀ k x, Q.fine k x)
    {R : K → P → P → Prop} (hrefl : ∀ k x, R k x x)
    (htrans : ∀ k x y z, R k x y → R k y z → R k x z) {allowed : S.Op → Prop}
    (hstep : ∀ o, allowed o → ∀ c w k, R k (Q.part k w) (Q.part k (E.applyAll w (E.eval o c w).2)))
    {ps : List (Program S ε α)} (hps : ∀ p ∈ ps, p.Uses allowed) (w : W)
    (sched more : List (Nat × Move C)) (k : K) :
    R k (Q.part k ((start w ps : System S ε α W X K).run E sched).committed)
      (Q.part k ((start w ps : System S ε α W X K).run E (sched ++ more)).committed) := by
  have hsound : ∀ sched, ((start w ps : System S ε α W X K).run E sched).Sound Q
      fun _ _ l => Q.Moves R l := by
    intro sched
    refine (run_verified (fun _ _ _ _ _ _ => hfine _ _) (fun _ _ _ _ h => Partition.moves_rely h)
      (fun _ => hfine _ _) ?_ sched).2
    intro i p hp
    refine Partition.keeps_moves hown hrefl htrans hstep (hps p (List.mem_of_getElem? hp)) ?_
    intro k hk
    cases hk
  -- one move at a time
  induction more generalizing sched with
  | nil =>
      rw [List.append_nil]
      exact hrefl k _
  | cons move rest ih =>
      have hfirst : R k (Q.part k ((start w ps : System S ε α W X K).run E sched).committed)
          (Q.part k ((start w ps : System S ε α W X K).run E (sched ++ [move])).committed) := by
        rw [run_append]
        exact step_moves (R := fun _ => R) (fun _ => hrefl) (fun _ _ _ h => h)
          (hsound sched) move.1 move.2 k
      have hrest := ih (sched ++ [move])
      rw [List.append_assoc] at hrest
      exact htrans k _ _ _ hfirst hrest

/-- The winners so far: what they won is taken, and nobody else won it. -/
structure Awarded (Q : Partition E P) (taken : K → P → Prop) (wins : α → K → Prop)
    (sys : System S ε α W X K) : Prop where
  taken : ∀ (i : Nat) a k, sys.sessions[i]? = some (.committed a) → wins a k →
    taken k (Q.part k sys.committed)
  once : ∀ (i j : Nat) a b k, sys.sessions[i]? = some (.committed a) →
    sys.sessions[j]? = some (.committed b) → wins a k → wins b k → i = j

/-- A session that has not committed changes. -/
theorem awarded_set (h : sys.Awarded Q taken wins) {i : Nat} {s : Session S ε α X K}
    (hs : ∀ a, s ≠ .committed a) : (sys.set i s).Awarded Q taken wins := by
  have hold : ∀ {j : Nat} {a : α}, (sys.set i s).sessions[j]? = some (.committed a) →
      sys.sessions[j]? = some (.committed a) := by
    intro j a hj
    rcases getElem?_set_cases hj with ⟨_, heq⟩ | ⟨_, hj'⟩
    · exact absurd heq.symm (hs a)
    · exact hj'
  refine ⟨?_, ?_⟩
  · intro j a k hj hwins
    exact h.taken j a k (hold hj) hwins
  · intro j₁ j₂ a b k h₁ h₂ hwins₁ hwins₂
    exact h.once j₁ j₂ a b k (hold h₁) (hold h₂) hwins₁ hwins₂

variable [DecidableEq K]

theorem awarded_step (hpost : ∀ i a l, post i a l →
      Q.Moves (fun k x y => taken k x → taken k y) l ∧ Q.Takes taken wins a l)
    (hsound : sys.Sound Q post) (h : sys.Awarded Q taken wins) (i : Nat) (m : Move C) :
    (sys.step E i m).Awarded Q taken wins := by
  have hkeeps : ∀ k, taken k (Q.part k sys.committed) →
      taken k (Q.part k (sys.step E i m).committed) :=
    step_moves (R := fun _ k x y => taken k x → taken k y) (fun _ _ _ h => h)
      (fun i a l hl => (hpost i a l hl).1) hsound i m
  rcases step_cases E sys i m with hx | ⟨e, hx⟩ | ⟨a, writes, held, hi, hx⟩ |
    ⟨o, k, writes, held, c, hi, hwait, hx⟩
  · rw [hx]
    exact h
  · rw [hx]
    exact awarded_set h fun _ heq => by cases heq
  · -- what session `i` wins was free, so nobody has won it before
    obtain ⟨_, hdone⟩ := sound_done hsound hi
    have htakes := (hpost i a _ hdone).2
    rw [hx] at hkeeps ⊢
    have hnew : ∀ j b k, j ≠ i → sys.sessions[j]? = some (.committed b) → wins b k →
        ¬ wins a k := by
      intro j b k _ hj hb ha
      exact (htakes k ha).2.1 (h.taken j b k hj hb)
    refine ⟨?_, ?_⟩
    · intro j b k hj hwins
      rcases getElem?_set_cases hj with ⟨_, heq⟩ | ⟨_, hold⟩
      · obtain rfl := Session.committed.inj heq
        exact (htakes k hwins).2.2
      · exact hkeeps k (h.taken j b k hold hwins)
    · intro j₁ j₂ b₁ b₂ k h₁ h₂ hwins₁ hwins₂
      rcases getElem?_set_cases h₁ with ⟨rfl, heq₁⟩ | ⟨hne₁, hold₁⟩
      · rcases getElem?_set_cases h₂ with ⟨rfl, _⟩ | ⟨hne₂, hold₂⟩
        · rfl
        · obtain rfl := Session.committed.inj heq₁
          exact absurd hwins₁ (hnew j₂ b₂ k hne₂ hold₂ hwins₂)
      · rcases getElem?_set_cases h₂ with ⟨rfl, heq₂⟩ | ⟨_, hold₂⟩
        · obtain rfl := Session.committed.inj heq₂
          exact absurd hwins₂ (hnew j₁ b₁ k hne₁ hold₁ hwins₁)
        · exact h.once j₁ j₂ b₁ b₂ k hold₁ hold₂ hwins₁ hwins₂
  · rw [hx]
    exact awarded_set h fun _ heq => by cases heq

/-- At most one transaction wins. -/
theorem run_winner (hready : ∀ i a l, post i a l → Q.Ready l) (hstable : ∀ i, Q.Stable (post i))
    (hpost : ∀ i a l, post i a l →
      Q.Moves (fun k x y => taken k x → taken k y) l ∧ Q.Takes taken wins a l) {w : W}
    {ps : List (Program S ε α)} (hw : Q.Inv w)
    (hps : ∀ (i : Nat) p, ps[i]? = some p → Q.Keeps p (post i) ⟨w, [], []⟩)
    (sched : List (Nat × Move C)) :
    ((start w ps : System S ε α W X K).run E sched).Awarded Q taken wins := by
  have hnone : (start w ps : System S ε α W X K).Awarded Q taken wins := by
    refine ⟨fun i a k hi => ?_, fun i j a b k hi => ?_⟩
    · obtain ⟨p, _, heq⟩ := start_session hi
      cases heq
    · obtain ⟨p, _, heq⟩ := start_session hi
      cases heq
  have hrun := run_induct E
    (J := fun sys => (sys.Exclusive ∧ sys.Sound Q post) ∧ sys.Awarded Q taken wins) ?_
    ⟨⟨exclusive_start w ps, sound_start hw hps⟩, hnone⟩ sched
  · exact hrun.2
  · intro sys i m h
    exact ⟨⟨exclusive_step E h.1.1 i m, sound_step hready hstable h.1.1 h.1.2 i m⟩,
      awarded_step hpost h.1.2 h.2 i m⟩

end System

/-! ## Unique indexes -/

/-- The entries of rows in a unique index.  A write sets the entries of some rows, whatever they
were, and locks the values it puts there. -/
structure Index (E : Engine S C W X K) (ρ ι : Type) where
  entry : ρ → W → Option ι
  sets : X → ρ → Option (Option ι)
  key : ι → K
  entry_apply : ∀ w x r, entry r (E.apply w x) = (sets x r).getD (entry r w)
  locked : ∀ o c w, ∀ x ∈ (E.eval o c w).2, ∀ r v, sets x r = some (some v) → key v ∈ E.locks o c w

namespace Index

variable {E : Engine S C W X K} (D : Index E ρ ι)

def Unique (w : W) : Prop :=
  ∀ r r' v, D.entry r w = some v → D.entry r' w = some v → r = r'

/-- The last write to a row decides. -/
def last : List X → ρ → Option (Option ι)
  | [], _ => none
  | x :: xs, r => (last xs r).or (D.sets x r)

/-- The values put into the index are locked. -/
def Claimed (xs : List X) (ks : List K) : Prop :=
  ∀ x ∈ xs, ∀ r v, D.sets x r = some (some v) → D.key v ∈ ks

variable {D} {w : W} {xs ys : List X} {ks ls : List K}

theorem entry_applyAll (xs : List X) (w : W) (r : ρ) :
    D.entry r (E.applyAll w xs) = (D.last xs r).getD (D.entry r w) := by
  induction xs generalizing w with
  | nil => rfl
  | cons x xs ih =>
      rw [E.applyAll_cons, ih, D.entry_apply, last]
      cases D.last xs r <;> rfl

theorem last_mem {u : Option ι} {r : ρ} (h : D.last xs r = some u) :
    ∃ x ∈ xs, D.sets x r = some u := by
  induction xs with
  | nil => cases h
  | cons x xs ih =>
      rw [last] at h
      cases hlast : D.last xs r with
      | none =>
          rw [hlast] at h
          exact ⟨x, by simp, h⟩
      | some u' =>
          rw [hlast] at h
          obtain ⟨y, hy, hsets⟩ := ih (hlast.trans h)
          exact ⟨y, by simp [hy], hsets⟩

theorem claimed_last (h : D.Claimed xs ks) {r : ρ} {v : ι} (hlast : D.last xs r = some (some v)) :
    D.key v ∈ ks := by
  obtain ⟨x, hx, hsets⟩ := last_mem hlast
  exact h x hx r v hsets

theorem claimed_append (hx : D.Claimed xs ks) (hy : D.Claimed ys ls) :
    D.Claimed (xs ++ ys) (ks ++ ls) := by
  intro x h r v hsets
  rcases List.mem_append.1 h with h | h
  · exact List.mem_append_left _ (hx x h r v hsets)
  · exact List.mem_append_right _ (hy x h r v hsets)

/-- Two rows with one value, of which only the first was written: the second had the value before
the other transaction committed, and the first writer saw it. -/
theorem eq_of_written (hx : D.Unique (E.applyAll w xs)) (cx : D.Claimed xs ks)
    (cy : D.Claimed ys ls) (hdisjoint : ∀ k ∈ ks, k ∉ ls) {r r' : ρ} {v : ι}
    (hr : D.last xs r = some (some v)) (hr' : D.last xs r' = none)
    (hentry : D.entry r' (E.applyAll w ys) = some v) : r = r' := by
  rw [entry_applyAll] at hentry
  cases hlast : D.last ys r' with
  | some u =>
      rw [hlast] at hentry
      have hvalue : D.last ys r' = some (some v) := by
        rw [hlast]
        exact congrArg some hentry
      exact absurd (claimed_last cy hvalue) (hdisjoint _ (claimed_last cx hr))
  | none =>
      rw [hlast] at hentry
      refine hx r r' v ?_ ?_
      · rw [entry_applyAll, hr]
        rfl
      · rw [entry_applyAll, hr']
        exact hentry

/-- What a transaction sees stays unique when another one commits. -/
theorem unique_commit (hx : D.Unique (E.applyAll w xs)) (hy : D.Unique (E.applyAll w ys))
    (cx : D.Claimed xs ks) (cy : D.Claimed ys ls) (hdisjoint : ∀ k ∈ ks, k ∉ ls) :
    D.Unique (E.applyAll (E.applyAll w ys) xs) := by
  intro r r' v hr hr'
  rw [entry_applyAll] at hr hr'
  -- each of the two rows has its entry from `xs` or from what was committed before
  cases hlast : D.last xs r with
  | none =>
      rw [hlast] at hr
      cases hlast' : D.last xs r' with
      | none =>
          rw [hlast'] at hr'
          exact hy r r' v hr hr'
      | some u' =>
          rw [hlast'] at hr'
          obtain rfl : u' = some v := hr'
          exact (eq_of_written hx cx cy hdisjoint hlast' hlast hr).symm
  | some u =>
      rw [hlast] at hr
      obtain rfl : u = some v := hr
      cases hlast' : D.last xs r' with
      | none =>
          rw [hlast'] at hr'
          exact eq_of_written hx cx cy hdisjoint hlast hlast' hr'
      | some u' =>
          rw [hlast'] at hr'
          obtain rfl : u' = some v := hr'
          refine hx r r' v ?_ ?_
          · rw [entry_applyAll, hlast]
            rfl
          · rw [entry_applyAll, hlast']
            rfl

end Index

namespace System

variable {E : Engine S C W X K} {D : Index E ρ ι}

/-- The index is unique for everybody, and every value somebody has put into it is locked. -/
structure Indexed (D : Index E ρ ι) (sys : System S ε α W X K) : Prop where
  unique : D.Unique sys.committed
  seen : ∀ (i : Nat) p writes held, sys.sessions[i]? = some (.running p writes held) →
    D.Unique (E.applyAll sys.committed writes)
  claimed : ∀ (i : Nat) p writes held, sys.sessions[i]? = some (.running p writes held) →
    D.Claimed writes held

theorem indexed_set (h : sys.Indexed D) {i : Nat} {s : Session S ε α X K}
    (hs : ∀ p writes held, s = .running p writes held →
      D.Unique (E.applyAll sys.committed writes) ∧ D.Claimed writes held) :
    (sys.set i s).Indexed D := by
  refine ⟨h.unique, ?_, ?_⟩
  · intro j p writes held hj
    rcases getElem?_set_cases hj with ⟨_, heq⟩ | ⟨_, hold⟩
    · exact (hs p writes held heq.symm).1
    · exact h.seen j p writes held hold
  · intro j p writes held hj
    rcases getElem?_set_cases hj with ⟨_, heq⟩ | ⟨_, hold⟩
    · exact (hs p writes held heq.symm).2
    · exact h.claimed j p writes held hold

theorem indexed_commit (hex : sys.Exclusive) (h : sys.Indexed D) {i : Nat} {p : Program S ε α}
    {a : α} {writes : List X} {held : List K}
    (hi : sys.sessions[i]? = some (.running p writes held)) :
    ({ committed := E.applyAll sys.committed writes
       sessions := sys.sessions.set i (.committed a) } : System S ε α W X K).Indexed D := by
  refine ⟨h.seen i p writes held hi, ?_, ?_⟩
  · intro j q ws ks hj
    rcases getElem?_set_cases hj with ⟨_, heq⟩ | ⟨hne, hold⟩
    · cases heq
    · exact Index.unique_commit (h.seen j q ws ks hold) (h.seen i p writes held hi)
        (h.claimed j q ws ks hold) (h.claimed i p writes held hi) (hex j i _ _ hne hold hi)
  · intro j q ws ks hj
    rcases getElem?_set_cases hj with ⟨_, heq⟩ | ⟨_, hold⟩
    · cases heq
    · exact h.claimed j q ws ks hold

theorem indexed_start {w : W} (hw : D.Unique w) (ps : List (Program S ε α)) :
    (start w ps : System S ε α W X K).Indexed D := by
  refine ⟨hw, ?_, ?_⟩
  · intro i p writes held hi
    obtain ⟨q, _, heq⟩ := start_session hi
    obtain ⟨rfl, rfl, rfl⟩ := Session.running.inj heq
    exact hw
  · intro i p writes held hi
    obtain ⟨q, _, heq⟩ := start_session hi
    obtain ⟨rfl, rfl, rfl⟩ := Session.running.inj heq
    intro x hx
    cases hx

variable [DecidableEq K]

theorem indexed_step (hstep : ∀ o c w, D.Unique w → D.Unique (E.applyAll w (E.eval o c w).2))
    (hex : sys.Exclusive) (h : sys.Indexed D) (i : Nat) (m : Move C) :
    (sys.step E i m).Indexed D := by
  rcases step_cases E sys i m with hx | ⟨e, hx⟩ | ⟨a, writes, held, hi, hx⟩ |
    ⟨o, k, writes, held, c, hi, hwait, hx⟩
  · rw [hx]
    exact h
  · rw [hx]
    refine indexed_set h ?_
    intro p ws ks heq
    cases heq
  · rw [hx]
    exact indexed_commit hex h hi
  · rw [hx]
    refine indexed_set h ?_
    intro p ws ks heq
    obtain ⟨rfl, rfl, rfl⟩ := Session.running.inj heq
    refine ⟨?_, ?_⟩
    · have hseen := hstep o c _ (h.seen i _ writes held hi)
      rw [← E.applyAll_append] at hseen
      exact hseen
    · exact Index.claimed_append (h.claimed i _ writes held hi) (D.locked o c _)

/-- A unique index that every statement keeps unique is unique in every committed state. -/
theorem run_unique (hstep : ∀ o c w, D.Unique w → D.Unique (E.applyAll w (E.eval o c w).2))
    {w : W} (hw : D.Unique w) (ps : List (Program S ε α)) (sched : List (Nat × Move C)) :
    D.Unique ((start w ps : System S ε α W X K).run E sched).committed := by
  have hrun := run_induct E (J := fun sys : System S ε α W X K => sys.Exclusive ∧ sys.Indexed D) ?_
    ⟨exclusive_start w ps, indexed_start hw ps⟩ sched
  · exact hrun.2.unique
  · intro sys i m h
    exact ⟨exclusive_step E h.1 i m, indexed_step hstep h.1 h.2 i m⟩

end System

end Foundations
end OrbitAuth
