import OrbitAuth.Foundations.Interleaving

/-!
# ReadCommitted — transactions over a committed state, statement by statement

A transaction is a program of statements.  Each statement reads the state that is committed at that
moment together with the transaction's own writes, and takes its locks in the same instant; it waits
while another transaction holds one of them.  Writes become visible and locks are released at the
end of the transaction, which may also be abandoned at any point.

* `Engine` — what statements answer, write and lock;
* `System.step` / `System.run` — sessions under a schedule of moves;
* `Partition` — an invariant of the committed state that is a conjunction over lock keys, each
  conjunct about the part of the state that key protects;
* `run_sound` — the proof rule: if every transaction by itself writes only parts whose key it holds
  and leaves these parts fine, the invariant holds in every committed state of every run;
* `run_verified` — the same with any promise a transaction makes about its end, as long as the
  others cannot break it.

A single transaction is verified with `Program.Safe`: its state is its `Local` view, and what it may
rely on is that nobody changes the parts whose keys it holds.
-/

namespace OrbitAuth
namespace Foundations

variable {S : Signature} {ε α β C W X K P : Type}

/-- The meaning of statements: answers and writes, the locks they take, and the effect of a
write. -/
structure Engine (S : Signature) (C W X K : Type) where
  eval : (o : S.Op) → C → W → S.Ans o × List X
  locks : (o : S.Op) → C → W → List K
  apply : W → X → W

/-- The state of one transaction: the committed state it sees, its writes and its locks. -/
structure Local (W X K : Type) where
  base : W
  writes : List X
  held : List K

inductive Session (S : Signature) (ε α X K : Type)
  | running (p : Program S ε α) (writes : List X) (held : List K)
  | committed (a : α)
  | aborted (e : Option ε)

/-- A transaction that has ended holds nothing. -/
def Session.held : Session S ε α X K → List K
  | .running _ _ held => held
  | _ => []

structure System (S : Signature) (ε α W X K : Type) where
  committed : W
  sessions : List (Session S ε α X K)

variable {ps : List (Program S ε α)} {sys : System S ε α W X K} {s : Session S ε α X K}
  {l : Local W X K} {w : W} {k : K} {i : Nat}

/-- The next action of a session: its next statement or its end, or the loss of its connection. -/
inductive Move (C : Type)
  | advance (c : C)
  | abort

namespace Engine

variable (E : Engine S C W X K)

def applyAll (w : W) (xs : List X) : W :=
  xs.foldl E.apply w

@[simp] theorem applyAll_nil (w : W) : E.applyAll w [] = w := rfl

@[simp] theorem applyAll_cons (w : W) (x : X) (xs : List X) :
    E.applyAll w (x :: xs) = E.applyAll (E.apply w x) xs := rfl

theorem applyAll_append (w : W) (xs ys : List X) :
    E.applyAll w (xs ++ ys) = E.applyAll (E.applyAll w xs) ys :=
  List.foldl_append

/-- What a transaction reads. -/
def view (l : Local W X K) : W :=
  E.applyAll l.base l.writes

/-- One statement of a transaction that need not wait. -/
def statement (o : S.Op) (c : C) (l : Local W X K) : S.Ans o × Local W X K :=
  ((E.eval o c (E.view l)).1,
    { base := l.base
      writes := l.writes ++ (E.eval o c (E.view l)).2
      held := l.held ++ E.locks o c (E.view l) })

@[simp] theorem statement_view (o : S.Op) (c : C) (l : Local W X K) :
    E.view (E.statement o c l).2 = E.applyAll (E.view l) (E.eval o c (E.view l)).2 :=
  E.applyAll_append _ _ _

end Engine

namespace System

variable [DecidableEq K]

/-- All transactions at their beginning. -/
def start (w : W) (ps : List (Program S ε α)) : System S ε α W X K :=
  ⟨w, ps.map fun p => .running p [] []⟩

/-- Another session holds one of the locks. -/
def mustWait (sys : System S ε α W X K) (i : Nat) (ks : List K) : Bool :=
  (List.range sys.sessions.length).any fun j =>
    j ≠ i && match sys.sessions[j]? with
      | some s => s.held.any fun k => k ∈ ks
      | none => false

def set (sys : System S ε α W X K) (i : Nat) (s : Session S ε α X K) : System S ε α W X K :=
  { sys with sessions := sys.sessions.set i s }

/-- A session that must wait stays where it is. -/
def advance (E : Engine S C W X K) (sys : System S ε α W X K) (i : Nat) (c : C) :
    Program S ε α → List X → List K → System S ε α W X K
  | .done a, writes, _ =>
      { committed := E.applyAll sys.committed writes
        sessions := sys.sessions.set i (.committed a) }
  | .fail e, _, _ => sys.set i (.aborted (some e))
  | .call o k, writes, held =>
      let l : Local W X K := ⟨sys.committed, writes, held⟩
      if sys.mustWait i (E.locks o c (E.view l)) then sys
      else
        let r := E.statement o c l
        sys.set i (.running (k r.1) r.2.writes r.2.held)

def step (E : Engine S C W X K) (sys : System S ε α W X K) (i : Nat) (m : Move C) :
    System S ε α W X K :=
  match sys.sessions[i]?, m with
  | some (.running p writes held), .advance c => sys.advance E i c p writes held
  | some (.running _ _ _), .abort => sys.set i (.aborted none)
  | _, _ => sys

def run (E : Engine S C W X K) (sys : System S ε α W X K) (sched : List (Nat × Move C)) :
    System S ε α W X K :=
  sched.foldl (fun s t => s.step E t.1 t.2) sys

theorem not_mustWait {ks : List K} (h : sys.mustWait i ks = false) {j : Nat} (hj : j ≠ i)
    (hs : sys.sessions[j]? = some s) (hk : k ∈ s.held) : k ∉ ks := by
  intro hmem
  have hlt : j < sys.sessions.length := (List.getElem?_eq_some_iff.1 hs).1
  have hfalse := List.any_eq_false.1 h j (List.mem_range.2 hlt)
  have hany : (s.held.any fun k => decide (k ∈ ks)) = true :=
    List.any_eq_true.2 ⟨k, hk, by simpa using hmem⟩
  simp [hj, hs, hany] at hfalse

/-- What a move can do. -/
theorem step_cases (E : Engine S C W X K) (sys : System S ε α W X K) (i : Nat) (m : Move C) :
    sys.step E i m = sys ∨
    (∃ e, sys.step E i m = sys.set i (.aborted e)) ∨
    (∃ a writes held, sys.sessions[i]? = some (.running (.done a) writes held) ∧
      sys.step E i m = { committed := E.applyAll sys.committed writes
                         sessions := sys.sessions.set i (.committed a) }) ∨
    ∃ o k writes held c, sys.sessions[i]? = some (.running (.call o k) writes held) ∧
      sys.mustWait i (E.locks o c (E.view ⟨sys.committed, writes, held⟩)) = false ∧
      sys.step E i m = sys.set i
        (.running (k (E.statement o c ⟨sys.committed, writes, held⟩).1)
          (E.statement o c ⟨sys.committed, writes, held⟩).2.writes
          (E.statement o c ⟨sys.committed, writes, held⟩).2.held) := by
  unfold step
  cases hs : sys.sessions[i]? with
  | none => exact .inl rfl
  | some s =>
      cases s with
      | committed a => exact .inl rfl
      | aborted e => exact .inl rfl
      | running p writes held =>
          cases m with
          | abort => exact .inr (.inl ⟨none, rfl⟩)
          | advance c =>
              cases p with
              | done a => exact .inr (.inr (.inl ⟨a, writes, held, rfl, rfl⟩))
              | fail e => exact .inr (.inl ⟨some e, rfl⟩)
              | call o k =>
                  -- a statement whose locks are taken leaves the system as it is
                  by_cases hw : sys.mustWait i
                      (E.locks o c (E.view ⟨sys.committed, writes, held⟩)) = true
                  · exact .inl (by simp [advance, hw])
                  · refine .inr
                      (.inr (.inr ⟨o, k, writes, held, c, rfl, by simpa using hw, ?_⟩))
                    simp [advance, hw]

end System

/-! ## Partitioned invariants -/

/-- `part k w` is what key `k` protects.  A write changes it by what it was, and `fine k` is the
requirement on it. -/
structure Partition (E : Engine S C W X K) (P : Type) where
  part : K → W → P
  fine : K → P → Prop
  congr : ∀ k w w' x, part k w = part k w' → part k (E.apply w x) = part k (E.apply w' x)

namespace Partition

variable {E : Engine S C W X K} (Q : Partition E P)

def Inv (w : W) : Prop :=
  ∀ k, Q.fine k (Q.part k w)

/-- The writes change no part whose key is not among `ks`. -/
def Covered (xs : List X) (ks : List K) : Prop :=
  ∀ x ∈ xs, ∀ k, k ∉ ks → ∀ w, Q.part k (E.apply w x) = Q.part k w

/-- What a transaction may assume of itself before each statement. -/
def Ok (l : Local W X K) : Prop :=
  Q.Inv l.base ∧ Q.Covered l.writes l.held

/-- What the others leave alone. -/
structure Rely (l l' : Local W X K) : Prop where
  writes : l'.writes = l.writes
  held : l'.held = l.held
  part : ∀ k ∈ l.held, Q.part k l'.base = Q.part k l.base

/-- The parts a transaction holds are fine as it sees them. -/
def Ready (l : Local W X K) : Prop :=
  ∀ k ∈ l.held, Q.fine k (Q.part k (E.view l))

/-- A transaction verified by itself. -/
abbrev Keeps (p : Program S ε α) (post : α → Local W X K → Prop) (l : Local W X K) : Prop :=
  p.Safe E.statement Q.Ok (fun _ => Q.Rely) (fun _ _ _ _ => True) post l

variable {Q}

theorem covered_nil (ks : List K) : Q.Covered [] ks := by
  intro x hx
  cases hx

theorem covered_append {xs ys : List X} {ks : List K} (hx : Q.Covered xs ks)
    (hy : Q.Covered ys ks) : Q.Covered (xs ++ ys) ks := by
  intro x h
  rcases List.mem_append.1 h with h | h
  · exact hx x h
  · exact hy x h

theorem covered_mono {xs : List X} {ks ks' : List K} (h : ∀ k ∈ ks, k ∈ ks')
    (hx : Q.Covered xs ks) : Q.Covered xs ks' :=
  fun x hmem k hk w => hx x hmem k (fun hin => hk (h k hin)) w

theorem part_applyAll {xs : List X} {ks : List K} (h : Q.Covered xs ks) (hk : k ∉ ks) (w : W) :
    Q.part k (E.applyAll w xs) = Q.part k w := by
  induction xs generalizing w with
  | nil => rfl
  | cons x xs ih =>
      have hrest : Q.Covered xs ks := fun y hy => h y (List.mem_cons_of_mem _ hy)
      calc
        Q.part k (E.applyAll w (x :: xs)) = Q.part k (E.apply w x) := ih hrest _
        _ = Q.part k w := h x (by simp) k hk w

theorem part_congr {w w' : W} (h : Q.part k w = Q.part k w') (xs : List X) :
    Q.part k (E.applyAll w xs) = Q.part k (E.applyAll w' xs) := by
  induction xs generalizing w w' with
  | nil => exact h
  | cons x xs ih => exact ih (Q.congr k w w' x h)

theorem rely_refl (l : Local W X K) : Q.Rely l l :=
  ⟨rfl, rfl, fun _ _ => rfl⟩

theorem rely_trans {l₁ l₂ l₃ : Local W X K} (h₁ : Q.Rely l₁ l₂) (h₂ : Q.Rely l₂ l₃) :
    Q.Rely l₁ l₃ := by
  refine ⟨h₂.writes.trans h₁.writes, h₂.held.trans h₁.held, ?_⟩
  intro k hk
  have hk' : k ∈ l₂.held := by
    rw [h₁.held]
    exact hk
  exact (h₂.part k hk').trans (h₁.part k hk)

/-- A transaction keeps seeing the parts it holds. -/
theorem part_view {l l' : Local W X K} (h : Q.Rely l l') (hk : k ∈ l.held) :
    Q.part k (E.view l') = Q.part k (E.view l) := by
  unfold Engine.view
  rw [h.writes]
  exact part_congr (h.part k hk) _

theorem ready_rely {l l' : Local W X K} (h : Q.Rely l l') (hready : Q.Ready l) : Q.Ready l' := by
  intro k hk
  rw [h.held] at hk
  rw [part_view h hk]
  exact hready k hk

/-- The whole of what a transaction sees meets the invariant. -/
theorem inv_view (hok : Q.Ok l) (hready : Q.Ready l) : Q.Inv (E.view l) := by
  intro k
  by_cases hk : k ∈ l.held
  · exact hready k hk
  · have hsame : Q.part k (E.view l) = Q.part k l.base := part_applyAll hok.2 hk l.base
    rw [hsame]
    exact hok.1 k

theorem ready_of_inv (h : Q.Inv (E.view l)) : Q.Ready l :=
  fun k _ => h k

/-- A statement that covers its writes. -/
theorem ok_statement {o : S.Op} {c : C} (hok : Q.Ok l)
    (hcov : Q.Covered (E.eval o c (E.view l)).2 (l.held ++ E.locks o c (E.view l))) :
    Q.Ok (E.statement o c l).2 := by
  refine ⟨hok.1, covered_append ?_ hcov⟩
  exact covered_mono (fun k hk => List.mem_append_left _ hk) hok.2

variable (Q) in
/-- A promise that the others cannot break. -/
def Stable (post : α → Local W X K → Prop) : Prop :=
  ∀ a l l', Q.Rely l l' → post a l → post a l'

theorem stable_ready : Q.Stable fun (_ : α) l => Q.Ready l :=
  fun _ _ _ h => ready_rely h

/-- A waiting transaction stays verified while the others keep to its rely. -/
theorem keeps_rely {post : α → Local W X K → Prop} (hpost : Q.Stable post) {p : Program S ε α}
    {l l' : Local W X K} (hp : Q.Keeps p post l) (h : Q.Rely l l') : Q.Keeps p post l' := by
  cases p with
  | done a =>
      cases hp with
      | done ha => exact .done (hpost a l l' h ha)
  | fail e => exact .fail
  | call o k =>
      refine Program.safe_of_rely ?_ hp h
      intro _ l₁ l₂ l₃
      exact rely_trans

variable (Q) in
/-- Every statement locks what it writes. -/
def Owned : Prop :=
  ∀ o c w, Q.Covered (E.eval o c w).2 (E.locks o c w)

theorem ok_owned (hown : Q.Owned) {o : S.Op} {c : C} (hok : Q.Ok l) : Q.Ok (E.statement o c l).2 :=
  ok_statement hok (covered_mono (fun _ hk => List.mem_append_right _ hk) (hown o c _))

end Partition

/-! ## Runs -/

namespace System

/-- The locks of different sessions exclude each other. -/
def Exclusive (sys : System S ε α W X K) : Prop :=
  ∀ (i j : Nat) s t, i ≠ j → sys.sessions[i]? = some s → sys.sessions[j]? = some t →
    ∀ k ∈ s.held, k ∉ t.held

theorem getElem?_set_cases {l : List (Session S ε α X K)} {i j : Nat} {s t : Session S ε α X K}
    (h : (l.set i s)[j]? = some t) : (j = i ∧ t = s) ∨ (j ≠ i ∧ l[j]? = some t) := by
  rw [List.getElem?_set] at h
  split at h
  · rename_i hij
    split at h
    · exact .inl ⟨hij.symm, (Option.some.inj h).symm⟩
    · cases h
  · rename_i hij
    exact .inr ⟨fun hji => hij hji.symm, h⟩

theorem start_session (h : (start w ps : System S ε α W X K).sessions[i]? = some s) :
    ∃ p, ps[i]? = some p ∧ s = .running p [] [] := by
  have hmap : (ps.map fun p => Session.running p [] [])[i]? = some s := h
  rw [List.getElem?_map, Option.map_eq_some_iff] at hmap
  obtain ⟨p, hp, rfl⟩ := hmap
  exact ⟨p, hp, rfl⟩

theorem exclusive_start (w : W) (ps : List (Program S ε α)) :
    (start w ps : System S ε α W X K).Exclusive := by
  intro i j s t _ hi _ k hk
  obtain ⟨p, _, rfl⟩ := start_session hi
  cases hk

/-- One session changes and takes no lock of the others. -/
theorem exclusive_set (h : sys.Exclusive)
    (hfree : ∀ j t, j ≠ i → sys.sessions[j]? = some t → ∀ k ∈ t.held, k ∉ s.held) :
    (⟨w, sys.sessions.set i s⟩ : System S ε α W X K).Exclusive := by
  intro j₁ j₂ t₁ t₂ hne h₁ h₂ k hk₁ hk₂
  rcases getElem?_set_cases h₁ with ⟨rfl, rfl⟩ | ⟨hne₁, hold₁⟩
  · rcases getElem?_set_cases h₂ with ⟨rfl, _⟩ | ⟨hne₂, hold₂⟩
    · exact hne rfl
    · exact hfree j₂ t₂ hne₂ hold₂ k hk₂ hk₁
  · rcases getElem?_set_cases h₂ with ⟨rfl, rfl⟩ | ⟨_, hold₂⟩
    · exact hfree j₁ t₁ hne₁ hold₁ k hk₁ hk₂
    · exact h j₁ j₂ t₁ t₂ hne hold₁ hold₂ k hk₁ hk₂

theorem exclusive_step [DecidableEq K] (E : Engine S C W X K) (h : sys.Exclusive) (i : Nat)
    (m : Move C) : (sys.step E i m).Exclusive := by
  rcases step_cases E sys i m with hx | ⟨e, hx⟩ | ⟨a, writes, held, hi, hx⟩ |
    ⟨o, k, writes, held, c, hi, hwait, hx⟩
  · rw [hx]
    exact h
  · rw [hx]
    exact exclusive_set h fun j t _ _ k _ hk => by cases hk
  · rw [hx]
    exact exclusive_set h fun j t _ _ k _ hk => by cases hk
  · rw [hx]
    refine exclusive_set h fun j t hj ht key hkey hmem => ?_
    rcases List.mem_append.1 hmem with hold | hnew
    · exact h j i t _ hj ht hi key hkey hold
    · exact not_mustWait hwait hj ht hkey hnew

variable {E : Engine S C W X K} (Q : Partition E P) (post : Nat → α → Local W X K → Prop)

/-- Running transactions are verified from here on. -/
structure Sound (sys : System S ε α W X K) : Prop where
  inv : Q.Inv sys.committed
  covered : ∀ (i : Nat) p writes held, sys.sessions[i]? = some (.running p writes held) →
    Q.Covered writes held
  keeps : ∀ (i : Nat) p writes held, sys.sessions[i]? = some (.running p writes held) →
    Q.Keeps p (post i) ⟨sys.committed, writes, held⟩

variable {Q} {post}

/-- What a transaction that commits has promised. -/
theorem sound_done (h : sys.Sound Q post) {a : α} {writes : List X} {held : List K}
    (hi : sys.sessions[i]? = some (.running (.done a) writes held)) :
    Q.Covered writes held ∧ post i a ⟨sys.committed, writes, held⟩ := by
  refine ⟨h.covered i _ writes held hi, ?_⟩
  cases h.keeps i _ writes held hi with
  | done hpost => exact hpost

theorem sound_start (hw : Q.Inv w)
    (hps : ∀ (i : Nat) p, ps[i]? = some p → Q.Keeps p (post i) ⟨w, [], []⟩) :
    (start w ps : System S ε α W X K).Sound Q post := by
  refine ⟨hw, ?_, ?_⟩
  · intro i p writes held hi
    obtain ⟨q, _, heq⟩ := start_session hi
    obtain ⟨rfl, rfl, rfl⟩ := Session.running.inj heq
    exact Partition.covered_nil _
  · intro i p writes held hi
    obtain ⟨q, hq, heq⟩ := start_session hi
    obtain ⟨rfl, rfl, rfl⟩ := Session.running.inj heq
    exact hps i p hq

/-! ### Transactions that wait for their moment  A transaction that has done nothing but read can
stand at a statement that is right only in some states.  `waits` says where, and `upTo_step` asks of
each step that it leaves the waiting ones there. -/

/-- As `Sound`, but of a transaction that has written and locked nothing only `waits` may be known.
-/
structure SoundUpTo (Q : Partition E P) (post : Nat → α → Local W X K → Prop)
    (waits : Nat → Program S ε α → W → Prop) (sys : System S ε α W X K) : Prop where
  inv : Q.Inv sys.committed
  covered : ∀ (i : Nat) p writes held, sys.sessions[i]? = some (.running p writes held) →
    Q.Covered writes held
  keeps : ∀ (i : Nat) p writes held, sys.sessions[i]? = some (.running p writes held) →
    Q.Keeps p (post i) ⟨sys.committed, writes, held⟩ ∨
      writes = [] ∧ held = [] ∧ waits i p sys.committed

theorem sound_iff : sys.Sound Q post ↔ sys.SoundUpTo Q post fun _ _ _ => False := by
  constructor
  · intro h
    exact ⟨h.inv, h.covered, fun i p writes held hi => .inl (h.keeps i p writes held hi)⟩
  · intro h
    refine ⟨h.inv, h.covered, fun i p writes held hi => ?_⟩
    rcases h.keeps i p writes held hi with hkeeps | ⟨_, _, hfalse⟩
    · exact hkeeps
    · exact hfalse.elim

variable {waits : Nat → Program S ε α → W → Prop}

/-- Replacing one session by one that is verified. -/
theorem upTo_set (h : sys.SoundUpTo Q post waits)
    (hs : ∀ p writes held, s = .running p writes held →
      Q.Covered writes held ∧ (Q.Keeps p (post i) ⟨sys.committed, writes, held⟩ ∨
        writes = [] ∧ held = [] ∧ waits i p sys.committed)) :
    (sys.set i s).SoundUpTo Q post waits := by
  refine ⟨h.inv, ?_, ?_⟩
  · intro j p writes held hj
    rcases getElem?_set_cases hj with ⟨_, heq⟩ | ⟨_, hold⟩
    · exact (hs p writes held heq.symm).1
    · exact h.covered j p writes held hold
  · intro j p writes held hj
    rcases getElem?_set_cases hj with ⟨rfl, heq⟩ | ⟨_, hold⟩
    · exact (hs p writes held heq.symm).2
    · exact h.keeps j p writes held hold

/-- A commit: the invariant holds again, and the parts the others hold have not changed. -/
theorem upTo_commit (hready : ∀ i a l, post i a l → Q.Ready l) (hstable : ∀ i, Q.Stable (post i))
    (hex : sys.Exclusive) (h : sys.SoundUpTo Q post waits) {a : α} {writes : List X}
    {held : List K} (hi : sys.sessions[i]? = some (.running (.done a) writes held))
    (hstay : ∀ j p, j ≠ i → sys.sessions[j]? = some (.running p [] []) → waits j p sys.committed →
      waits j p (E.applyAll sys.committed writes)) :
    ({ committed := E.applyAll sys.committed writes
       sessions := sys.sessions.set i (.committed a) } : System S ε α W X K).SoundUpTo Q
         post waits := by
  have hcov : Q.Covered writes held := h.covered i _ writes held hi
  have hinv : Q.Inv (E.applyAll sys.committed writes) := by
    rcases h.keeps i _ writes held hi with hkeeps | ⟨rfl, _, _⟩
    · cases hkeeps with
      | done hpost => exact Partition.inv_view ⟨h.inv, hcov⟩ (hready i a _ hpost)
    · exact h.inv
  -- the locks of another session are not ours, so our writes miss what they protect
  have hrely : ∀ j p ws ks, j ≠ i → sys.sessions[j]? = some (.running p ws ks) →
      Q.Rely ⟨sys.committed, ws, ks⟩ ⟨E.applyAll sys.committed writes, ws, ks⟩ := by
    intro j p ws ks hj hs
    refine ⟨rfl, rfl, ?_⟩
    intro k hk
    exact Partition.part_applyAll hcov (hex j i _ _ hj hs hi k hk) _
  refine ⟨hinv, ?_, ?_⟩
  · intro j p ws ks hj
    rcases getElem?_set_cases hj with ⟨_, heq⟩ | ⟨_, hold⟩
    · cases heq
    · exact h.covered j p ws ks hold
  · intro j p ws ks hj
    rcases getElem?_set_cases hj with ⟨_, heq⟩ | ⟨hne, hold⟩
    · cases heq
    · rcases h.keeps j p ws ks hold with hkeeps | ⟨rfl, rfl, hwaits⟩
      · exact .inl (Partition.keeps_rely (hstable j) hkeeps (hrely j p ws ks hne hold))
      · exact .inr ⟨rfl, rfl, hstay j p hne hold hwaits⟩

variable [DecidableEq K]

/-- One step, if it leaves those that wait where they can wait and a waiting transaction that goes
on is verified from then on or waits again. -/
theorem upTo_step (hready : ∀ i a l, post i a l → Q.Ready l) (hstable : ∀ i, Q.Stable (post i))
    (hex : sys.Exclusive) (h : sys.SoundUpTo Q post waits) (i : Nat) (m : Move C)
    (hstay : ∀ j p, j ≠ i → sys.sessions[j]? = some (.running p [] []) → waits j p sys.committed →
      (sys.step E i m).sessions[j]? = some (.running p [] []) →
      waits j p (sys.step E i m).committed)
    (hnext : ∀ o k c, sys.sessions[i]? = some (.running (.call o k) [] []) →
      waits i (.call o k) sys.committed →
      sys.step E i m = sys.set i (.running (k (E.statement o c ⟨sys.committed, [], []⟩).1)
        (E.statement o c ⟨sys.committed, [], []⟩).2.writes
        (E.statement o c ⟨sys.committed, [], []⟩).2.held) →
      Q.Covered (E.statement o c ⟨sys.committed, [], []⟩).2.writes
          (E.statement o c ⟨sys.committed, [], []⟩).2.held ∧
        (Q.Keeps (k (E.statement o c ⟨sys.committed, [], []⟩).1) (post i)
            (E.statement o c ⟨sys.committed, [], []⟩).2 ∨
          (E.statement o c ⟨sys.committed, [], []⟩).2.writes = [] ∧
            (E.statement o c ⟨sys.committed, [], []⟩).2.held = [] ∧
            waits i (k (E.statement o c ⟨sys.committed, [], []⟩).1) sys.committed)) :
    (sys.step E i m).SoundUpTo Q post waits := by
  -- nothing happens, the session aborts, it commits, or it executes a statement
  rcases step_cases E sys i m with hx | ⟨e, hx⟩ | ⟨a, writes, held, hi, hx⟩ |
    ⟨o, k, writes, held, c, hi, hwait, hx⟩
  · rw [hx]
    exact h
  · rw [hx]
    refine upTo_set h ?_
    intro p ws ks heq
    cases heq
  · rw [hx] at hstay ⊢
    refine upTo_commit hready hstable hex h hi ?_
    intro j p hne hj hwaits
    refine hstay j p hne hj hwaits ?_
    show (sys.sessions.set i _)[j]? = _
    rw [List.getElem?_set_ne (Ne.symm hne)]
    exact hj
  -- a session that keeps the invariant goes on doing so; one that only waits is the caller's case
  · rcases h.keeps i _ writes held hi with hkeeps | ⟨rfl, rfl, hwaits⟩
    · rw [hx]
      have hok : Q.Ok ⟨sys.committed, writes, held⟩ := ⟨h.inv, h.covered i _ writes held hi⟩
      have hstep := Program.safe_call hkeeps hok (Partition.rely_refl _) c
      refine upTo_set h ?_
      intro p ws ks heq
      obtain ⟨rfl, rfl, rfl⟩ := Session.running.inj heq
      exact ⟨hstep.1.2, .inl hstep.2.2⟩
    · rw [hx]
      refine upTo_set h ?_
      intro p ws ks heq
      obtain ⟨rfl, rfl, rfl⟩ := Session.running.inj heq
      exact hnext o k c hi hwaits hx

theorem sound_step (hready : ∀ i a l, post i a l → Q.Ready l) (hstable : ∀ i, Q.Stable (post i))
    (hex : sys.Exclusive) (h : sys.Sound Q post) (i : Nat) (m : Move C) :
    (sys.step E i m).Sound Q post := by
  refine sound_iff.mpr (upTo_step hready hstable hex (sound_iff.mp h) i m ?_ ?_)
  · intro j p _ _ hfalse
    exact hfalse.elim
  · intro o k c _ hfalse
    exact hfalse.elim

theorem run_append (E : Engine S C W X K) (sys : System S ε α W X K)
    (sched more : List (Nat × Move C)) : sys.run E (sched ++ more) = (sys.run E sched).run E more :=
  List.foldl_append

/-- What every step keeps holds after every run. -/
theorem run_induct (E : Engine S C W X K) {J : System S ε α W X K → Prop}
    (hstep : ∀ sys i m, J sys → J (sys.step E i m)) (hsys : J sys) (sched : List (Nat × Move C)) :
    J (sys.run E sched) := by
  induction sched generalizing sys with
  | nil => exact hsys
  | cons t rest ih => exact ih (hstep sys t.1 t.2 hsys)

/-- Transactions that are verified one by one stay so together. -/
theorem run_verified (hready : ∀ i a l, post i a l → Q.Ready l) (hstable : ∀ i, Q.Stable (post i))
    (hw : Q.Inv w) (hps : ∀ (i : Nat) p, ps[i]? = some p → Q.Keeps p (post i) ⟨w, [], []⟩)
    (sched : List (Nat × Move C)) :
    ((start w ps : System S ε α W X K).run E sched).Exclusive ∧
      ((start w ps : System S ε α W X K).run E sched).Sound Q post := by
  refine run_induct E (J := fun sys => sys.Exclusive ∧ sys.Sound Q post) ?_
    ⟨exclusive_start w ps, sound_start hw hps⟩ sched
  intro sys i m h
  exact ⟨exclusive_step E h.1 i m, sound_step hready hstable h.1 h.2 i m⟩

/-- The rule for runs: transactions that are verified one by one keep the invariant together. -/
theorem run_sound (hw : Q.Inv w) (hps : ∀ p ∈ ps, Q.Keeps p (fun _ l => Q.Ready l) ⟨w, [], []⟩)
    (sched : List (Nat × Move C)) :
    Q.Inv ((start w ps : System S ε α W X K).run E sched).committed := by
  have hrun : _ ∧ ((start w ps : System S ε α W X K).run E sched).Sound Q fun _ _ l => Q.Ready l :=
    run_verified (fun _ _ _ h => h) (fun _ => Partition.stable_ready) hw
      (fun i p hp => hps p (List.mem_of_getElem? hp)) sched
  exact hrun.2.inv

end System

end Foundations
end OrbitAuth
