import Mathlib.Data.List.Nodup
import Mathlib.Logic.Function.Basic

/-!
# Quota — a counter that is read, compared with a limit and incremented later

Each participant reads a counter, decides in private whether it is still below the limit, may then
miss, and afterwards increments the counter for its miss.  Reading and counting are two steps, so
participants that overlap can miss more often than the limit allows.  If nobody reads while another
participant is between its reading and the end of its turn, the limit holds.

* `Quota` — the counter, which may disappear for good, and where each participant is;
* `Quota.Step` — what can happen, with reading restricted as above;
* `Quota.Inv` — the invariant: every miss is counted except the one that is about to be;
* `Quota.inv_step` — one step keeps it.
-/

namespace OrbitAuth
namespace Foundations

/-- Where a participant is.  `counting` has missed and not yet counted it. -/
inductive Turn
  | idle
  | looked (n : Nat)
  | counting
  | counted
  | passed
  deriving DecidableEq

namespace Turn

/-- Between the reading and the end of the turn. -/
def busy : Turn → Bool
  | .looked _ | .counting => true
  | _ => false

def missed : Turn → Bool
  | .counting | .counted => true
  | _ => false

end Turn

structure Quota where
  counter : Option Nat
  turn : Nat → Turn

namespace Quota

def set (q : Quota) (i : Nat) (t : Turn) : Quota :=
  { q with turn := Function.update q.turn i t }

/-- What can happen.  Others may increment the counter or remove it. -/
inductive Step (limit : Nat) (q : Quota) : Quota → Prop
  | drift (counter : Option Nat) (h : ∀ n', counter = some n' → ∃ n, q.counter = some n ∧ n ≤ n') :
      Step limit q { q with counter := counter }
  | read (i n : Nat) (hi : q.turn i = .idle) (hn : q.counter = some n)
      (halone : ∀ j, (q.turn j).busy = false) : Step limit q (q.set i (.looked n))
  | pass (i : Nat) (hi : q.turn i = .idle ∨ ∃ n, q.turn i = .looked n) :
      Step limit q (q.set i .passed)
  | miss (i n : Nat) (hi : q.turn i = .looked n) (hn : n < limit) : Step limit q (q.set i .counting)
  | count (i : Nat) (hi : q.turn i = .counting) :
      Step limit q { q.set i .counted with counter := q.counter.map (· + 1) }

/-- At most `n` participants have missed. -/
def Bound (q : Quota) (n : Nat) : Prop :=
  ∀ is : List Nat, is.Nodup → (∀ i ∈ is, (q.turn i).missed = true) → is.length ≤ n

section Bound

variable {q q' : Quota} {i m n : Nat} {t : Turn}

theorem bound_mono (h : m ≤ n) (hq : q.Bound m) : q.Bound n :=
  fun is hnodup his => Nat.le_trans (hq is hnodup his) h

theorem bound_of_missed (h : ∀ j, (q'.turn j).missed = true → (q.turn j).missed = true)
    (hq : q.Bound n) : q'.Bound n :=
  fun is hnodup his => hq is hnodup fun j hj => h j (his j hj)

/-- One more participant misses. -/
theorem bound_succ (h : ∀ j, j ≠ i → (q'.turn j).missed = true → (q.turn j).missed = true)
    (hq : q.Bound n) : q'.Bound (n + 1) := by
  intro is hnodup his
  have hrest : (is.erase i).length ≤ n := by
    refine hq _ (hnodup.erase i) fun j hj => ?_
    obtain ⟨hne, hmem⟩ := (hnodup.mem_erase_iff).mp hj
    exact h j hne (his j hmem)
  have hlength : is.length ≤ (is.erase i).length + 1 := by
    rw [List.length_erase]
    split <;> omega
  omega

theorem turn_self : (q.set i t).turn i = t := by
  simp only [set, Function.update_self]

theorem turn_other {j : Nat} (h : j ≠ i) : (q.set i t).turn j = q.turn j := by
  simp only [set, Function.update_of_ne h]

theorem missed_set (h : t.missed = true → (q.turn i).missed = true) (j : Nat)
    (hj : ((q.set i t).turn j).missed = true) : (q.turn j).missed = true := by
  by_cases hji : j = i
  · subst hji
    rw [turn_self] at hj
    exact h hj
  · rw [turn_other hji] at hj
    exact hj

theorem busy_set (h : t.busy = true → (q.turn i).busy = true) (j : Nat)
    (hj : ((q.set i t).turn j).busy = true) : (q.turn j).busy = true := by
  by_cases hji : j = i
  · subst hji
    rw [turn_self] at hj
    exact h hj
  · rw [turn_other hji] at hj
    exact hj

end Bound

/-- Every miss is counted, except that of the participant about to count it. -/
structure Inv (limit : Nat) (q : Quota) : Prop where
  limited : q.Bound limit
  alone : ∀ i j, (q.turn i).busy = true → (q.turn j).busy = true → i = j
  settled : ∀ n, q.counter = some n → (∀ i, q.turn i ≠ .counting) → q.Bound n
  unsettled : ∀ n, q.counter = some n → q.Bound (n + 1)
  read : ∀ i n, q.turn i = .looked n → q.Bound n

section Inv

variable {limit : Nat} {q q' : Quota}

theorem inv_drift (h : q.Inv limit) {counter : Option Nat}
    (hc : ∀ n', counter = some n' → ∃ n, q.counter = some n ∧ n ≤ n') :
    Inv limit { q with counter := counter } := by
  refine ⟨h.limited, h.alone, ?_, ?_, h.read⟩
  · intro n' hn' hnobody
    obtain ⟨n, hn, hle⟩ := hc n' hn'
    exact bound_mono hle (h.settled n hn hnobody)
  · intro n' hn'
    obtain ⟨n, hn, hle⟩ := hc n' hn'
    exact bound_mono (Nat.succ_le_succ hle) (h.unsettled n hn)

theorem inv_read (h : q.Inv limit) {i n : Nat} (hn : q.counter = some n)
    (halone : ∀ j, (q.turn j).busy = false) : (q.set i (.looked n)).Inv limit := by
  have hsame : ∀ {m}, q.Bound m → (q.set i (.looked n)).Bound m :=
    fun hm => bound_of_missed (missed_set fun hmiss => by cases hmiss) hm
  -- nobody else is busy, so the reader is the only one afterwards
  have hself : ∀ j, ((q.set i (.looked n)).turn j).busy = true → j = i := by
    intro j hj
    by_contra hji
    rw [turn_other hji, halone j] at hj
    cases hj
  have hnobody : ∀ j, q.turn j ≠ .counting := by
    intro j hj
    have hbusy := halone j
    rw [hj] at hbusy
    cases hbusy
  refine ⟨hsame h.limited, ?_, ?_, ?_, ?_⟩
  · intro j k hj hk
    exact (hself j hj).trans (hself k hk).symm
  · intro m hm _
    exact hsame (h.settled m hm hnobody)
  · intro m hm
    exact hsame (h.unsettled m hm)
  · intro j m hj
    obtain rfl : j = i := hself j (by rw [hj]; rfl)
    rw [turn_self] at hj
    cases hj
    exact hsame (h.settled n hn hnobody)

theorem inv_pass (h : q.Inv limit) {i : Nat} (hi : q.turn i = .idle ∨ ∃ n, q.turn i = .looked n) :
    (q.set i .passed).Inv limit := by
  have hsame : ∀ {m}, q.Bound m → (q.set i .passed).Bound m :=
    fun hm => bound_of_missed (missed_set fun hmiss => by cases hmiss) hm
  have hbusy := busy_set (q := q) (i := i) (t := .passed) fun hbusy => by cases hbusy
  refine ⟨hsame h.limited, fun j k hj hk => h.alone j k (hbusy j hj) (hbusy k hk), ?_, ?_, ?_⟩
  -- a turn that passes was not counting
  · intro m hm hnobody
    refine hsame (h.settled m hm fun j hj => ?_)
    by_cases hji : j = i
    · subst hji
      rcases hi with hi | ⟨n, hi⟩
      · rw [hi] at hj
        cases hj
      · rw [hi] at hj
        cases hj
    · exact hnobody j ((turn_other hji).trans hj)
  · intro m hm
    exact hsame (h.unsettled m hm)
  · intro j m hj
    have hji : j ≠ i := by
      rintro rfl
      rw [turn_self] at hj
      cases hj
    rw [turn_other hji] at hj
    exact hsame (h.read j m hj)

theorem inv_miss (h : q.Inv limit) {i n : Nat} (hi : q.turn i = .looked n) (hn : n < limit) :
    (q.set i .counting).Inv limit := by
  have hibusy : (q.turn i).busy = true := by rw [hi]; rfl
  have hmore : ∀ {m}, q.Bound m → (q.set i .counting).Bound (m + 1) := by
    refine fun hm => bound_succ (i := i) (fun j hji hj => ?_) hm
    rw [turn_other hji] at hj
    exact hj
  have hbusy := busy_set (q := q) (i := i) (t := .counting) fun _ => hibusy
  -- the one participant in the section is the one that misses now
  have hnobody : ∀ j, q.turn j ≠ .counting := by
    intro j hj
    have hji : j = i := h.alone j i (by rw [hj]; rfl) hibusy
    rw [hji, hi] at hj
    cases hj
  refine ⟨bound_mono hn (hmore (h.read i n hi)),
    fun j k hj hk => h.alone j k (hbusy j hj) (hbusy k hk), ?_, ?_, ?_⟩
  · intro m _ hnone
    exact absurd turn_self (hnone i)
  · intro m hm
    exact hmore (h.settled m hm hnobody)
  · intro j m hj
    have hji : j ≠ i := by
      rintro rfl
      rw [turn_self] at hj
      cases hj
    rw [turn_other hji] at hj
    exact absurd (h.alone j i (by rw [hj]; rfl) hibusy) hji

theorem inv_count (h : q.Inv limit) {i : Nat} (hi : q.turn i = .counting) :
    Inv limit { q.set i .counted with counter := q.counter.map (· + 1) } := by
  have hibusy : (q.turn i).busy = true := by rw [hi]; rfl
  have hsame : ∀ {m}, q.Bound m →
      Bound { q.set i .counted with counter := q.counter.map (· + 1) } m :=
    fun hm => bound_of_missed (missed_set fun _ => by rw [hi]; rfl) hm
  have hbusy := busy_set (q := q) (i := i) (t := .counted) fun hbusy => by cases hbusy
  refine ⟨hsame h.limited, fun j k hj hk => h.alone j k (hbusy j hj) (hbusy k hk), ?_, ?_, ?_⟩
  · intro m hm _
    obtain ⟨n, hn, rfl⟩ := Option.map_eq_some_iff.mp hm
    exact hsame (h.unsettled n hn)
  · intro m hm
    obtain ⟨n, hn, rfl⟩ := Option.map_eq_some_iff.mp hm
    exact hsame (bound_mono (Nat.le_succ _) (h.unsettled n hn))
  · intro j m hj
    have hj' : (q.set i .counted).turn j = .looked m := hj
    have hji : j ≠ i := by
      rintro rfl
      rw [turn_self] at hj'
      cases hj'
    rw [turn_other hji] at hj'
    exact absurd (h.alone j i (by rw [hj']; rfl) hibusy) hji

theorem inv_step (h : q.Inv limit) (hstep : Step limit q q') : q'.Inv limit := by
  cases hstep with
  | drift counter hc => exact inv_drift h hc
  | read i n _ hn halone => exact inv_read h hn halone
  | pass i hi => exact inv_pass h hi
  | miss i n hi hn => exact inv_miss h hi hn
  | count i hi => exact inv_count h hi

/-- Nobody has begun. -/
theorem inv_start (limit : Nat) {q : Quota} (h : ∀ i, q.turn i = .idle) : q.Inv limit := by
  have hnone : ∀ n, q.Bound n := by
    intro n is _ his
    cases is with
    | nil => exact Nat.zero_le n
    | cons i is =>
        have hmissed := his i (by simp)
        rw [h i] at hmissed
        cases hmissed
  refine ⟨hnone limit, ?_, fun n _ _ => hnone n, fun n _ => hnone (n + 1), fun _ n _ => hnone n⟩
  intro i j hi
  rw [h i] at hi
  cases hi

end Inv

end Quota
end Foundations
end OrbitAuth
