import OrbitAuth.Foundations.Spacing
import OrbitAuth.Safety.KeyCache

/-!
# FetchRate — how often a remote verifier can be made to fetch

A caller chooses the key id of the token that is presented, so every call may name an unknown key.
Two marks hold the verifier back: one moves with every refresh, the other only with those that an
unknown key asked for, and either of them lets a refresh through.

* `fetchTimes` — the clock readings of the calls of a run that fetch;
* `Throttled` — what the two marks say after two fetches;
* `fetch_rate` — a fetch and the second one after it are at least fifteen seconds apart.
-/

namespace OrbitAuth
namespace Token
namespace RemoteVerifier

open Domain Foundations

variable {lib : Library} {v : RemoteVerifier} {r : Request}

/-- The clock readings under the lock of the calls that fetch, oldest first. -/
def fetchTimes (lib : Library) : RemoteVerifier → List Request → List Int
  | _, [] => []
  | v, r :: rest =>
      (if (fetchOf lib v r).isSome then [r.now] else []) ++ fetchTimes lib (v.after lib r) rest

/-! ## The marks -/

theorem refreshed_marks (keyID : String) (hdue : v.refreshDue keyID r.now = true) :
    (v.refreshed keyID r).2.lastRefreshAttempt = r.now ∧
      (v.refreshed keyID r).2.lastUnknownRefresh =
        if (v.keys.get keyID).isNone then r.now else v.lastUnknownRefresh := by
  rcases refreshed_cases v keyID r with ⟨hnot, _⟩ | ⟨_, e, _, hx⟩ | ⟨_, keys, _, hx⟩
  · rw [hdue] at hnot
    cases hnot
  · rw [hx]
    exact ⟨rfl, rfl⟩
  · rw [hx]
    exact ⟨rfl, rfl⟩

/-- A call that does not fetch leaves the verifier as it is. -/
theorem after_of_no_fetch (h : (fetchOf lib v r).isSome = false) : v.after lib r = v := by
  unfold fetchOf at h
  unfold after
  cases hid : tokenKeyID lib r.raw with
  | error e => rfl
  | ok keyID =>
      rw [hid] at h
      dsimp only at h ⊢
      cases hdue : v.refreshDue keyID r.now with
      | true => simp [hdue] at h
      | false => simp [refreshed, hdue]

/-- A fetch is let through by the mark of all refreshes, or by that of the unknown keys, which it
then moves. -/
theorem after_of_fetch (h : (fetchOf lib v r).isSome = true) :
    (v.after lib r).lastRefreshAttempt = r.now ∧
      ((v.lastRefreshAttempt = 0 ∨ v.lastRefreshAttempt + retryInterval ≤ r.now) ∨
        (v.lastUnknownRefresh = 0 ∨ v.lastUnknownRefresh + retryInterval ≤ r.now) ∧
          (v.after lib r).lastUnknownRefresh = r.now) := by
  unfold fetchOf at h
  unfold after
  cases hid : tokenKeyID lib r.raw with
  | error e =>
      rw [hid] at h
      cases h
  | ok keyID =>
      rw [hid] at h
      dsimp only at h ⊢
      cases hdue : v.refreshDue keyID r.now with
      | false => simp [hdue] at h
      | true =>
          obtain ⟨hattempt, hunknown⟩ := refreshed_marks keyID hdue
          refine ⟨hattempt, ?_⟩
          simp only [refreshDue, Bool.or_eq_true, Bool.and_eq_true, decide_eq_true_eq] at hdue
          -- due since the cache has expired, or since the key is unknown
          rcases hdue with ⟨_, hmark⟩ | ⟨hnone, hmark⟩
          · left
            omega
          · right
            rw [hunknown, if_pos hnone]
            exact ⟨by omega, rfl⟩

/-! ## Two fetches back -/

/-- The last two fetches were at `s` and `t`: they are far apart already, or the last one was for an
unknown key and no fetch follows it soon. -/
structure Throttled (v : RemoteVerifier) (s t : Int) : Prop where
  attempt : v.lastRefreshAttempt = t
  marks : s + retryInterval ≤ t ∨ v.lastUnknownRefresh = t

theorem throttled_of_fetch {t : Int} (hattempt : v.lastRefreshAttempt = t) (ht : t ≠ 0)
    (hfetch : (fetchOf lib v r).isSome = true) : Throttled (v.after lib r) t r.now := by
  obtain ⟨hafter, hmark | ⟨_, hunknown⟩⟩ := after_of_fetch hfetch
  · refine ⟨hafter, .inl ?_⟩
    omega
  · exact ⟨hafter, .inr hunknown⟩

theorem fetch_after_throttled {s t : Int} (h : Throttled v s t) (hs : s ≤ t) (ht : t ≠ 0)
    (hclock : t ≤ r.now) (hfetch : (fetchOf lib v r).isSome = true) :
    s + retryInterval ≤ r.now := by
  obtain ⟨_, hmark | ⟨hmark, _⟩⟩ := after_of_fetch hfetch
  · have hattempt := h.attempt
    omega
  · rcases h.marks with hfar | hunknown
    · omega
    · omega

/-! ## Runs -/

section Runs

variable {calls : List Request}

/-- The call `r` is made no earlier than `t`, and those that follow no earlier than `r`. -/
theorem clock_cons {t : Int} (h : (t :: (r :: calls).map Request.now).Pairwise (· ≤ ·)) :
    t ≤ r.now ∧ (r.now :: calls.map Request.now).Pairwise (· ≤ ·) ∧
      (t :: calls.map Request.now).Pairwise (· ≤ ·) := by
  simp only [List.map_cons, List.pairwise_cons, List.mem_cons, forall_eq_or_imp] at h ⊢
  exact ⟨h.1.1, h.2, h.1.2, h.2.2⟩

theorem spaced_throttled (calls : List Request) : ∀ {v : RemoteVerifier}
    {s t : Int}, Throttled v s t →
    s ≤ t → 0 < t → (t :: calls.map Request.now).Pairwise (· ≤ ·) →
    Spaced 2 retryInterval (s :: t :: fetchTimes lib v calls) := by
  induction calls with
  | nil =>
      intro v s t _ _ _ _
      simp [fetchTimes, spaced_cons, spaced_nil]
  | cons r calls ih =>
      intro v s t h hs ht hclock
      obtain ⟨hnow, hrest, hskip⟩ := clock_cons hclock
      cases hfetch : (fetchOf lib v r).isSome with
      | false =>
          rw [fetchTimes, hfetch, after_of_no_fetch hfetch]
          exact ih h hs ht hskip
      | true =>
          rw [fetchTimes, hfetch]
          have hnext := throttled_of_fetch h.attempt (by omega) hfetch
          have hspan := fetch_after_throttled h hs (by omega) hnow hfetch
          have htail := ih hnext hnow (by omega) hrest
          refine spaced_cons.mpr ⟨fun u hu => ?_, htail⟩
          obtain rfl : r.now = u := by simpa using hu
          exact hspan

/-- After one fetch, at `t`. -/
theorem spaced_attempted (calls : List Request) : ∀ {v : RemoteVerifier} {t : Int},
    v.lastRefreshAttempt = t → 0 < t → (t :: calls.map Request.now).Pairwise (· ≤ ·) →
    Spaced 2 retryInterval (t :: fetchTimes lib v calls) := by
  induction calls with
  | nil =>
      intro v t _ _ _
      simp [fetchTimes, spaced_cons, spaced_nil]
  | cons r calls ih =>
      intro v t h ht hclock
      obtain ⟨hnow, hrest, hskip⟩ := clock_cons hclock
      cases hfetch : (fetchOf lib v r).isSome with
      | false =>
          rw [fetchTimes, hfetch, after_of_no_fetch hfetch]
          exact ih h ht hskip
      | true =>
          rw [fetchTimes, hfetch]
          exact spaced_throttled calls (throttled_of_fetch h (by omega) hfetch) hnow
            (by omega) hrest

theorem spaced_fetchTimes (calls : List Request) : ∀ {v : RemoteVerifier},
    (calls.map Request.now).Pairwise (· ≤ ·) → (∀ q ∈ calls, 0 < q.now) →
    Spaced 2 retryInterval (fetchTimes lib v calls) := by
  induction calls with
  | nil =>
      intro v _ _
      exact spaced_nil
  | cons r calls ih =>
      intro v hclock hpos
      have hrest : (calls.map Request.now).Pairwise (· ≤ ·) := (List.pairwise_cons.mp hclock).2
      cases hfetch : (fetchOf lib v r).isSome with
      | false =>
          rw [fetchTimes, hfetch, after_of_no_fetch hfetch]
          exact ih hrest fun q hq => hpos q (List.mem_cons_of_mem r hq)
      | true =>
          rw [fetchTimes, hfetch]
          exact spaced_attempted calls (after_of_fetch hfetch).1 (hpos r List.mem_cons_self) hclock

theorem fetchTimes_sublist (lib : Library) (calls : List Request) :
    ∀ v : RemoteVerifier, (fetchTimes lib v calls).Sublist (calls.map Request.now) := by
  induction calls with
  | nil =>
      intro v
      exact List.Sublist.refl _
  | cons r calls ih =>
      intro v
      rw [fetchTimes, List.map_cons]
      split
      · exact (ih _).cons_cons r.now
      · exact (ih _).cons r.now

end Runs

/-- Whatever key ids are presented and however the fetches go: a fetch and the second one after it
are fifteen seconds apart, and a window shorter than that sees at most two. -/
theorem fetch_rate (lib : Library) (v : RemoteVerifier) (calls : List Request)
    (hclock : (calls.map Request.now).Pairwise (· ≤ ·)) (hpos : ∀ r ∈ calls, 0 < r.now) :
    Spaced 2 (15 * second) (fetchTimes lib v calls) ∧
      ∀ a b : Int, b - a < 15 * second →
        ((fetchTimes lib v calls).filter fun t => decide (a ≤ t) && decide (t ≤ b)).length ≤ 2 := by
  have hspaced : Spaced 2 retryInterval (fetchTimes lib v calls) :=
    spaced_fetchTimes calls hclock hpos
  refine ⟨hspaced, fun a b hshort => ?_⟩
  refine window_length_le (hclock.sublist (fetchTimes_sublist lib calls v)) hspaced ?_
  show b < a + 15 * second
  omega

/-- Tokens that name any key. -/
def anyKeyLibrary : Library where
  parseUnverified raw := some ⟨"RS256", some raw, ⟨"orbit-auth", "ann", none, none, none, ""⟩⟩
  verifySignature _ _ := false

/-- The key set has expired and the endpoint is down.  A token with the known key and one with an
unknown key make two fetches in a second, and then nothing does for fifteen. -/
def floodCalls : List Request :=
  [⟨"k1", 2 * hour + 1 * second, .unreachable, 0, 0⟩,
    ⟨"k2", 2 * hour + 2 * second, .unreachable, 0, 0⟩,
    ⟨"k3", 2 * hour + 9 * second, .unreachable, 0, 0⟩,
    ⟨"k1", 2 * hour + 16 * second, .unreachable, 0, 0⟩,
    ⟨"k1", 2 * hour + 17 * second, .unreachable, 0, 0⟩]

theorem fetch_rate_flood :
    fetchTimes anyKeyLibrary (toyVerifier 0) floodCalls =
        [2 * hour + 1 * second, 2 * hour + 2 * second, 2 * hour + 17 * second] ∧
      Spaced 2 (15 * second) (fetchTimes anyKeyLibrary (toyVerifier 0) floodCalls) := by
  refine ⟨by decide +kernel, ?_⟩
  exact (fetch_rate anyKeyLibrary (toyVerifier 0) floodCalls (by decide +kernel)
    (by decide +kernel)).1

end RemoteVerifier
end Token
end OrbitAuth
