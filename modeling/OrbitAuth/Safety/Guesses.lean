import OrbitAuth.Foundations.Quota
import OrbitAuth.Safety.SingleUse

/-!
# Guesses — how many wrong codes can be tried against one challenge

`VerifyOTP` and `VerifySignup` read the challenge with its attempts, compare the code, and count a
wrong one in a later store call.  Calls that overlap all read the same count, so the limit of five
holds for calls that take turns and not for others.

* `WrongGuess` — a call that counts an attempt, or is about to, as its answer to a wrong code;
* `Next` — what a verification asks for next: above all, it counts a wrong code only against a
  challenge it has read with attempts left;
* `guess_of_wrong_code` — a wrong code that goes uncounted was turned away before the comparison;
* `account` — a pool as a `Foundations.Quota`, which every step follows (`step_account`);
* `guesses_bounded` — if no call reads a challenge while another one is between its reading and the
  counting of its wrong code, at most five wrong codes are compared with any challenge;
* `six_guesses` — six overlapping calls.
-/

namespace OrbitAuth
namespace Service
namespace Guesses

open Domain Foundations Postgres SingleUse

variable {identifier channel : String} {call : Call} {o : Port}

/-! ## Histories -/

/-- The code a verification presents. -/
def guess? : Call → Option String
  | .verifyOTP _ _ code => some code
  | .verifySignup _ code _ => some (trimSpace code)
  | _ => none

/-- The instant the clock has shown. -/
def instant? : Answered ports → Option Time
  | ⟨.now, t⟩ => some t
  | _ => none

/-- The operation counts an attempt against challenge `x`. -/
def counts (x : Uuid) : Port → Bool
  | .store (.incrementAttempts id) => Uuid.parse id = some x
  | _ => false

theorem counts_iff {x : Uuid} :
    counts x o = true ↔ ∃ id, o = .store (.incrementAttempts id) ∧ Uuid.parse id = some x := by
  constructor
  · intro h
    unfold counts at h
    split at h
    · exact ⟨_, rfl, of_decide_eq_true h⟩
    · cases h
  · rintro ⟨id, rfl, hx⟩
    exact decide_eq_true hx

/-- The call made right after two others: one that has been answered, or the one to be made next. -/
def third? (next : Option Port) : List (Answered ports) → Option Port
  | [_, _] => next
  | _ :: _ :: a :: _ => some a.op
  | _ => none

/-- Right after the lookup and the clock an attempt is counted, which is what happens to a wrong
code.  A wrong password costs `VerifySignup` an attempt too, but only after the account has been
looked up. -/
def guessed (x : Uuid) (next : Option Port) (tr : List (Answered ports)) : Bool :=
  (third? next tr).any (counts x)

/-- Where a call is with respect to challenge `x`. -/
def turn (x : Uuid) (next : Option Port) (tr : List (Answered ports)) : Turn :=
  if guessed x next tr then
    if tr.length = 2 then .counting else .counted
  else
    match tr with
    | [] => .idle
    | [a] =>
        match lookedUp? a with
        | some ch => if Uuid.parse ch.id = some x then .looked ch.attempts else .passed
        | none => .passed
    | _ => .passed

section Turns

variable {x : Uuid} {next : Option Port} {tr : List (Answered ports)}

/-- After the lookup. -/
theorem turn_single (a : Answered ports) : turn x next [a] =
    match lookedUp? a with
    | some ch => if Uuid.parse ch.id = some x then .looked ch.attempts else .passed
    | none => .passed := rfl

theorem turn_of_guessed (h : guessed x next tr = true) :
    turn x next tr = if tr.length = 2 then .counting else .counted := by
  simp [turn, h]

theorem turn_long (h : 2 ≤ tr.length) (hguess : guessed x next tr = false) :
    turn x next tr = .passed := by
  rcases tr with _ | ⟨b, _ | ⟨b', rest⟩⟩
  · simp at h
  · simp at h
  · simp [turn, hguess]

/-- The third call decides, before and after it is made. -/
theorem guessed_snoc (h : 2 ≤ tr.length) (a : Answered ports) :
    guessed x next (tr ++ [a]) = guessed x (some a.op) tr := by
  rcases tr with _ | ⟨b, _ | ⟨b', _ | ⟨b'', rest⟩⟩⟩
  · simp at h
  · simp at h
  · rfl
  · rfl

theorem guessed_two (h : tr.length = 2) : guessed x next tr = next.any (counts x) := by
  obtain ⟨a, b, rfl⟩ := List.length_eq_two.mp h
  rfl

end Turns

/-! ## What a verification does next -/

/-- The calls of a verification: the lookup, the clock and, after a wrong code, the counting. -/
structure Next (env : Env) (code : String) (tr : List (Answered ports)) (o : Port) : Prop where
  first : tr = [] → ∃ identifier channel, o = .store (.getLatestChallenge identifier channel)
  second : ∀ a, tr = [a] → o = .now
  third : ∀ x a b, tr = [a, b] → counts x o = true →
    ∃ ch, lookedUp? a = some ch ∧ Uuid.parse ch.id = some x ∧ ch.attempts < maxOTPAttempts ∧
      env.compare ch.codeHash code = false
  later : storesChallenge o = false

theorem guess?_of_verification (h : IsVerification call) : ∃ code, guess? call = some code := by
  cases h with
  | otp identifier channel code => exact ⟨code, rfl⟩
  | signup email code password => exact ⟨trimSpace code, rfl⟩

section Programs

variable {cfg : Config} {code : String}

theorem matchChallenge_orderly (identifier channel : String) :
    (matchChallenge cfg identifier channel code).Orderly (Next cfg.env code)
      (fun tr _ => tr.length = 2) [] := by
  have hlookup : Next cfg.env code [] (.store (.getLatestChallenge identifier channel)) :=
    ⟨fun _ => ⟨identifier, channel, rfl⟩, by simp, by simp, rfl⟩
  refine orderly_bind (orderly_passes
    (passes_storeOr _ (.getLatestChallenge identifier channel)) hlookup) fun ch tr htr => ?_
  have hnow : Next cfg.env code tr .now := by
    refine ⟨?_, fun _ _ => rfl, ?_, rfl⟩
    · rw [htr]
      simp
    · rw [htr]
      simp
  refine orderly_bind (orderly_now hnow) fun t tr₁ h₁ => ?_
  refine orderly_bind orderly_failIf fun _ tr₂ h₂ => ?_
  refine orderly_bind orderly_failIf fun _ tr₃ h₃ => ?_
  have htrace : tr₃ =
      [⟨.store (.getLatestChallenge identifier channel), .ok ch⟩, ⟨.now, t⟩] := by
    rw [h₃.1, h₂.1, h₁, htr]
    rfl
  -- the code is compared only now, with a challenge that has attempts left
  have hleft : ch.attempts < maxOTPAttempts := Nat.lt_of_not_le (of_decide_eq_false h₃.2)
  split
  · exact .done (by rw [htrace]; rfl)
  · rename_i hcompare
    have hcount : Next cfg.env code tr₃ (.store (.incrementAttempts ch.id)) := by
      refine ⟨?_, ?_, ?_, rfl⟩
      · rw [htrace]
        simp
      · rw [htrace]
        simp
      -- the attempt is counted against the challenge that was looked up
      · intro x a b heq hx
        rw [htrace] at heq
        obtain ⟨rfl, _⟩ := List.cons.inj heq
        exact ⟨ch, rfl, of_decide_eq_true hx, hleft, Bool.eq_false_of_not_eq_true hcompare⟩
    exact orderly_bind (orderly_ignore hcount) fun _ _ _ => .fail

/-- After the third call nothing more is asked for than that no challenge is stored. -/
theorem next_of_long {tr : List (Answered ports)} (h : 3 ≤ tr.length)
    (ho : storesChallenge o = false) : Next cfg.env code tr o := by
  refine ⟨?_, ?_, ?_, ho⟩
  · rintro rfl
    simp at h
  · rintro a rfl
    simp at h
  · rintro x a b rfl
    simp at h

/-- What follows a match: its first call counts no attempt. -/
theorem orderly_after {α : Type} {p : Action α} (hp : p.Uses fun o => storesChallenge o = false)
    (hfirst : ∀ x, p.head?.any (counts x) = false) {tr : List (Answered ports)}
    (h : tr.length = 2) : p.Orderly (Next cfg.env code) (fun _ _ => True) tr := by
  cases hp with
  | done a => exact .done trivial
  | fail e => exact .fail
  | @call o k ho hk =>
      refine .call ⟨?_, ?_, ?_, ho⟩ fun r => ?_
      · rintro rfl
        simp at h
      · rintro a rfl
        simp at h
      · intro x a b _ hx
        have hnot : counts x o = false := hfirst x
        rw [hnot] at hx
        cases hx
      · refine orderly_mono (fun _ _ h => h) (fun _ _ _ => trivial)
          (orderly_of_uses (M := fun tr => 3 ≤ tr.length) (fun _ _ => next_of_long) ?_
            (hk r) _ ?_)
        · intro tr a htr
          simp
          omega
        · simp [h]

theorem storesChallenge_plain (h : o.plain = true) : storesChallenge o = false := by
  cases o with
  | store o => cases o <;> first | rfl | simp [Port.plain, plainStore] at h
  | _ => rfl

theorem verification_orderly (hcall : IsVerification call) (hcode : guess? call = some code) :
    (call.program cfg).Orderly (Next cfg.env code) (fun _ _ => True) [] := by
  have hissue : ∀ userID, (issueTokens cfg userID).Uses fun o => storesChallenge o = false :=
    fun _ => uses_issueTokens (silent_of_plain (fun _ => storesChallenge_plain))
      (fun _ _ => rfl) fun _ _ _ => rfl
  cases hcall with
  | otp identifier channel code' =>
      obtain rfl : code' = code := Option.some.inj hcode
      refine orderly_bind (M := fun _ _ => True) ?_ fun _ _ _ => .done trivial
      refine orderly_bind orderly_failIf fun _ tr htr => ?_
      rw [htr.1]
      refine orderly_bind (matchChallenge_orderly _ _) fun res tr hmatched => ?_
      -- what follows a match stores no challenge
      refine orderly_after ?_ (fun _ => rfl) hmatched
      refine uses_bind (uses_store rfl) fun _ => ?_
      refine uses_bind (uses_findOrCreate (silent_of_plain (fun _ => storesChallenge_plain))
        (fun _ => rfl) (fun _ => rfl) _ _) fun user => ?_
      exact uses_bind (uses_failIf _ _) fun _ => hissue _
  | signup email code' password =>
      obtain rfl : trimSpace code' = code := Option.some.inj hcode
      refine orderly_bind (M := fun _ _ => True) ?_ fun _ _ _ => .done trivial
      refine orderly_bind orderly_failIf fun _ tr htr => ?_
      rw [htr.1]
      refine orderly_bind orderly_failIf fun _ tr htr => ?_
      rw [htr.1]
      refine orderly_bind (matchChallenge_orderly _ _) fun res tr hmatched => ?_
      refine orderly_after ?_ (fun _ => rfl) hmatched
      refine uses_bind (uses_matchSignup (silent_of_plain (fun _ => storesChallenge_plain)) _ _ _)
        fun user => ?_
      refine uses_bind (uses_store rfl) fun _ => ?_
      exact uses_bind (uses_storeMapping rfl) fun _ => hissue _

/-- A wrong code that was not turned away, for the challenge being expired or out of attempts, is
counted by the next call. -/
def Accounted (env : Env) (code : String) (tr : List (Answered ports)) : Prop :=
  ∀ a b rest ch t, tr = a :: b :: rest → lookedUp? a = some ch → instant? b = some t →
    ¬ ch.expiresAt < t → ch.attempts < maxOTPAttempts → env.compare ch.codeHash code = false →
    ∀ x, Uuid.parse ch.id = some x → guessed x none tr = true

/-- The history of a call whose checks have begun. -/
theorem accounted_checked {ch : OTPChallenge} {t : Time} {rest : List (Answered ports)}
    (h : ¬ ch.expiresAt < t → ch.attempts < maxOTPAttempts →
      cfg.env.compare ch.codeHash code = false → ∀ x, Uuid.parse ch.id = some x →
      (rest.head?.map Answered.op).any (counts x) = true) :
    Accounted cfg.env code
      (⟨.store (.getLatestChallenge identifier channel), .ok ch⟩ :: ⟨.now, t⟩ :: rest) := by
  intro a b rest' ch' t' heq hch ht hlive hleft hwrong x hx
  obtain ⟨rfl, hrest⟩ := List.cons.inj heq
  obtain ⟨rfl, rfl⟩ := List.cons.inj hrest
  obtain rfl : ch = ch' := Option.some.inj hch
  obtain rfl : t = t' := Option.some.inj ht
  have hcounts := h hlive hleft hwrong x hx
  cases rest with
  | nil => cases hcounts
  | cons c rest => exact hcounts

/-- At its end `matchChallenge` has accounted for the code; after a match nothing more is due. -/
theorem matchChallenge_accounts (identifier channel : String) :
    (matchChallenge cfg identifier channel code).Traces
      (fun tr res => Accounted cfg.env code tr ∧
        ∀ m, res = .ok m → ∀ more, Accounted cfg.env code (tr ++ more)) [] := by
  have hfailed : ∀ {tr : List (Answered ports)} {e : Err}, Accounted cfg.env code tr →
      (.fail e : Action (OTPChallenge × Time)).Traces (fun tr res => Accounted cfg.env code tr ∧
        ∀ m, res = .ok m → ∀ more, Accounted cfg.env code (tr ++ more)) tr :=
    fun h => .fail ⟨h, fun m hm => by cases hm⟩
  refine .call fun r => ?_
  cases r with
  | error e =>
      refine hfailed ?_
      intro a b rest ch t h
      cases h
  | ok ch =>
      refine .call fun t => ?_
      -- one case for each way the checks can end
      show (failIf (ch.expiresAt < t) _ >>= fun _ =>
        failIf (maxOTPAttempts ≤ ch.attempts) _ >>= fun _ =>
          if cfg.env.compare ch.codeHash code then _ else _ : Action _).Traces _ _
      by_cases hexpired : ch.expiresAt < t
      · rw [decide_eq_true hexpired]
        exact hfailed (accounted_checked fun hlive => absurd hexpired hlive)
      rw [decide_eq_false hexpired]
      by_cases hlimit : maxOTPAttempts ≤ ch.attempts
      · rw [decide_eq_true hlimit]
        exact hfailed (accounted_checked fun _ hleft => absurd hlimit (Nat.not_le_of_lt hleft))
      rw [decide_eq_false hlimit]
      by_cases hcompare : cfg.env.compare ch.codeHash code = true
      · have hmatched : ∀ more, Accounted cfg.env code
            (⟨.store (.getLatestChallenge identifier channel), .ok ch⟩ :: ⟨.now, t⟩ :: more) := by
          refine fun more => accounted_checked fun _ _ hwrong => ?_
          rw [hcompare] at hwrong
          cases hwrong
        rw [if_pos hcompare]
        exact .done ⟨hmatched [], fun _ _ => hmatched⟩
      · rw [if_neg hcompare]
        refine .call fun r' => hfailed (accounted_checked fun _ _ _ x hx => ?_)
        exact decide_eq_true hx

/-- A verification leaves no wrong code unaccounted for. -/
theorem verification_accounts (hcall : IsVerification call) (hcode : guess? call = some code) :
    (call.program cfg).Traces (fun tr _ => Accounted cfg.env code tr) [] := by
  have hnil : Accounted cfg.env code [] := by
    intro a b rest ch t h
    cases h
  have hmatch : ∀ {α : Type} (identifier channel : String) (rest : _ → Action α),
      (matchChallenge cfg identifier channel code >>= rest).Traces
        (fun tr _ => Accounted cfg.env code tr) [] := by
    intro α identifier channel rest
    refine traces_bind (matchChallenge_accounts identifier channel) ?_ ?_
    · intro m tr h
      exact Program.traces_of_extends _ _ fun more _ => h.2 m rfl more
    · intro e tr h
      exact h.1
  have hrefused : ∀ {α : Type} (c : Bool) (e : Err) (p : Action α),
      p.Traces (fun tr _ => Accounted cfg.env code tr) [] →
      (failIf c e >>= fun _ => p).Traces (fun tr _ => Accounted cfg.env code tr) [] := by
    intro α c e p hp
    cases c with
    | true => exact .fail hnil
    | false => exact hp
  cases hcall with
  | otp identifier channel code' =>
      obtain rfl : code' = code := Option.some.inj hcode
      refine traces_bind (hrefused _ _ _ (hmatch _ _ _)) ?_ fun _ _ h => h
      exact fun _ _ h => .done h
  | signup email code' password =>
      obtain rfl : trimSpace code' = code := Option.some.inj hcode
      refine traces_bind (hrefused _ _ _ (hrefused _ _ _ (hmatch _ _ _))) ?_ fun _ _ h => h
      exact fun _ _ h => .done h

end Programs

/-! ## The counter -/

/-- The attempts stored with challenge `x`. -/
def attempts (x : Uuid) (w : World) : Option Nat :=
  (w.db.challenges.find? x).map ChallengeRow.attempts

section Counter

variable {env : Env} {x : Uuid} {c : Choice} {w : World}

theorem attempts_drift (ho : storesChallenge o = false) :
    ∀ n', attempts x (exec env o c w).2 = some n' → ∃ n, attempts x w = some n ∧ n ≤ n' := by
  intro n' hn'
  obtain ⟨r, hr, rfl⟩ := Option.map_eq_some_iff.mp hn'
  obtain ⟨hmem, hkey⟩ := find?_eq_some.mp hr
  obtain ⟨r₀, hr₀, hle, heq⟩ := exec_ages ho c w r hmem
  rw [heq] at hkey
  have hfind : w.db.challenges.find? x = some r₀ := find?_eq_some.mpr ⟨hr₀, hkey⟩
  exact ⟨r₀.attempts, by rw [attempts, hfind]; rfl, hle⟩

theorem attempts_lookup :
    attempts x (exec env (.store (.getLatestChallenge identifier channel)) c w).2 =
      attempts x w := by
  rcases exec_store env (.getLatestChallenge identifier channel) c w with h | h
  · rw [h]
    rfl
  · rw [h, Store.exec_getLatestChallenge]
    rfl

/-- A lookup that finds challenge `x` reads its attempts. -/
theorem attempts_read {ch : OTPChallenge}
    (h : (exec env (.store (.getLatestChallenge identifier channel)) c w).1 = .ok ch)
    (hx : Uuid.parse ch.id = some x) : attempts x w = some ch.attempts := by
  have hanswer := (exec_store_ok h).1
  rw [Store.exec_getLatestChallenge, Store.found_eq_ok, Option.map_eq_some_iff] at hanswer
  obtain ⟨r, hr, rfl⟩ := hanswer
  have hmem : r ∈ w.db.challenges :=
    (mem_select.mp (List.mem_of_mem_filter (mem_of_limitOne hr))).1
  have hid : r.id = x := by
    rw [show r.challenge.id = r.id.string from rfl, Uuid.parse_string] at hx
    exact Option.some.inj hx
  have hfind : w.db.challenges.find? x = some r := find?_eq_some.mpr ⟨hmem, hid⟩
  rw [attempts, hfind]
  rfl

/-- Counting an attempt, where the store call does not fail. -/
theorem attempts_counted {id : String} (hc : c.fails = false) (hx : Uuid.parse id = some x) :
    attempts x (exec env (.store (.incrementAttempts id)) c w).2 = (attempts x w).map (· + 1) := by
  have hrows : (exec env (.store (.incrementAttempts id)) c w).2.db.challenges =
      w.db.challenges.update (fun r => r.id = x) ChallengeRow.attempted := by
    rw [exec_store_runs env _ hc w, ← DB.challenges_update]
    simp [Store.Op.exec, Store.Op.body, Store.incrementAttempts, Store.parseID, hx, Store.stmt,
      Store.statement, Sql.eval, incrementChallengeAttempts, Store.settle]
  unfold attempts
  rw [hrows]
  -- an update that meets no row is no error, and the count stays undefined
  cases hfind : w.db.challenges.find? x with
  | none =>
      have hnone :
          (w.db.challenges.update (fun r => r.id = x) ChallengeRow.attempted).find? x = none := by
        refine find?_eq_none.mpr fun r hr hkey => ?_
        rcases (mem_update key_attempted).1 hr with ⟨r', hr', _, rfl⟩ | ⟨hr, _⟩
        · exact find?_eq_none.mp hfind r' hr' hkey
        · exact find?_eq_none.mp hfind r hr hkey
      rw [hnone]
      rfl
  | some r =>
      obtain ⟨hmem, hkey⟩ := find?_eq_some.mp hfind
      have hsome : (w.db.challenges.update (fun r => r.id = x) ChallengeRow.attempted).find? x =
          some r.attempted :=
        find?_eq_some.mpr ⟨(mem_update key_attempted).mpr
          (.inl ⟨r, hmem, decide_eq_true hkey, rfl⟩), hkey⟩
      rw [hsome]
      rfl

end Counter

/-! ## Runs -/

section Runs

/-- Where call `i` is with respect to challenge `x`. -/
def turnOf (p : ServicePool) (x : Uuid) (i : Nat) : Turn :=
  turn x (p.head? i) (p.history i)

/-- The attempts of challenge `x` and where each call is. -/
def account (x : Uuid) (p : ServicePool) : Quota where
  counter := attempts x p.world
  turn := turnOf p x

/-- No store call fails, and a call reads a challenge only while no other call is between its
reading of the challenge and the end of its check. -/
def Unhurried (cfg : Config) (p : ServicePool) (i : Nat) (c : Choice) : Prop :=
  c.fails = false ∧
    ∀ identifier channel ch x, p.head? i = some (.store (.getLatestChallenge identifier channel)) →
      (exec cfg.env (.store (.getLatestChallenge identifier channel)) c p.world).1 = .ok ch →
      Uuid.parse ch.id = some x → ∀ j, (turnOf p x j).busy = false

/-- Call `i` has compared a wrong code with the hash of challenge `x`: it has asked for the attempt
to be counted, or that is what it asks for next. -/
def WrongGuess (p : ServicePool) (x : Uuid) (i : Nat) : Prop :=
  guessed x (p.head? i) (p.history i) = true

instance (p : ServicePool) (x : Uuid) (i : Nat) : Decidable (WrongGuess p x i) :=
  inferInstanceAs (Decidable (_ = true))

/-- At most `MaxOTPAttempts` calls have compared a wrong code with any one challenge. -/
def GuessesBounded (p : ServicePool) : Prop :=
  ∀ x (is : List Nat), is.Nodup → (∀ i ∈ is, WrongGuess p x i) → is.length ≤ maxOTPAttempts

/-- What the calls of a run ask for next. -/
def NextOf (env : Env) (calls : List Call) (i : Nat) (tr : List (Answered ports)) (o : Port) :
    Prop :=
  ∃ code, calls[i]?.bind guess? = some code ∧ Next env code tr o

variable {cfg : Config} {calls : List Call}

theorem wrongGuess_missed {p : ServicePool} {x : Uuid} {i : Nat} (h : WrongGuess p x i) :
    ((account x p).turn i).missed = true := by
  have hturn : (account x p).turn i =
      if (p.history i).length = 2 then .counting else .counted := turn_of_guessed h
  rw [hturn]
  split <;> rfl

section Steps

variable {p : ServicePool} {x : Uuid} {i : Nat} {c : Choice} {o : Port}
  {k : o.Ans → Action Reply}

/-- A call of thread `i` changes the counter and where `i` is, and nothing else. -/
theorem account_called :
    account x (p.called (exec cfg.env) i c o k) =
      { (account x p).set i (turnOf (p.called (exec cfg.env) i c o k) x i) with
        counter := attempts x (exec cfg.env o c p.world).2 } := by
  have hturn : (account x (p.called (exec cfg.env) i c o k)).turn =
      ((account x p).set i (turnOf (p.called (exec cfg.env) i c o k) x i)).turn := by
    funext j
    by_cases hji : j = i
    · subst hji
      rw [Quota.turn_self]
      rfl
    · rw [Quota.turn_other hji]
      show turnOf (p.called (exec cfg.env) i c o k) x j = turnOf p x j
      unfold turnOf Pool.head?
      rw [Pool.called_history_other p c o k hji, Pool.called_other hji]
  exact congrArg (Quota.mk (attempts x (exec cfg.env o c p.world).2)) hturn

/-- A call that does not move with respect to `x`. -/
theorem step_drift {t : Turn} (ho : storesChallenge o = false) (ht : t = turnOf p x i) :
    Quota.Step maxOTPAttempts (account x p)
      { (account x p).set i t with counter := attempts x (exec cfg.env o c p.world).2 } := by
  have hset : (account x p).set i t = account x p := by
    rw [ht]
    exact congrArg (Quota.mk _) (Function.update_eq_self i _)
  rw [hset]
  exact .drift _ (attempts_drift ho)

/-- The first call: the lookup. -/
theorem step_lookup {next : Option Port} (hok : Unhurried cfg p i c)
    (hi : p.head? i = some (.store (.getLatestChallenge identifier channel)))
    (htr : p.history i = []) :
    Quota.Step maxOTPAttempts (account x p)
      { (account x p).set i (turn x next
          [⟨.store (.getLatestChallenge identifier channel),
            (exec cfg.env (.store (.getLatestChallenge identifier channel)) c p.world).1⟩]) with
        counter := attempts x
          (exec cfg.env (.store (.getLatestChallenge identifier channel)) c p.world).2 } := by
  have hidle : (account x p).turn i = .idle := by
    show turn x (p.head? i) (p.history i) = _
    rw [htr]
    rfl
  rw [attempts_lookup, turn_single]
  cases hans : (exec cfg.env (.store (.getLatestChallenge identifier channel)) c p.world).1 with
  | error e => exact .pass i (.inl hidle)
  | ok ch =>
      show Quota.Step _ _
        { Quota.set _ i (if Uuid.parse ch.id = some x then _ else _) with counter := _ }
      by_cases hx : Uuid.parse ch.id = some x
      · rw [if_pos hx]
        exact .read i ch.attempts hidle (attempts_read hans hx) (hok.2 _ _ ch x hi hans hx)
      · rw [if_neg hx]
        exact .pass i (.inl hidle)

/-- The second call: the clock, after which the code is compared.  A call that is about to count
its wrong code has read the challenge with attempts left. -/
theorem step_compare {a : Answered ports} {next : Option Port} (htr : p.history i = [a])
    (hnext : next.any (counts x) = true →
      ∃ ch, lookedUp? a = some ch ∧ Uuid.parse ch.id = some x ∧ ch.attempts < maxOTPAttempts) :
    Quota.Step maxOTPAttempts (account x p)
      { (account x p).set i (turn x next [a, ⟨.now, (exec cfg.env .now c p.world).1⟩]) with
        counter := attempts x (exec cfg.env .now c p.world).2 } := by
  have hturn : turnOf p x i = turn x (p.head? i) [a] := by
    rw [turnOf, htr]
  have hlooked : ∀ ch, lookedUp? a = some ch → Uuid.parse ch.id = some x →
      (account x p).turn i = .looked ch.attempts := by
    intro ch hch hx
    show turnOf p x i = _
    rw [hturn, turn_single, hch]
    exact if_pos hx
  cases hguess : guessed x next [a, ⟨.now, (exec cfg.env .now c p.world).1⟩] with
  | true =>
      obtain ⟨ch, hch, hx, hattempts⟩ := hnext hguess
      rw [turn_of_guessed hguess]
      exact .miss i ch.attempts (hlooked ch hch hx) hattempts
  | false =>
      -- everything else ends the turn
      rw [turn_long (by simp) hguess]
      cases hch : lookedUp? a with
      | none =>
          refine step_drift rfl ?_
          rw [hturn, turn_single, hch]
      | some ch =>
          by_cases hx : Uuid.parse ch.id = some x
          · exact .pass i (.inr ⟨ch.attempts, hlooked ch hch hx⟩)
          · refine step_drift rfl ?_
            rw [hturn, turn_single, hch]
            exact (if_neg hx).symm

/-- The later calls: the counting of a wrong code, or anything else. -/
theorem step_later {next : Option Port} (hi : p.head? i = some o) (hc : c.fails = false)
    (ho : storesChallenge o = false) (htr : 2 ≤ (p.history i).length) :
    Quota.Step maxOTPAttempts (account x p)
      { (account x p).set i
          (turn x next (p.history i ++ [⟨o, (exec cfg.env o c p.world).1⟩])) with
        counter := attempts x (exec cfg.env o c p.world).2 } := by
  have hturn : turnOf p x i = turn x (some o) (p.history i) := by
    rw [turnOf, hi]
  have hsnoc : guessed x next (p.history i ++ [⟨o, (exec cfg.env o c p.world).1⟩]) =
      guessed x (some o) (p.history i) := guessed_snoc htr _
  have hlonger : ∀ a : Answered ports, 3 ≤ (p.history i ++ [a]).length := by
    intro a
    rw [List.length_append]
    exact Nat.succ_le_succ htr
  cases hguess : guessed x (some o) (p.history i) with
  | false =>
      refine step_drift ho ?_
      rw [turn_long (Nat.le_of_succ_le (hlonger _)) (hsnoc.trans hguess), hturn,
        turn_long htr hguess]
  | true =>
      rw [turn_of_guessed (hsnoc.trans hguess), if_neg (Nat.ne_of_gt (hlonger _))]
      by_cases hlength : (p.history i).length = 2
      · have hcounting : (account x p).turn i = .counting := by
          show turnOf p x i = _
          rw [hturn, turn_of_guessed hguess, if_pos hlength]
        have hcounts : counts x o = true := (guessed_two hlength).symm.trans hguess
        obtain ⟨id, rfl, hx⟩ := counts_iff.mp hcounts
        rw [attempts_counted hc hx]
        exact .count i hcounting
      · refine step_drift ho ?_
        rw [hturn, turn_of_guessed hguess, if_neg hlength]

theorem step_account (hp : p.Orderly (NextOf cfg.env calls)) (hok : Unhurried cfg p i c)
    (hi : p.threads[i]? = some (.call o k)) :
    Quota.Step maxOTPAttempts (account x p) (account x (p.called (exec cfg.env) i c o k)) := by
  have hhead : p.head? i = some o := Pool.head?_of_threads hi
  obtain ⟨code, _, hnext⟩ := Pool.next_of_head? hp hhead
  rw [account_called, turnOf, Pool.called_history_self]
  rcases htr : p.history i with _ | ⟨a, _ | ⟨b, rest⟩⟩
  · obtain ⟨identifier, channel, rfl⟩ := hnext.first htr
    exact step_lookup hok hhead htr
  · obtain rfl := hnext.second a htr
    refine step_compare htr fun hcounts => ?_
    -- what the call asks for after the clock is known from the programs
    obtain ⟨o', ho', hx⟩ := (Option.any_eq_true _ _).mp hcounts
    obtain ⟨code', _, hnext'⟩ := Pool.next_of_head? (Pool.orderly_called hp c hi) ho'
    rw [Pool.called_history_self, htr] at hnext'
    obtain ⟨ch, hch, hid, hattempts, _⟩ := hnext'.third x _ _ rfl hx
    exact ⟨ch, hch, hid, hattempts⟩
  · rw [← htr]
    exact step_later hhead hok.1 hnext.later (by rw [htr]; simp)

end Steps

theorem serve_orderly (hcalls : ∀ call ∈ calls, IsVerification call) (w : World) :
    (serve cfg w calls).Orderly (NextOf cfg.env calls) := by
  intro i q hq
  have hmap : (calls.map (Call.program cfg))[i]? = some q := hq
  rw [List.getElem?_map, Option.map_eq_some_iff] at hmap
  obtain ⟨call, hi, rfl⟩ := hmap
  have hcall := hcalls call (List.mem_of_getElem? hi)
  obtain ⟨code, hcode⟩ := guess?_of_verification hcall
  refine orderly_mono ?_ (fun _ _ h => h) (verification_orderly hcall hcode)
  intro tr o hnext
  exact ⟨code, by rw [hi]; exact hcode, hnext⟩

/-- A call that has ended and whose wrong code was not turned away has made a wrong guess. -/
theorem guess_of_wrong_code {w : World} {sched : Schedule} {i : Nat} {code : String}
    {res : Except Err Reply} {a b : Answered ports} {rest : List (Answered ports)}
    {ch : OTPChallenge} {t : Time} {x : Uuid} (hi : calls[i]? = some call)
    (hcall : IsVerification call) (hcode : guess? call = some code)
    (hend : (runOn cfg (serve cfg w calls) sched).result? i = some res)
    (htr : (runOn cfg (serve cfg w calls) sched).history i = a :: b :: rest)
    (hch : lookedUp? a = some ch) (ht : instant? b = some t) (hlive : ¬ ch.expiresAt < t)
    (hleft : ch.attempts < maxOTPAttempts) (hwrong : cfg.env.compare ch.codeHash code = false)
    (hx : Uuid.parse ch.id = some x) : WrongGuess (runOn cfg (serve cfg w calls) sched) x i := by
  have hstart : ∀ q, (serve cfg w calls).threads[i]? = some q →
      q.Traces (fun tr _ => Accounted cfg.env code tr) ((serve cfg w calls).history i) := by
    intro q hq
    have hmap : (calls.map (Call.program cfg))[i]? = some q := hq
    rw [List.getElem?_map, hi] at hmap
    obtain rfl := Option.some.inj hmap
    exact verification_accounts hcall hcode
  obtain ⟨q, hq, hres⟩ := Option.bind_eq_some_iff.mp hend
  have htraces := Pool.run_traces hstart sched q hq
  have hhead : (runOn cfg (serve cfg w calls) sched).head? i = q.head? := by
    unfold Pool.head?
    rw [hq]
    rfl
  unfold WrongGuess
  rw [hhead]
  cases htraces with
  | done h => exact h a b rest ch t htr hch ht hlive hleft hwrong x hx
  | fail h => exact h a b rest ch t htr hch ht hlive hleft hwrong x hx
  | call h => cases hres

/-- Calls that take turns try at most five wrong codes against a challenge. -/
theorem guesses_bounded (hcalls : ∀ call ∈ calls, IsVerification call) {w : World}
    {sched : Schedule} (hok : Pool.Along (exec cfg.env) (Unhurried cfg) (serve cfg w calls) sched) :
    GuessesBounded (runOn cfg (serve cfg w calls) sched) := by
  intro x is hnodup his
  -- every step of a call is a step of the quota
  have hrun : (account x (runOn cfg (serve cfg w calls) sched)).Inv maxOTPAttempts := by
    refine Pool.run_orderly (J := fun p => (account x p).Inv maxOTPAttempts) ?_ hok
      (serve_orderly hcalls w) ?_
    · intro p i c o k hp hinv hokstep hi
      exact Quota.inv_step hinv (step_account hp hokstep hi)
    · exact Quota.inv_start _ fun i => rfl
  exact hrun.limited is hnodup fun i hi => wrongGuess_missed (his i hi)

end Runs

/-! ## Six guesses -/

/-- Six calls with a wrong code. -/
def sixGuesses : List Call :=
  List.replicate 6 (.verifyOTP "ann@example.com" "email" "000000")

/-- `steps` steps of each call, one call after the other. -/
def eachFor (steps : Nat) : Schedule :=
  (List.range 6).flatMap fun i => turns i 2000 (20 + 10 * i) steps

/-- The condition of `Unhurried` as a test. -/
def takesTurns (p : ServicePool) (i : Nat) (c : Choice) : Bool :=
  !c.fails && p.log.all (fun e => e.thread < 6) &&
    match p.head? i with
    | some (.store (.getLatestChallenge identifier channel)) =>
        match (exec toyEnv (.store (.getLatestChallenge identifier channel)) c p.world).1 with
        | .ok ch => (Uuid.parse ch.id).all fun x =>
            (List.range 6).all fun j => !(turnOf p x j).busy
        | .error _ => true
    | _ => true

theorem unhurried_of_takesTurns {p : ServicePool} {i : Nat} {c : Choice}
    (h : takesTurns p i c = true) :
    Unhurried toyConfig p i c := by
  unfold takesTurns at h
  rw [Bool.and_eq_true, Bool.and_eq_true, Bool.not_eq_true', List.all_eq_true] at h
  refine ⟨h.1.1, ?_⟩
  intro identifier channel ch x hhead hans hx j
  have hans' : (exec toyEnv (.store (.getLatestChallenge identifier channel)) c p.world).1 =
    .ok ch := hans
  have hidle := h.2
  rw [hhead] at hidle
  simp only [hans', hx, Option.all_some, List.all_eq_true, List.mem_range, Bool.not_eq_true']
    at hidle
  by_cases hj : j < 6
  · exact hidle j hj
  · have hnone : p.history j = [] := by
      rw [Pool.history, List.map_eq_nil_iff, List.filter_eq_nil_iff]
      intro e he heq
      have hlt := of_decide_eq_true (h.1.2 e he)
      rw [eq_of_beq heq] at hlt
      exact hj hlt
    rw [turnOf, hnone]
    rfl

set_option maxRecDepth 10000 in
/-- One after the other, five of the six codes are compared. -/
theorem guesses_bounded_in_turn :
    (∀ i ∈ List.range 5, WrongGuess
      (runOn toyConfig (serve toyConfig requested sixGuesses) (eachFor 3)) (Uuid.ofNat 5) i) ∧
    GuessesBounded
      (runOn toyConfig (serve toyConfig requested sixGuesses) (eachFor 3)) := by
  obtain ⟨hwrong, hturns⟩ :
      (∀ i ∈ List.range 5, WrongGuess
        (runOn toyConfig (serve toyConfig requested sixGuesses) (eachFor 3)) (Uuid.ofNat 5) i) ∧
      Pool.Along (exec toyConfig.env) (fun p i c => takesTurns p i c = true)
        (serve toyConfig requested sixGuesses) (eachFor 3) := by decide +kernel
  refine ⟨hwrong, guesses_bounded ?_ ?_⟩
  · intro call hcall
    rw [List.eq_of_mem_replicate hcall]
    constructor
  · exact Pool.along_mono (fun _ _ _ => unhurried_of_takesTurns) _ _ hturns

set_option maxRecDepth 10000 in
/-- All six read the challenge and compare their codes before any of them counts. -/
theorem six_guesses :
    ¬ GuessesBounded
      (runOn toyConfig (serve toyConfig requested sixGuesses) (eachFor 2)) := by
  intro h
  have hsix : ∀ i ∈ List.range 6, WrongGuess
      (runOn toyConfig (serve toyConfig requested sixGuesses) (eachFor 2)) (Uuid.ofNat 5) i := by
    decide +kernel
  exact absurd (h _ _ List.nodup_range hsix) (by decide)

end Guesses
end Service
end OrbitAuth
