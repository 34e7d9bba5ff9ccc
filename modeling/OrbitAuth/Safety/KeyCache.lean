import OrbitAuth.Token.RemoteVerifier

/-!
# KeyCache — how stale a remote verifier's keys can be

The verifier is followed over arbitrary sequences of calls.  The `fetches` of a run are the requests
it has sent to the key endpoint; `latest` is the most recent of them that brought a valid document.

* `Tracks` — the verifier holds exactly the keys and the instant of that document;
* `remote_verifier_contract` — tokens are accepted under keys of that document and within an hour
  of it, failed fetches change nothing, and an outage is tolerated for that hour;
* `remote_agrees_iff` — with a healthy endpoint, a verifier agrees with a direct verification
  against the published keys unless its cache lifetime keeps it from refreshing for more than an
  hour.
-/

namespace OrbitAuth
namespace Token
namespace RemoteVerifier

open Domain Foundations

variable {keys : KeySet} {log : List (Fetch × Int)} {f : Fetch} {t : Int}

variable {lib : Library} {v : RemoteVerifier} {r : Request} {keyID : String}

/-! ## What a call does -/

/-- The verifier after a successful fetch. -/
def installed (v : RemoteVerifier) (keys : KeySet) (fetchedAt : Int) : RemoteVerifier :=
  { v with keys := keys, fetchedAt := fetchedAt, expiresAt := fetchedAt + v.cacheLifetime }

/-- No refresh, a failed one, or one that installs a new key set. -/
theorem refreshed_cases (v : RemoteVerifier) (keyID : String) (r : Request) :
    (v.refreshDue keyID r.now = false ∧ v.refreshed keyID r = (.ok (), v)) ∨
    (v.refreshDue keyID r.now = true ∧ ∃ e, r.fetch.keySet = .error e ∧
      v.refreshed keyID r = (.error e, v.marked keyID r.now)) ∨
    (v.refreshDue keyID r.now = true ∧ ∃ keys, r.fetch.keySet = .ok keys ∧
      v.refreshed keyID r = (.ok (), (v.marked keyID r.now).installed keys r.fetchedAt)) := by
  unfold refreshed
  cases hdue : v.refreshDue keyID r.now with
  | false => exact .inl ⟨rfl, rfl⟩
  | true =>
      refine .inr ?_
      cases hkeys : r.fetch.keySet with
      | error e => exact .inl ⟨rfl, e, rfl, by simp [refreshLocked, hkeys]⟩
      | ok keys => exact .inr ⟨rfl, keys, rfl, by simp [refreshLocked, hkeys, installed]⟩

/-- A key is selected when it is known and recent enough. -/
theorem selectKey_eq_ok {outcome : Except TokenError Unit} {now : Int} {key : PublicKey} :
    v.selectKey outcome keyID now = .ok key ↔
      v.keys.get keyID = some key ∧ now - v.fetchedAt ≤ v.maxStale := by
  unfold selectKey tooStale
  cases outcome with
  | error e =>
      cases hkey : v.keys.get keyID with
      | none => simp
      | some key' => by_cases hs : v.maxStale < now - v.fetchedAt <;> simp [hs] <;> omega
  | ok u =>
      cases hkey : v.keys.get keyID with
      | none => simp
      | some key' => by_cases hs : v.maxStale < now - v.fetchedAt <;> simp [hs] <;> omega

/-- Verification against the one key a token names. -/
theorem parse_single (hid : tokenKeyID lib r.raw = .ok keyID) (key : PublicKey) (now : Int) :
    parseAccessToken lib r.raw (KeySet.single keyID key) now = parseUnder lib r.raw key now := by
  simp [parseAccessToken, hid]

theorem parse_eq_ok (hid : tokenKeyID lib r.raw = .ok keyID) {claims : ReceivedClaims} :
    v.parse lib r = .ok claims ↔
      ∃ key, (v.after lib r).keys.get keyID = some key ∧
        r.now - (v.after lib r).fetchedAt ≤ (v.after lib r).maxStale ∧
        parseUnder lib r.raw key r.checkedAt = .ok claims := by
  have hafter : v.after lib r = (v.refreshed keyID r).2 := by simp [after, hid]
  rw [hafter]
  unfold parse
  simp only [hid, parse_single hid]
  -- the selected key decides; without one there is nothing to parse under
  cases hsel : (v.refreshed keyID r).2.selectKey (v.refreshed keyID r).1 keyID r.now with
  | error e =>
      constructor
      · intro h
        cases h
      rintro ⟨key, hkey, hfresh, _⟩
      have hok : (v.refreshed keyID r).2.selectKey (v.refreshed keyID r).1 keyID r.now = .ok key :=
        selectKey_eq_ok.2 ⟨hkey, hfresh⟩
      rw [hsel] at hok
      cases hok
  | ok key =>
      rcases selectKey_eq_ok.1 hsel with ⟨hkey, hfresh⟩
      constructor
      · intro h
        exact ⟨key, hkey, hfresh, h⟩
      · rintro ⟨key', hkey', _, h⟩
        rw [hkey] at hkey'
        cases hkey'
        exact h

/-- A token without a usable key id is refused. -/
theorem parse_without_keyID {e : TokenError} (hid : tokenKeyID lib r.raw = .error e) :
    v.parse lib r = .error e := by
  simp [parse, hid]

/-! ## Fetches -/

/-- The fetch a call makes. -/
def fetchOf (lib : Library) (v : RemoteVerifier) (r : Request) : Option (Fetch × Int) :=
  match tokenKeyID lib r.raw with
  | .error _ => none
  | .ok keyID => if v.refreshDue keyID r.now then some (r.fetch, r.fetchedAt) else none

/-- The fetches of a run, oldest first. -/
def fetches (lib : Library) : RemoteVerifier → List Request → List (Fetch × Int)
  | _, [] => []
  | v, r :: rest => (fetchOf lib v r).toList ++ fetches lib (v.after lib r) rest

/-- The valid document a fetch brings. -/
def document? : Fetch → Option JWKSet
  | .answered 200 (some document) =>
      match document.keySet with
      | .ok _ => some document
      | .error _ => none
  | _ => none

/-- The most recent fetch that brought a valid document, and when. -/
def latest (log : List (Fetch × Int)) : Option (JWKSet × Int) :=
  (log.filterMap fun f => (document? f.1).map fun d => (d, f.2)).getLast?

theorem document?_of_ok (h : f.keySet = .ok keys) :
    ∃ document, document? f = some document ∧ document.keySet = .ok keys := by
  cases f with
  | noRequest => cases h
  | unreachable => cases h
  | answered status body =>
      by_cases hstatus : status = 200
      · subst hstatus
        cases body with
        | none => cases h
        | some document =>
            have hdoc : document.keySet = .ok keys := h
            exact ⟨document, by simp [document?, hdoc], hdoc⟩
      · simp [Fetch.keySet, hstatus] at h

theorem document?_of_error {e : TokenError} (h : f.keySet = .error e) : document? f = none := by
  unfold document?
  split
  · rename_i document
    have hdoc : document.keySet = .error e := h
    rw [hdoc]
  · rfl

@[simp] theorem latest_snoc_some {document : JWKSet} (h : document? f = some document)
    (log : List (Fetch × Int)) : latest (log ++ [(f, t)]) = some (document, t) := by
  simp [latest, List.filterMap_append, h]

@[simp] theorem latest_snoc_none (h : document? f = none) (log : List (Fetch × Int)) :
    latest (log ++ [(f, t)]) = latest log := by
  simp [latest, List.filterMap_append, h]

/-! ## The verifier follows its fetches -/

/-- The verifier holds the keys of the latest document. -/
def Tracks (v : RemoteVerifier) (log : List (Fetch × Int)) : Prop :=
  v.maxStale = hour ∧
    ∃ document, latest log = some (document, v.fetchedAt) ∧ document.keySet = .ok v.keys

theorem tracks_after (lib : Library) (r : Request) (h : Tracks v log) :
    Tracks (v.after lib r) (log ++ (fetchOf lib v r).toList) := by
  unfold after fetchOf
  cases hid : tokenKeyID lib r.raw with
  | error e => simpa using h
  | ok keyID =>
      dsimp only
      rcases refreshed_cases v keyID r with ⟨hdue, hx⟩ | ⟨hdue, e, he, hx⟩ | ⟨hdue, keys, hkeys, hx⟩
      · rw [hx, hdue]
        simpa using h
      · rw [hx, hdue]
        rcases h with ⟨hstale, document, hlatest, hdoc⟩
        refine ⟨hstale, document, ?_, hdoc⟩
        rw [if_pos rfl, Option.toList_some, latest_snoc_none (document?_of_error he)]
        exact hlatest
      · rw [hx, hdue]
        rcases document?_of_ok hkeys with ⟨document, hdocument, hdoc⟩
        refine ⟨h.1, document, ?_, hdoc⟩
        rw [if_pos rfl, Option.toList_some, latest_snoc_some hdocument]
        rfl

theorem newRemoteVerifier_eq {parse : String → Option ParsedURL} {jwksURL : String}
    {fetch : Fetch} (hurl : checkURL parse jwksURL = .ok ()) (hkeys : fetch.keySet = .ok keys)
    (cacheLifetime t : Int) :
    newRemoteVerifier parse jwksURL cacheLifetime fetch t =
      .ok ((fresh cacheLifetime).installed keys t) := by
  simp [newRemoteVerifier, hurl, refreshLocked, hkeys, installed]

/-- A new verifier has made one fetch, which succeeded. -/
theorem newRemoteVerifier_ok {parse : String → Option ParsedURL} {jwksURL : String}
    {cacheLifetime : Int} {fetch : Fetch}
    (h : newRemoteVerifier parse jwksURL cacheLifetime fetch t = .ok v) :
    ∃ keys, fetch.keySet = .ok keys ∧ v = (fresh cacheLifetime).installed keys t := by
  unfold newRemoteVerifier at h
  cases hurl : checkURL parse jwksURL with
  | error e =>
      rw [hurl] at h
      cases h
  | ok u =>
      cases hkeys : fetch.keySet with
      | error e => simp [hurl, refreshLocked, hkeys] at h
      | ok keys =>
          have heq := newRemoteVerifier_eq hurl hkeys cacheLifetime t
          exact ⟨keys, rfl, Except.ok.inj (h.symm.trans heq)⟩

theorem tracks_new {parse : String → Option ParsedURL} {jwksURL : String} {cacheLifetime : Int}
    {fetch : Fetch} (h : newRemoteVerifier parse jwksURL cacheLifetime fetch t = .ok v) :
    Tracks v [(fetch, t)] := by
  rcases newRemoteVerifier_ok h with ⟨keys, hkeys, rfl⟩
  rcases document?_of_ok hkeys with ⟨document, hdocument, hdoc⟩
  exact ⟨rfl, document, latest_snoc_some hdocument [], hdoc⟩

theorem tracks_run (lib : Library) (h : Tracks v log) (calls : List Request) :
    Tracks (v.run lib calls) (log ++ fetches lib v calls) := by
  induction calls generalizing v log with
  | nil => simpa [fetches] using h
  | cons r calls ih =>
      have hstep := ih (tracks_after lib r h)
      simpa [fetches, List.append_assoc] using hstep

/-! ## Staleness and outages -/

/-- Every token accepted was verified under a key the latest document lists for its key id, at most
an hour after that document was fetched. -/
def AcceptsFresh (lib : Library) (v : RemoteVerifier) (log : List (Fetch × Int)) (r : Request) :
    Prop :=
  ∀ claims, v.parse lib r = .ok claims →
    ∃ document fetchedAt keyID key, latest (log ++ (fetchOf lib v r).toList) =
      some (document, fetchedAt) ∧
      tokenKeyID lib r.raw = .ok keyID ∧ document.Lists keyID key ∧
      parseAccessToken lib r.raw (KeySet.single keyID key) r.checkedAt = .ok claims ∧
      r.now - fetchedAt ≤ hour

/-- A failed fetch leaves the cached document alone. -/
def KeepsOnFailure (lib : Library) (v : RemoteVerifier) (r : Request) : Prop :=
  ∀ f t e, fetchOf lib v r = some (f, t) → f.keySet = .error e →
    (v.after lib r).keys = v.keys ∧ (v.after lib r).fetchedAt = v.fetchedAt ∧
      (v.after lib r).expiresAt = v.expiresAt

/-- Every call of the list meets an endpoint that is down. -/
def Outage (calls : List Request) : Prop :=
  ∀ r ∈ calls, ∃ e, r.fetch.keySet = .error e

/-- During an outage known keys are good for an hour and unknown ones are refused. -/
def ToleratesOutage (lib : Library) (v : RemoteVerifier) (log : List (Fetch × Int)) : Prop :=
  ∀ calls r, Outage (calls ++ [r]) →
    (∀ document fetchedAt keyID key claims, latest log = some (document, fetchedAt) →
      tokenKeyID lib r.raw = .ok keyID → v.keys.get keyID = some key →
      parseAccessToken lib r.raw (KeySet.single keyID key) r.checkedAt = .ok claims →
      r.now ≤ fetchedAt + hour → (v.run lib calls).parse lib r = .ok claims) ∧
    ∀ keyID, tokenKeyID lib r.raw = .ok keyID → v.keys.get keyID = none →
      ∃ e, (v.run lib calls).parse lib r = .error e

theorem acceptsFresh_of_tracks (h : Tracks v log) : AcceptsFresh lib v log r := by
  intro claims hparse
  rcases tracks_after lib r h with ⟨hstale, document, hlatest, hdoc⟩
  cases hid : tokenKeyID lib r.raw with
  | error e =>
      rw [parse_without_keyID hid] at hparse
      cases hparse
  | ok keyID =>
      rcases (parse_eq_ok hid).1 hparse with ⟨key, hkey, hage, hclaims⟩
      refine ⟨document, _, keyID, key, hlatest, rfl, keySet_listed hdoc hkey, ?_, ?_⟩
      · rw [parse_single hid]
        exact hclaims
      · rw [← hstale]
        exact hage

/-- A call that meets an outage changes at most the throttling marks. -/
theorem after_outage (lib : Library) (v : RemoteVerifier) {e : TokenError}
    (h : r.fetch.keySet = .error e) :
    (v.after lib r).keys = v.keys ∧ (v.after lib r).fetchedAt = v.fetchedAt ∧
      (v.after lib r).expiresAt = v.expiresAt ∧ (v.after lib r).maxStale = v.maxStale := by
  unfold after
  cases hid : tokenKeyID lib r.raw with
  | error e => exact ⟨rfl, rfl, rfl, rfl⟩
  | ok keyID =>
      dsimp only
      rcases refreshed_cases v keyID r with ⟨_, hx⟩ | ⟨_, _, _, hx⟩ | ⟨_, keys, hkeys, _⟩
      · rw [hx]
        exact ⟨rfl, rfl, rfl, rfl⟩
      · rw [hx]
        exact ⟨rfl, rfl, rfl, rfl⟩
      · rw [h] at hkeys
        cases hkeys

theorem keepsOnFailure (lib : Library) (v : RemoteVerifier) (r : Request) :
    KeepsOnFailure lib v r := by
  intro f t e hfetch hfails
  have hf : r.fetch = f := by
    unfold fetchOf at hfetch
    split at hfetch
    · cases hfetch
    · split at hfetch
      · exact (Prod.mk.inj (Option.some.inj hfetch)).1
      · cases hfetch
  subst hf
  rcases after_outage lib v hfails with ⟨hkeys, hfetched, hexpires, _⟩
  exact ⟨hkeys, hfetched, hexpires⟩

theorem run_outage (lib : Library) (v : RemoteVerifier) {calls : List Request} (h : Outage calls) :
    (v.run lib calls).keys = v.keys ∧ (v.run lib calls).fetchedAt = v.fetchedAt ∧
      (v.run lib calls).maxStale = v.maxStale := by
  induction calls generalizing v with
  | nil => exact ⟨rfl, rfl, rfl⟩
  | cons r calls ih =>
      rcases h r (by simp) with ⟨e, he⟩
      rcases after_outage lib v he with ⟨hkeys, hfetched, _, hstale⟩
      rcases ih (v.after lib r) fun q hq => h q (by simp [hq]) with ⟨hkeys', hfetched', hstale'⟩
      exact ⟨hkeys'.trans hkeys, hfetched'.trans hfetched, hstale'.trans hstale⟩

theorem toleratesOutage_of_tracks (h : Tracks v log) : ToleratesOutage lib v log := by
  intro calls r hout
  rcases h with ⟨hstale, document, hlatest, _⟩
  -- the outage before the call and the call itself leave the cached document alone
  have hrun := run_outage lib v hout
  rw [run_append, run_cons, run_nil] at hrun
  rcases hrun with ⟨hkeys, hfetched, hmax⟩
  refine ⟨?_, ?_⟩
  · intro document' fetchedAt keyID key claims hlatest' hid hkey hclaims hnow
    rw [hlatest] at hlatest'
    cases hlatest'
    rw [parse_single hid] at hclaims
    refine (parse_eq_ok hid).2 ⟨key, by rw [hkeys]; exact hkey, ?_, hclaims⟩
    rw [hfetched, hmax, hstale]
    omega
  · intro keyID hid hunknown
    cases hparse : (v.run lib calls).parse lib r with
    | error e => exact ⟨e, rfl⟩
    | ok claims =>
        rcases (parse_eq_ok hid).1 hparse with ⟨key, hkey, _⟩
        rw [hkeys, hunknown] at hkey
        cases hkey

/-- For every sequence of calls a verifier serves, at whatever instants and with whatever outcomes
of its fetches. -/
theorem remote_verifier_contract (lib : Library) {parse : String → Option ParsedURL}
    {jwksURL : String} {cacheLifetime : Int} {fetch : Fetch} {t : Int} {v₀ : RemoteVerifier}
    (hnew : newRemoteVerifier parse jwksURL cacheLifetime fetch t = .ok v₀)
    (calls : List Request) (r : Request) :
    AcceptsFresh lib (v₀.run lib calls) ((fetch, t) :: fetches lib v₀ calls) r ∧
      KeepsOnFailure lib (v₀.run lib calls) r ∧
      ToleratesOutage lib (v₀.run lib calls) ((fetch, t) :: fetches lib v₀ calls) := by
  have htracks : Tracks (v₀.run lib calls) ((fetch, t) :: fetches lib v₀ calls) :=
    tracks_run lib (tracks_new hnew) calls
  exact ⟨acceptsFresh_of_tracks htracks, keepsOnFailure lib _ r, toleratesOutage_of_tracks htracks⟩

/-! ## A healthy endpoint -/

/-- The call accepts a token, with the same claims, exactly when a direct verification does. -/
def Agrees (lib : Library) (v : RemoteVerifier) (keys : KeySet) (r : Request) : Prop :=
  ∀ claims, v.parse lib r = .ok claims ↔ parseAccessToken lib r.raw keys r.checkedAt = .ok claims

/-- A good token arrives more than an hour after the last fetch, while the cached document has not
expired. -/
def Stranded (lib : Library) (v : RemoteVerifier) (keys : KeySet) (r : Request) : Prop :=
  (∃ claims, parseAccessToken lib r.raw keys r.checkedAt = .ok claims) ∧
    v.fetchedAt + hour < r.now ∧ r.now ≤ v.expiresAt

/-- What a healthy endpoint, always answering with `keys`, makes of a verifier. -/
structure Current (keys : KeySet) (v : RemoteVerifier) : Prop where
  keys : v.keys = keys
  maxStale : v.maxStale = hour
  expiresAt : v.expiresAt = v.fetchedAt + v.cacheLifetime
  attempt : v.lastRefreshAttempt = 0 ∨ v.lastRefreshAttempt ≤ v.fetchedAt

theorem current_installed {now t : Int} (h : Current keys v) (hclock : now ≤ t) :
    Current keys ((v.marked keyID now).installed keys t) where
  keys := rfl
  maxStale := h.maxStale
  expiresAt := rfl
  attempt := .inr hclock

theorem current_after (lib : Library) (h : Current keys v) (hfetch : r.fetch.keySet = .ok keys)
    (hclock : r.now ≤ r.fetchedAt) :
    Current keys (v.after lib r) ∧ (v.after lib r).cacheLifetime = v.cacheLifetime := by
  unfold after
  cases hid : tokenKeyID lib r.raw with
  | error e => exact ⟨h, rfl⟩
  | ok keyID =>
      dsimp only
      rcases refreshed_cases v keyID r with ⟨_, hx⟩ | ⟨_, e, he, _⟩ | ⟨_, keys', hkeys, hx⟩
      · rw [hx]
        exact ⟨h, rfl⟩
      · rw [hfetch] at he
        cases he
      · rw [hfetch] at hkeys
        cases hkeys
        rw [hx]
        exact ⟨current_installed h hclock, rfl⟩

theorem current_run (lib : Library) (h : Current keys v) {calls : List Request}
    (hfetch : ∀ r ∈ calls, r.fetch.keySet = .ok keys) (hclock : ∀ r ∈ calls, r.now ≤ r.fetchedAt) :
    Current keys (v.run lib calls) ∧ (v.run lib calls).cacheLifetime = v.cacheLifetime := by
  induction calls generalizing v with
  | nil => exact ⟨h, rfl⟩
  | cons r calls ih =>
      rcases current_after lib h (hfetch r (by simp)) (hclock r (by simp)) with ⟨hstep, hlife⟩
      rcases ih hstep (fun q hq => hfetch q (by simp [hq])) fun q hq => hclock q (by simp [hq])
        with ⟨hrun, hlife'⟩
      exact ⟨hrun, hlife'.trans hlife⟩

/-- The cached document is too old for a call exactly when the call comes in the gap between an hour
after the fetch and the expiry. -/
theorem too_old_iff (h : Current keys v) (hfetch : r.fetch.keySet = .ok keys)
    (hclock : r.now ≤ r.fetchedAt) (hid : tokenKeyID lib r.raw = .ok keyID)
    (hknown : (keys.get keyID).isSome) :
    hour < r.now - (v.after lib r).fetchedAt ↔ v.fetchedAt + hour < r.now ∧
    r.now ≤ v.expiresAt := by
  have hafter : v.after lib r = (v.refreshed keyID r).2 := by simp [after, hid]
  have hsome : (v.keys.get keyID).isNone = false := by
    rw [h.keys]
    cases hkey : keys.get keyID with
    | none =>
        rw [hkey] at hknown
        cases hknown
    | some key => rfl
  rw [hafter]
  rcases refreshed_cases v keyID r with ⟨hdue, hx⟩ | ⟨_, e, he, _⟩ | ⟨hdue, keys', _, hx⟩
  · -- no refresh: not expired, or an attempt within the last seconds, which succeeded
    rw [hx]
    simp only [refreshDue, hsome, Bool.false_and, Bool.or_false, Bool.and_eq_false_iff,
      Bool.or_eq_false_iff, decide_eq_false_iff_not] at hdue
    have hattempt := h.attempt
    simp only [retryInterval, hour, minute, second] at *
    omega
  · rw [hfetch] at he
    cases he
  · -- a refresh makes the document as recent as can be, and happens only after the expiry
    rw [hx]
    simp only [refreshDue, hsome, Bool.false_and, Bool.or_false, Bool.and_eq_true,
      decide_eq_true_eq] at hdue
    have hfetched : ((v.marked keyID r.now).installed keys' r.fetchedAt).fetchedAt =
      r.fetchedAt := rfl
    simp only [hfetched, hour, minute, second] at *
    omega

theorem agrees_iff_not_stranded (h : Current keys v) (hfetch : r.fetch.keySet = .ok keys)
    (hclock : r.now ≤ r.fetchedAt) : Agrees lib v keys r ↔ ¬ Stranded lib v keys r := by
  cases hid : tokenKeyID lib r.raw with
  | error e =>
      have hdirect : parseAccessToken lib r.raw keys r.checkedAt = .error e := by
        simp [parseAccessToken, hid]
      simp [Agrees, Stranded, parse_without_keyID hid, hdirect]
  | ok keyID =>
      have hafter := (current_after lib h hfetch hclock).1
      cases hkey : keys.get keyID with
      | none =>
          have hdirect : ∀ claims, parseAccessToken lib r.raw keys r.checkedAt ≠ .ok claims := by
            intro claims hok
            simp [parseAccessToken, hid, hkey] at hok
          -- the cache holds the document's keys, so it does not know the id either
          have hremote : ∀ claims, v.parse lib r ≠ .ok claims := by
            intro claims hok
            rcases (parse_eq_ok hid).1 hok with ⟨key, hget, _⟩
            rw [hafter.keys, hkey] at hget
            cases hget
          simp [Agrees, Stranded, hdirect, hremote]
      | some key =>
          have hdirect : parseAccessToken lib r.raw keys r.checkedAt =
              parseUnder lib r.raw key r.checkedAt := by
            simp [parseAccessToken, hid, hkey]
          have hremote : ∀ claims, v.parse lib r = .ok claims ↔
              r.now - (v.after lib r).fetchedAt ≤ hour ∧
                parseUnder lib r.raw key r.checkedAt = .ok claims := by
            intro claims
            rw [parse_eq_ok hid, hafter.keys, hafter.maxStale, hkey]
            simp
          -- both look at the same key, and differ only where the cache is too old to be used
          have hold := too_old_iff h hfetch hclock hid (by simp [hkey])
          unfold Agrees Stranded
          simp only [hremote, hdirect, ← hold]
          constructor
          · rintro hagrees ⟨⟨claims, hok⟩, hlate⟩
            have hage := ((hagrees claims).2 hok).1
            omega
          · intro hnot claims
            refine ⟨fun hboth => hboth.2, fun hok => ⟨?_, hok⟩⟩
            by_contra hlate
            exact hnot ⟨⟨claims, hok⟩, by omega⟩

/-- With an endpoint that always answers with the same valid document, a call agrees with a direct
verification against the document's keys exactly when it is not stranded, and no call is when the
cache lifetime is at most an hour. -/
theorem remote_agrees_iff (lib : Library) {parse : String → Option ParsedURL} {jwksURL : String}
    {cacheLifetime : Int} {document : JWKSet} {keys : KeySet} {t : Int} {v₀ : RemoteVerifier}
    (hkeys : document.keySet = .ok keys)
    (hnew : newRemoteVerifier parse jwksURL cacheLifetime (.answered 200 (some document)) t =
      .ok v₀)
    (calls : List Request) (r : Request)
    (hhealthy : ∀ q ∈ calls ++ [r], q.fetch = .answered 200 (some document))
    (hclock : ∀ q ∈ calls ++ [r], q.now ≤ q.fetchedAt) :
    (Agrees lib (v₀.run lib calls) keys r ↔ ¬ Stranded lib (v₀.run lib calls) keys r) ∧
      (effectiveLifetime cacheLifetime ≤ hour → ¬ Stranded lib (v₀.run lib calls) keys r) := by
  have hfetch : ∀ q ∈ calls ++ [r], q.fetch.keySet = .ok keys := by
    intro q hq
    rw [hhealthy q hq]
    exact hkeys
  rcases newRemoteVerifier_ok hnew with ⟨keys', hkeys', rfl⟩
  have hsame : keys' = keys := Except.ok.inj (hkeys'.symm.trans hkeys)
  subst hsame
  have hstart : Current keys' ((fresh cacheLifetime).installed keys' t) :=
    ⟨rfl, rfl, rfl, .inl rfl⟩
  have hcalls : ∀ q ∈ calls, q ∈ calls ++ [r] := fun q hq => List.mem_append_left _ hq
  rcases current_run lib hstart (fun q hq => hfetch q (hcalls q hq))
    (fun q hq => hclock q (hcalls q hq)) with ⟨hrun, hlife⟩
  refine ⟨agrees_iff_not_stranded hrun (hfetch r (by simp)) (hclock r (by simp)), ?_⟩
  -- an entry that has not expired is then at most an hour old
  rintro hshort ⟨_, hlate, hunexpired⟩
  have hlifetime : ((fresh cacheLifetime).installed keys' t).cacheLifetime =
      effectiveLifetime cacheLifetime := rfl
  rw [hrun.expiresAt, hlife, hlifetime] at hunexpired
  omega

/-! ## A small deployment

One published key and one token signed with it, which expires late. -/

def toyJWK : JWK where
  keyType := "RSA"
  use := "sig"
  alg := "RS256"
  keyID := "k1"
  modulus := String.ofList ('g' :: List.replicate 341 'A')
  exponent := "AQAB"

def toyDocument : JWKSet := ⟨[toyJWK]⟩

def toyKey : PublicKey := ⟨2 ^ 2047, 65537⟩

def toyKeys : KeySet := Table.empty.put ⟨"k1", toyKey⟩

def toyLibrary : Library where
  parseUnverified raw :=
    if raw = "token" then
      some ⟨"RS256", some "k1", ⟨"orbit-auth", "ann", some (9 * hour), none, none, ""⟩⟩
    else none
  verifySignature _ key := key = toyKey

def toyURL (_ : String) : Option ParsedURL :=
  some ⟨"https", "auth", "auth", "", false⟩

/-- The endpoint answers with the document. -/
def toyFetch : Fetch := .answered 200 (some toyDocument)

/-- The verifier that fetched the document at one o'clock. -/
def toyVerifier (cacheLifetime : Int) : RemoteVerifier :=
  (fresh cacheLifetime).installed toyKeys hour

/-- The token arrives at `now`; the endpoint behaves as `fetch` says. -/
def toyRequest (now : Int) (fetch : Fetch) : Request :=
  ⟨"token", now, fetch, now, now⟩

theorem toyDocument_keySet : toyDocument.keySet = .ok toyKeys := by
  have hdecode : Base64.decode toyJWK.modulus = some (128 :: List.replicate 255 0) := by
    unfold Base64.decode toyJWK
    rw [String.toList_ofList]
    decide +kernel
  have hkey : toyJWK.publicKey = .ok toyKey := by
    unfold JWK.publicKey
    rw [hdecode]
    decide +kernel
  simp only [toyDocument, JWKSet.keySet, collect, hkey]
  rfl

theorem toyVerifier_new (cacheLifetime : Int) :
    newRemoteVerifier toyURL "https://auth" cacheLifetime toyFetch hour =
      .ok (toyVerifier cacheLifetime) := by
  have hurl : checkURL toyURL "https://auth" = .ok () := by decide +kernel
  have hfetch : toyFetch.keySet = .ok toyKeys := by
    rw [← toyDocument_keySet]
    simp [toyFetch, Fetch.keySet]
  exact newRemoteVerifier_eq hurl hfetch cacheLifetime hour

/-- Half an hour into an outage the token is still accepted. -/
theorem remote_verifier_contract_outage :
    (toyVerifier 0).parse toyLibrary (toyRequest (hour + 30 * minute) .unreachable) =
        .ok ⟨"orbit-auth", "ann", some (9 * hour), none, none, ""⟩ ∧
      AcceptsFresh toyLibrary (toyVerifier 0) [(toyFetch, hour)]
        (toyRequest (hour + 30 * minute) .unreachable) := by
  refine ⟨by decide +kernel, ?_⟩
  have h := (remote_verifier_contract toyLibrary (toyVerifier_new 0) []
    (toyRequest (hour + 30 * minute) .unreachable)).1
  rwa [run_nil, fetches] at h

/-- With the default lifetime a call two hours later agrees, after a refresh. -/
theorem remote_agrees_iff_default :
    parseAccessToken toyLibrary "token" toyKeys (3 * hour) =
        .ok ⟨"orbit-auth", "ann", some (9 * hour), none, none, ""⟩ ∧
      Agrees toyLibrary (toyVerifier 0) toyKeys (toyRequest (3 * hour) toyFetch) := by
  refine ⟨by decide +kernel, ?_⟩
  have h := remote_agrees_iff toyLibrary toyDocument_keySet (toyVerifier_new 0) []
    (toyRequest (3 * hour) toyFetch) (by simp [toyRequest, toyFetch]) (by simp [toyRequest])
  exact h.1.2 (h.2 (by decide))

/-- With a lifetime of three hours a call two hours later is refused although the endpoint is
healthy and the token is good. -/
theorem remote_refuses_known_key :
    newRemoteVerifier toyURL "https://auth" (3 * hour) toyFetch hour =
        .ok (toyVerifier (3 * hour)) ∧
      (toyVerifier (3 * hour)).parse toyLibrary (toyRequest (3 * hour) toyFetch) =
        .error (.message "cached Orbit JWKS exceeded its maximum stale age") ∧
      parseAccessToken toyLibrary "token" toyKeys (3 * hour) =
        .ok ⟨"orbit-auth", "ann", some (9 * hour), none, none, ""⟩ := by
  exact ⟨toyVerifier_new _, by decide +kernel, by decide +kernel⟩

end RemoteVerifier
end Token
end OrbitAuth
