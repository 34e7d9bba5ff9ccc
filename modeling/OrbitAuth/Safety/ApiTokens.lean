import OrbitAuth.Foundations.Base64
import OrbitAuth.Service.Steps

/-!
# ApiTokens — does a token validate exactly while it is live?

For its holder an API token is a text that stands for an owner and some scopes until the owner
revokes it or it expires.  The ledger (`auditAll`) is that view: what creations and revocations have
handed out, read off the calls and their answers alone.  The service looks tokens up by the first
eight characters of the secret and takes the newest row that is not revoked, so the table agrees
with the ledger but the lookup need not.

* `audit_agrees` — along every history the table holds exactly the tokens of the ledger;
* `token_validates_iff` — a token is answered as the ledger says exactly when no other token in
  force shares its first eight characters and is as new;
* `rival_token_wins` — two tokens for which it is not.
-/

namespace OrbitAuth
namespace Service
namespace ApiTokens

open Domain Foundations Postgres

variable {raw : String}

/-! ## Token texts -/

/-- The first characters of a secret, by which the table is searched. -/
def box (raw : String) : String :=
  String.ofList (raw.toList.take apiTokenPrefixLength)

/-- 43 characters of the URL-safe base64 alphabet. -/
def isSecret (raw : String) : Bool :=
  raw.toList.length = 43 && raw.toList.all fun c => (Base64.sextet? c).isSome

/-- A digit is neither a space nor a dot, and one byte long. -/
theorem digit_plain {c : Char} (h : (Base64.sextet? c).isSome = true) :
    isSpace c = false ∧ c ≠ '.' ∧ c.utf8Size = 1 := by
  -- the five ranges of the alphabet
  have hn : 45 ≤ c.toNat ∧ c.toNat ≤ 122 ∧ c.toNat ≠ 46 := by
    unfold Base64.sextet? at h
    dsimp only at h
    split at h
    · omega
    · split at h
      · omega
      · split at h
        · omega
        · split at h
          · rename_i hc
            subst hc
            decide
          · split at h
            · rename_i hc
              subst hc
              decide
            · cases h
  refine ⟨?_, ?_, ?_⟩
  · simp [isSpace]
    omega
  · rintro rfl
    exact hn.2.2 rfl
  · have hval : c.val.toNat ≤ 127 := by
      have : c.val.toNat = c.toNat := rfl
      omega
    exact Char.utf8Size_eq_one_iff.mpr (by simpa [UInt32.le_iff_toNat_le] using hval)

theorem utf8ByteSize_ofList {cs : List Char} (h : ∀ c ∈ cs, c.utf8Size = 1) :
    (String.ofList cs).utf8ByteSize = cs.length := by
  induction cs with
  | nil => rfl
  | cons c cs ih =>
      have hrest := ih fun d hd => h d (List.mem_cons_of_mem c hd)
      have hhead := h c List.mem_cons_self
      simp [String.ofList_cons, hrest, hhead, Nat.add_comm]

theorem secret_plain (h : isSecret raw = true) {c : Char} (hc : c ∈ raw.toList) :
    isSpace c = false ∧ c ≠ '.' ∧ c.utf8Size = 1 := by
  simp only [isSecret, Bool.and_eq_true, List.all_eq_true] at h
  exact digit_plain (h.2 c hc)

theorem secret_length (h : isSecret raw = true) : raw.toList.length = 43 := by
  simp only [isSecret, Bool.and_eq_true, decide_eq_true_eq] at h
  exact h.1

/-- The text handed out is the scheme and the two halves of the secret. -/
theorem toList_tokenText (raw : String) : (tokenText raw).toList =
    apiTokenScheme.toList ++ (raw.toList.take 8 ++ '.' :: raw.toList.drop 8) := by
  simp [tokenText, apiTokenPrefixLength]

/-- The two halves of a secret hold no spaces. -/
theorem halves_plain (h : isSecret raw = true) :
    ∀ c ∈ raw.toList.take 8 ++ '.' :: raw.toList.drop 8, isSpace c = false := by
  intro c hc
  simp only [List.mem_append, List.mem_cons] at hc
  rcases hc with hc | rfl | hc
  · exact (secret_plain h (List.mem_of_mem_take hc)).1
  · decide
  · exact (secret_plain h (List.mem_of_mem_drop hc)).1

theorem tokenText_plain (h : isSecret raw = true) :
    ∀ c ∈ (tokenText raw).toList, isSpace c = false := by
  have hclean : apiTokenScheme.toList.all (fun c => !isSpace c) = true := by decide
  intro c hc
  rw [toList_tokenText] at hc
  rcases List.mem_append.mp hc with hc | hc
  · simpa using List.all_eq_true.mp hclean c hc
  · exact halves_plain h c hc

/-- What is left after the scheme splits at the dot. -/
theorem splitToken_halves {raw text : String} (h : isSecret raw = true)
    (htext : trimScheme (trimSpace text) = raw.toList.take 8 ++ '.' :: raw.toList.drop 8) :
    ∃ rest, splitToken text = some (box raw, rest) ∧ box raw ++ rest = raw := by
  have hspan : (raw.toList.take 8 ++ '.' :: raw.toList.drop 8).span (fun c => c != '.') =
      (raw.toList.take 8, '.' :: raw.toList.drop 8) := by
    -- the first half has no dot, so the first dot is the one between the halves
    have hnodot : ∀ c ∈ raw.toList.take 8, (c != '.') = true := by
      intro c hc
      simpa using (secret_plain h (List.mem_of_mem_take hc)).2.1
    rw [List.span_eq_takeWhile_dropWhile, List.takeWhile_append_of_pos hnodot,
      List.dropWhile_append_of_pos hnodot]
    simp
  have hsize : (String.ofList (raw.toList.take 8)).utf8ByteSize = 8 := by
    rw [utf8ByteSize_ofList fun c hc => (secret_plain h (List.mem_of_mem_take hc)).2.2,
      List.length_take, secret_length h]
    rfl
  have hrest : (raw.toList.drop 8).isEmpty = false := by
    rw [List.isEmpty_eq_false_iff, ← List.length_pos_iff, List.length_drop, secret_length h]
    decide
  refine ⟨String.ofList (raw.toList.drop 8), ?_, ?_⟩
  · unfold splitToken
    rw [htext, hspan]
    dsimp only
    rw [hsize, hrest]
    rfl
  · rw [box, apiTokenPrefixLength, ← String.ofList_append, List.take_append_drop,
      String.ofList_toList]

/-- The text handed out for a secret is taken apart into the secret again. -/
theorem splitToken_tokenText (h : isSecret raw = true) :
    ∃ rest, splitToken (tokenText raw) = some (box raw, rest) ∧ box raw ++ rest = raw := by
  refine splitToken_halves h ?_
  rw [trimSpace_eq_self (tokenText_plain h)]
  unfold trimScheme
  rw [toList_tokenText, if_pos (by simp), List.drop_left]

/-! ## The ledger -/

/-- One token handed out: the text its holder has, the secret in it, and what it stands for. -/
structure Entry where
  text : String
  raw : String
  id : String
  owner : String
  scopes : Option (List String)
  expiresAt : Option Time
  createdAt : Time
  revoked : Bool
  deriving DecidableEq

/-- Not revoked, and the expiry, if there is one, has not passed. -/
def Entry.live (x : Entry) (t : Time) : Bool :=
  !x.revoked && x.expiresAt.all fun e => t ≤ e

/-- The canonical text of an identifier. -/
def canonical (text : String) : String :=
  ((Uuid.parse text).map Uuid.string).getD text

theorem canonical_eq {text : String} {u : Uuid} (h : Uuid.parse text = some u) :
    canonical text = u.string := by
  simp [canonical, h]

/-- A revocation counts when it names the token and comes from its owner. -/
def Entry.revokeBy (owner id : String) (x : Entry) : Entry :=
  if x.owner = owner && x.id = id then { x with revoked := true } else x

/-- What a call adds to the ledger, by its answer. -/
def record (call : Call) (choices : Nat → Choice) (res : Except Err Reply × World)
    (ledger : List Entry) : List Entry :=
  match call, res.1 with
  | .createApiToken user _ scopes expires, .ok (.created token) =>
      ledger ++ [{ text := token.secret, raw := (choices 0).secret, id := canonical token.tokenID,
                   owner := canonical user, scopes := scopes, expiresAt := expires,
                   createdAt := res.2.now, revoked := false }]
  | .revokeApiToken user tokenID, .ok _ =>
      ledger.map (Entry.revokeBy (canonical user) (canonical tokenID))
  | _, _ => ledger

/-- Creations and revocations one after the other, each with what the environment decides in it. -/
abbrev History := List (Call × (Nat → Choice))

def isTokenCall : Call → Bool
  | .createApiToken _ _ _ _ | .revokeApiToken _ _ => true
  | _ => false

def audit (cfg : Config) (s : World × List Entry) (i : Call × (Nat → Choice)) :
    World × List Entry :=
  ((i.1.perform cfg i.2 s.1).2, record i.1 i.2 (i.1.perform cfg i.2 s.1) s.2)

/-- The world after the calls, and the ledger. -/
def auditAll (cfg : Config) (w : World) (history : History) : World × List Entry :=
  history.foldl (audit cfg) (w, [])

/-! ## What the calls do -/

section Calls

variable (cfg : Config)

/-- A creation fails and leaves the tokens alone, or hands out the text of a new row. -/
theorem createApiToken_cases (user name : String) (scopes : Option (List String))
    (expires : Option Time) (cs : Nat → Choice) (w : World) :
    let res := (Call.createApiToken user name scopes expires).perform cfg cs w
    ((∃ e, res.1 = .error e) ∧ res.2.db.apiTokens = w.db.apiTokens) ∨
      ∃ token tid uid l salt, res.1 = .ok (.created token) ∧
        token.secret = tokenText (cs 0).secret ∧ token.tokenID = tid.string ∧
        Uuid.parse user = some uid ∧ scopes = some l ∧ (∀ r ∈ w.db.apiTokens, r.id ≠ tid) ∧
        res.2.db.apiTokens = w.db.apiTokens.put ⟨tid, uid, name, box (cs 0).secret,
          cfg.env.hash salt (cs 0).secret, l, expires, none, res.2.now⟩ := by
  intro res
  have hrun : res = ((Service.createApiToken user name scopes expires).bind
      fun token => .done (.created token)).run (exec cfg.env) cs w := rfl
  simp only [createApiToken, Program.bind_eq, Program.pure_eq, Program.bind_assoc, run_failIf,
    run_newSecret, run_hash, run_newID] at hrun
  -- the three checks and draws that can end the call before anything is stored
  split at hrun
  · exact .inl (by rw [hrun]; exact ⟨⟨_, rfl⟩, rfl⟩)
  · split at hrun
    · exact .inl (by rw [hrun]; exact ⟨⟨_, rfl⟩, rfl⟩)
    · split at hrun
      · exact .inl (by rw [hrun]; exact ⟨⟨_, rfl⟩, rfl⟩)
      · replace hrun := hrun.trans (run_store cfg.env _ _ _ _)
        generalize hw :
          ((w.advance (cs 0).now).advance (cs (0 + 1)).now).advance
            (cs (0 + 1 + 1)).now = w₃ at hrun
        have hdb : w₃.db = w.db := by rw [← hw]; rfl
        split at hrun
        · rename_i v w' hx
          have hv := exec_store_ok (congrArg Prod.fst hx)
          obtain ⟨tid, uid, l, hid, huser, hscopes, hfree, hput⟩ := Store.exec_createToken_ok hv.1
          rw [Uuid.parse_string, Option.some.injEq] at hid
          subst hid
          refine .inr ⟨_, _, uid, l, (cs (0 + 1)).salt, congrArg Prod.fst hrun, rfl, rfl,
            huser, hscopes, hdb ▸ hfree, ?_⟩
          -- the row is dated with the clock of its insert
          have hnow : w'.now = _ := (congrArg (·.2.now) hx).symm.trans (exec_now cfg.env _ _ _)
          have hdb' : w'.db = _ := (congrArg (·.2.db) hx).symm.trans hv.2
          rw [hrun, Program.done_bind, Program.run_done, hnow, hdb', hput, hdb]
          rfl
        · rename_i e w' hx
          refine .inl ⟨⟨e, congrArg Prod.fst hrun⟩, ?_⟩
          have hsame := exec_store_error (congrArg Prod.fst hx)
          rw [hx] at hsame
          rw [hrun, hsame, hdb]

/-- A revocation fails and leaves the tokens alone, or retires the token of that owner. -/
theorem revokeApiToken_cases (user tokenID : String) (cs : Nat → Choice) (w : World) :
    let res := (Call.revokeApiToken user tokenID).perform cfg cs w
    ((∃ e, res.1 = .error e) ∧ res.2.db.apiTokens = w.db.apiTokens) ∨
      ∃ tid uid t, res.1 = .ok .none ∧ Uuid.parse tokenID = some tid ∧ Uuid.parse user = some uid ∧
        res.2.db.apiTokens = w.db.apiTokens.update
          (fun r => r.id = tid && r.userID = uid && r.revokedAt.isNone)
          (APITokenRow.retired t) := by
  intro res
  have hrun : res = ((Service.revokeApiToken user tokenID).bind fun _ => .done .none).run
      (exec cfg.env) cs w := rfl
  simp only [revokeApiToken, Program.bind_eq, Program.bind_assoc, run_failIf] at hrun
  split at hrun
  · exact .inl (by rw [hrun]; exact ⟨⟨_, rfl⟩, rfl⟩)
  -- an owner that is not the caller is a row that does not match, and that is no error
  · replace hrun := hrun.trans (run_store cfg.env _ _ _ _)
    split at hrun
    · rename_i v w' hx
      have hv := exec_store_ok (congrArg Prod.fst hx)
      obtain ⟨tid, uid, hid, huser, hupdate⟩ := Store.exec_revokeToken_ok hv.1
      have hdb : w'.db = _ := (congrArg (·.2.db) hx).symm.trans hv.2
      refine .inr ⟨tid, uid, max w.now (cs 0).now, congrArg Prod.fst hrun, hid, huser, ?_⟩
      rw [hrun, Program.run_done, hdb, hupdate]
    · rename_i e w' hx
      refine .inl ⟨⟨e, congrArg Prod.fst hrun⟩, ?_⟩
      have hsame := exec_store_error (congrArg Prod.fst hx)
      rw [hx] at hsame
      rw [hrun, hsame]

end Calls

/-! ## The table and the ledger -/

/-- The row of an entry. -/
structure Matches (env : Env) (x : Entry) (r : APITokenRow) : Prop where
  text : x.text = tokenText x.raw
  box : r.tokenPrefix = box x.raw
  hash : ∃ salt, r.tokenHash = env.hash salt x.raw
  id : x.id = r.id.string
  owner : x.owner = r.userID.string
  scopes : x.scopes = some r.scopes
  expires : x.expiresAt = r.expiresAt
  created : x.createdAt = r.createdAt
  revoked : x.revoked = r.revokedAt.isSome

/-- The table holds the tokens of the ledger and no others. -/
structure Agrees (env : Env) (ledger : List Entry) (t : Table APITokenRow) : Prop where
  stored : ∀ x ∈ ledger, ∃ r ∈ t, Matches env x r
  issued : ∀ r ∈ t, ∃ x ∈ ledger, Matches env x r

section Agrees

variable {env : Env} {ledger : List Entry} {t : Table APITokenRow}

theorem agrees_put (h : Agrees env ledger t) {x : Entry} {r : APITokenRow} (hx : Matches env x r)
    (hfree : ∀ s ∈ t, s.id ≠ r.id) : Agrees env (ledger ++ [x]) (t.put r) := by
  constructor
  · intro y hy
    rcases List.mem_append.mp hy with hy | hy
    · obtain ⟨s, hs, hmatches⟩ := h.stored y hy
      exact ⟨s, mem_put.mpr (.inr ⟨hs, hfree s hs⟩), hmatches⟩
    · obtain rfl := List.mem_singleton.mp hy
      exact ⟨r, mem_put.mpr (.inl rfl), hx⟩
  · intro s hs
    rcases mem_put.mp hs with rfl | ⟨hs, _⟩
    · exact ⟨x, by simp, hx⟩
    · obtain ⟨y, hy, hmatches⟩ := h.issued s hs
      exact ⟨y, List.mem_append_left _ hy, hmatches⟩

/-- Revoking an entry and retiring its row. -/
theorem matches_revoke {x : Entry} {r : APITokenRow} (h : Matches env x r) (uid tid : Uuid)
    (now : Time) :
    Matches env (x.revokeBy uid.string tid.string)
      (if r.id = tid && r.userID = uid && r.revokedAt.isNone then r.retired now else r) := by
  have howner : x.owner = uid.string ↔ r.userID = uid := by
    rw [h.owner]
    exact ⟨Uuid.string_injective, congrArg Uuid.string⟩
  have hid : x.id = tid.string ↔ r.id = tid := by
    rw [h.id]
    exact ⟨Uuid.string_injective, congrArg Uuid.string⟩
  -- both sides look at the identifier and the owner, and revoking twice changes nothing
  by_cases hnamed : r.id = tid ∧ r.userID = uid
  · have hentry : x.revokeBy uid.string tid.string = { x with revoked := true } := by
      simp [Entry.revokeBy, howner.mpr hnamed.2, hid.mpr hnamed.1]
    rw [hentry]
    cases hrevoked : r.revokedAt with
    | none =>
        rw [if_pos (by simp [hnamed])]
        exact { h with revoked := rfl }
    | some t =>
        rw [if_neg (by simp)]
        exact { h with revoked := by simp [hrevoked] }
  · have hentry : x.revokeBy uid.string tid.string = x := by
      refine if_neg ?_
      simp only [Bool.and_eq_true, decide_eq_true_eq, howner, hid]
      exact fun hboth => hnamed hboth.symm
    have hrow :
        ¬ (decide (r.id = tid) && decide (r.userID = uid) && r.revokedAt.isNone) = true := by
      simp only [Bool.and_eq_true, decide_eq_true_eq]
      exact fun hboth => hnamed hboth.1
    rw [hentry, if_neg hrow]
    exact h

theorem agrees_revoke (h : Agrees env ledger t) (uid tid : Uuid) (now : Time) :
    Agrees env (ledger.map (Entry.revokeBy uid.string tid.string))
      (t.update (fun r => r.id = tid && r.userID = uid && r.revokedAt.isNone)
        (APITokenRow.retired now)) := by
  constructor
  · intro y hy
    obtain ⟨x, hx, rfl⟩ := List.mem_map.mp hy
    obtain ⟨r, hr, hmatches⟩ := h.stored x hx
    exact ⟨_, update_mem (key_retired now) hr, matches_revoke hmatches uid tid now⟩
  · intro s hs
    -- every row of the updated table is where some row of the old one went
    obtain ⟨r, hr, rfl⟩ : ∃ r ∈ t, (if r.id = tid && r.userID = uid && r.revokedAt.isNone then
        r.retired now else r) = s := by
      rcases (mem_update (key_retired now)).mp hs with ⟨r, hr, hp, hs⟩ | ⟨hs, hp⟩
      · exact ⟨r, hr, (if_pos hp).trans hs⟩
      · exact ⟨s, hs, if_neg (by rw [hp]; exact Bool.false_ne_true)⟩
    obtain ⟨x, hx, hmatches⟩ := h.issued r hr
    exact ⟨_, List.mem_map_of_mem hx, matches_revoke hmatches uid tid now⟩

/-- One call of the history. -/
theorem perform_agrees (cfg : Config) {call : Call} (hcall : isTokenCall call = true)
    (cs : Nat → Choice) (w : World) (h : Agrees cfg.env ledger w.db.apiTokens) :
    Agrees cfg.env (record call cs (call.perform cfg cs w) ledger)
      (call.perform cfg cs w).2.db.apiTokens := by
  cases call with
  | createApiToken user name scopes expires =>
      rcases createApiToken_cases cfg user name scopes expires cs w with
        ⟨⟨e, herror⟩, hsame⟩ | ⟨token, tid, uid, l, salt, hok, htext, hid, huser,
          hscopes, hfree, hput⟩
      -- a creation that failed is not in the ledger
      · simp only [record, herror]
        rw [hsame]
        exact h
      · simp only [record, hok]
        rw [hput]
        refine agrees_put h ?_ hfree
        exact { text := htext
                box := rfl
                hash := ⟨salt, rfl⟩
                id := canonical_eq (hid ▸ Uuid.parse_string tid)
                owner := canonical_eq huser
                scopes := hscopes
                expires := rfl
                created := rfl
                revoked := rfl }
  | revokeApiToken user tokenID =>
      rcases revokeApiToken_cases cfg user tokenID cs w with
        ⟨⟨e, herror⟩, hsame⟩ | ⟨tid, uid, t, hok, hid, huser, hupdate⟩
      · simp only [record, herror]
        rw [hsame]
        exact h
      · simp only [record, hok]
        rw [hupdate, canonical_eq hid, canonical_eq huser]
        exact agrees_revoke h uid tid t
  | _ => cases hcall

end Agrees

/-- Along every history the table holds exactly the tokens of the ledger. -/
theorem audit_agrees (cfg : Config) {w : World} (hempty : w.db.apiTokens = Table.empty)
    {history : History} (hcalls : ∀ i ∈ history, isTokenCall i.1 = true) :
    Agrees cfg.env (auditAll cfg w history).2 (auditAll cfg w history).1.db.apiTokens := by
  have hstart : Agrees cfg.env [] w.db.apiTokens := by
    rw [hempty]
    exact ⟨fun x hx => absurd hx List.not_mem_nil, fun r hr => absurd hr (not_mem_empty r)⟩
  unfold auditAll
  generalize ([] : List Entry) = ledger at hstart ⊢
  clear hempty
  induction history generalizing w ledger with
  | nil => exact hstart
  | cons i history ih =>
      refine ih (fun j hj => hcalls j (List.mem_cons_of_mem i hj)) _ ?_
      exact perform_agrees cfg (hcalls i List.mem_cons_self) i.2 w hstart

/-! ## Validation -/

/-- The rows the lookup chooses from. -/
def candidates (db : DB) (tokenPrefix : String) : List APITokenRow :=
  newest APITokenRow.createdAt (db.apiTokens.select fun t =>
    t.tokenPrefix = tokenPrefix && t.revokedAt.isNone)

theorem mem_candidates {db : DB} {tokenPrefix : String} {r : APITokenRow} :
    r ∈ candidates db tokenPrefix ↔ r ∈ db.apiTokens ∧ r.tokenPrefix = tokenPrefix ∧
    r.revokedAt = none ∧
      ∀ s ∈ db.apiTokens, s.tokenPrefix = tokenPrefix → s.revokedAt = none → s.createdAt ≤
        r.createdAt := by
  simp [candidates, newest, and_assoc]

/-- What a row answers to a token: its owner and scopes, if it has not expired and carries the
secret. -/
def answerOf (env : Env) (r : APITokenRow) (full : String) (t : Time) : Except Err Reply :=
  if (r.expiresAt.all fun e => t ≤ e) && env.compare r.tokenHash full then
    .ok (.identity r.userID.string (some r.scopes))
  else .error .invalidToken

/-- The checks of a validation after the lookup. -/
theorem answer_run (env : Env) (r : APITokenRow) (full : String) (cs : Nat → Choice) (w : World) :
    let res := ((requireUnexpired r.expiresAt).bind fun _ =>
      (failIf (!env.compare r.tokenHash full) .invalidToken).bind fun _ =>
        (.done (.identity r.userID.string (some r.scopes)) : Action Reply)).run (exec env) cs w
    w.now ≤ res.2.now ∧ ((cs 0).now ≤ w.now → res.2.now = w.now) ∧
      res.1 = answerOf env r full res.2.now := by
  intro res
  cases hexpires : r.expiresAt with
  | none =>
      -- the clock is not read
      have hrun : res = if !env.compare r.tokenHash full then (.error .invalidToken, w)
          else (.ok (.identity r.userID.string (some r.scopes)), w) := by
        simp only [res, hexpires, requireUnexpired, Program.pure_eq, Program.done_bind, run_failIf,
          Program.run_done]
      cases hcompare : env.compare r.tokenHash full with
      | true =>
          rw [hcompare] at hrun
          rw [hrun]
          exact ⟨le_rfl, fun _ => rfl, by simp [answerOf, hexpires, hcompare]⟩
      | false =>
          rw [hcompare] at hrun
          rw [hrun]
          exact ⟨le_rfl, fun _ => rfl, by simp [answerOf, hcompare]⟩
  | some e =>
      have hrun : res = if decide (e < max w.now (cs 0).now) then
            (.error .invalidToken, w.advance (cs 0).now)
          else if !env.compare r.tokenHash full then (.error .invalidToken, w.advance (cs 0).now)
          else (.ok (.identity r.userID.string (some r.scopes)), w.advance (cs 0).now) := by
        simp only [res, hexpires, requireUnexpired, Program.bind_eq, Program.bind_assoc, run_now,
          run_failIf, Program.run_done]
      have hnow : res.2.now = max w.now (cs 0).now := by
        rw [hrun]
        split
        · rfl
        · split <;> rfl
      refine ⟨hnow ▸ le_max_left _ _, fun h => hnow.trans (max_eq_left h), ?_⟩
      rw [hnow, hrun]
      generalize max w.now (cs 0).now = t
      by_cases hlate : e < t
      · simp [answerOf, hexpires, hlate, not_le.mpr hlate]
      · cases hcompare : env.compare r.tokenHash full <;>
          simp [answerOf, hexpires, hlate, hcompare, not_lt.mp hlate]

/-- A validation that reaches the database answers for one of the candidates. -/
theorem validate_run (cfg : Config) {text tokenPrefix rest : String}
    (hsplit : splitToken text = some (tokenPrefix, rest)) {cs : Nat → Choice}
    (hcs : (cs 0).fails = false) (w : World) :
    let res := (Call.validateApiToken text).perform cfg cs w
    w.now ≤ res.2.now ∧ ((∀ n, (cs n).now ≤ w.now) → res.2.now = w.now) ∧
      res.1 = match limitOne (cs 0).pick (candidates w.db tokenPrefix) with
        | none => .error .invalidToken
        | some r => answerOf cfg.env r (tokenPrefix ++ rest) res.2.now := by
  intro res
  have hrun :
      res = ((Service.validateApiToken cfg text).bind fun r => .done (.identity r.1 r.2)).run
        (exec cfg.env) cs w := rfl
  simp only [validateApiToken, hsplit, Program.bind_eq, Program.bind_assoc] at hrun
  replace hrun := hrun.trans (run_storeOr cfg.env _ _ _ _ _)
  rw [exec_store_runs cfg.env _ hcs, Store.exec_findByPrefix] at hrun
  have hchoose : limitOne (cs 0).pick (newest APITokenRow.createdAt (w.db.apiTokens.select fun t =>
      t.tokenPrefix = tokenPrefix && t.revokedAt.isNone)) =
        limitOne (cs 0).pick (candidates w.db tokenPrefix) := rfl
  rw [hchoose] at hrun
  cases hlimit : limitOne (cs 0).pick (candidates w.db tokenPrefix) with
  | none =>
      rw [hlimit] at hrun
      have hres : res = (.error .invalidToken, w.advance (cs 0).now) := hrun
      rw [hres]
      exact ⟨le_max_left _ _, fun h => max_eq_left (h 0), rfl⟩
  | some r =>
      rw [hlimit] at hrun
      -- the lookup leaves revoked tokens out, so the check behind it never fires
      have hlive : r.token.revokedAt.isSome = false := by
        have hr := (mem_candidates.mp (mem_of_limitOne hlimit)).2.2.1
        simp [APITokenRow.token, hr]
      simp only [Option.map_some, Store.found, run_failIf, hlive] at hrun
      obtain ⟨hle, hstill, hanswer⟩ := answer_run cfg.env r (tokenPrefix ++ rest)
        (fun n => cs (n + 1)) (w.advance (cs 0).now)
      have hres : res = _ := hrun
      rw [hres]
      refine ⟨(le_max_left _ _).trans hle, fun h => ?_, hanswer⟩
      have hfirst : (w.advance (cs 0).now).now = w.now := max_eq_left (h 0)
      exact (hstill (hfirst ▸ h 1)).trans hfirst

/-! ## Rivals -/

/-- No other token in force has the same first characters and is as new. -/
def Unrivalled (ledger : List Entry) (x : Entry) : Prop :=
  ∀ y ∈ ledger, y.raw ≠ x.raw → box y.raw = box x.raw → y.revoked = true ∨ y.createdAt < x.createdAt

/-- The ledger's own answer to a token. -/
def Entry.answer (x : Entry) (t : Time) : Except Err Reply :=
  if x.live t then .ok (.identity x.owner x.scopes) else .error .invalidToken

section Lookup

variable {env : Env} {ledger : List Entry} {db : DB} {x : Entry} {r : APITokenRow}

/-- A row answers for its own secret and no other. -/
theorem compare_iff (hideal : env.IdealHasher) (h : Matches env x r) (full : String) :
    env.compare r.tokenHash full = true ↔ x.raw = full := by
  obtain ⟨salt, hhash⟩ := h.hash
  rw [hhash]
  exact hideal salt x.raw full

/-- An entry has one row. -/
theorem row_unique {t : Table APITokenRow} {s : APITokenRow} (hr : r ∈ t) (hs : s ∈ t)
    (h : Matches env x r) (h' : Matches env x s) : r = s :=
  eq_of_key hr hs (Uuid.string_injective (h.id.symm.trans h'.id))

/-- A row that is in force answers to its own secret as the ledger does. -/
theorem answerOf_eq (hideal : env.IdealHasher) (h : Matches env x r) (hlive : r.revokedAt = none)
    (t : Time) : answerOf env r x.raw t = x.answer t := by
  have hcompare : env.compare r.tokenHash x.raw = true := (compare_iff hideal h x.raw).mpr rfl
  simp [answerOf, Entry.answer, Entry.live, hcompare, h.expires, h.revoked, hlive,
    h.owner, h.scopes]

/-- A row of another token refuses the secret. -/
theorem answerOf_other (hideal : env.IdealHasher) (h : Matches env x r) {full : String}
    (hne : x.raw ≠ full) (t : Time) : answerOf env r full t = .error .invalidToken := by
  have hcompare : env.compare r.tokenHash full = false := by
    rw [Bool.eq_false_iff]
    exact fun heq => hne ((compare_iff hideal h full).mp heq)
  simp [answerOf, hcompare]

variable (hagrees : Agrees env ledger db.apiTokens) (hdistinct : (ledger.map Entry.raw).Nodup)
  (hx : x ∈ ledger)

include hagrees hdistinct hx

/-- Behind every candidate there is an entry: the one asked for, or one with another secret. -/
theorem candidate_cases (hr : r ∈ candidates db (box x.raw)) :
    Matches env x r ∨ ∃ y ∈ ledger, y.raw ≠ x.raw ∧ Matches env y r := by
  obtain ⟨y, hy, hmatches⟩ := hagrees.issued r (mem_candidates.mp hr).1
  by_cases hraw : y.raw = x.raw
  · have heq : y = x := List.inj_on_of_nodup_map hdistinct hy hx hraw
    exact .inl (heq ▸ hmatches)
  · exact .inr ⟨y, hy, hraw, hmatches⟩

/-- Without a rival a token in force is the only candidate. -/
theorem candidates_unrivalled (hrevoked : x.revoked = false) (h : Unrivalled ledger x) :
    (∃ r, r ∈ candidates db (box x.raw)) ∧ ∀ r ∈ candidates db (box x.raw), Matches env x r := by
  obtain ⟨row, hrow, hmatches⟩ := hagrees.stored x hx
  have hforce : row.revokedAt = none := by
    have hsome := hmatches.revoked
    rw [hrevoked] at hsome
    simpa using hsome.symm
  -- a row of another entry with these characters is revoked or older
  have hother : ∀ s ∈ db.apiTokens, s.tokenPrefix = box x.raw → s.revokedAt = none →
      ¬ Matches env x s → s.createdAt < row.createdAt := by
    intro s hs hbox hnone hne
    obtain ⟨y, hy, hys⟩ := hagrees.issued s hs
    have hraw : y.raw ≠ x.raw := by
      intro hraw
      have heq : y = x := List.inj_on_of_nodup_map hdistinct hy hx hraw
      exact hne (heq ▸ hys)
    rcases h y hy hraw (hys.box.symm.trans hbox) with hgone | hold
    · rw [hys.revoked, hnone] at hgone
      cases hgone
    · rw [← hys.created, ← hmatches.created]
      exact hold
  refine ⟨⟨row, mem_candidates.mpr ⟨hrow, hmatches.box, hforce, ?_⟩⟩, ?_⟩
  · intro s hs hbox hnone
    by_cases hxs : Matches env x s
    · rw [row_unique hs hrow hxs hmatches]
    · exact (hother s hs hbox hnone hxs).le
  · intro s hs
    obtain ⟨hmem, hbox, hnone, hnewest⟩ := mem_candidates.mp hs
    by_contra hxs
    have hlt := hother s hmem hbox hnone hxs
    exact absurd (hnewest row hrow hmatches.box hforce) (not_le.mpr hlt)

/-- With a rival there is another candidate. -/
theorem candidate_of_rival (h : ¬ Unrivalled ledger x) :
    ∃ r ∈ candidates db (box x.raw), ∃ y ∈ ledger, y.raw ≠ x.raw ∧ Matches env y r := by
  obtain ⟨y, hy, hraw, hbox, hforce, hnew⟩ : ∃ y ∈ ledger, y.raw ≠ x.raw ∧ box y.raw = box x.raw ∧
      y.revoked = false ∧ x.createdAt ≤ y.createdAt := by
    simpa [Unrivalled] using h
  obtain ⟨row, hrow, hmatches⟩ := hagrees.stored y hy
  have hnone : row.revokedAt = none := by
    have hsome := hmatches.revoked
    rw [hforce] at hsome
    simpa using hsome.symm
  have hne : (db.apiTokens.select fun t => t.tokenPrefix = box x.raw && t.revokedAt.isNone) ≠ [] :=
    List.ne_nil_of_mem (mem_select.mpr ⟨hrow, by simp [hmatches.box, hbox, hnone]⟩)
  obtain ⟨s, hs⟩ : ∃ s, s ∈ candidates db (box x.raw) := exists_newest APITokenRow.createdAt hne
  rcases candidate_cases hagrees hdistinct hx hs with hxs | ⟨z, hz, hzraw, hzs⟩
  · -- the token asked for comes first: the rival is as new
    refine ⟨row, mem_candidates.mpr ⟨hrow, hmatches.box.trans hbox, hnone, ?_⟩, y, hy,
      hraw, hmatches⟩
    intro s' hs' hbox' hnone'
    calc s'.createdAt
        ≤ s.createdAt := (mem_candidates.mp hs).2.2.2 s' hs' hbox' hnone'
      _ = x.createdAt := hxs.created.symm
      _ ≤ y.createdAt := hnew
      _ = row.createdAt := hmatches.created
  · exact ⟨s, hs, z, hz, hzraw, hzs⟩

end Lookup

theorem live_mono {x : Entry} {t t' : Time} (ht : t ≤ t') (h : x.live t' = true) :
    x.live t = true := by
  unfold Entry.live at h ⊢
  rw [Bool.and_eq_true] at h ⊢
  refine ⟨h.1, ?_⟩
  cases hexpires : x.expiresAt with
  | none => rfl
  | some e =>
      rw [hexpires] at h
      exact decide_eq_true (ht.trans (of_decide_eq_true h.2))

/-- After a history of creations and revocations, a token is answered as the ledger says — its owner
and scopes while it is live, a refusal otherwise, whatever happens to other tokens — exactly when it
has no rival: no other token in force with the same first eight characters that is as new. -/
theorem token_validates_iff (cfg : Config) (hideal : cfg.env.IdealHasher) {w : World}
    (hempty : w.db.apiTokens = Table.empty) {history : History}
    (hcalls : ∀ i ∈ history, isTokenCall i.1 = true) {x : Entry}
    (hx : x ∈ (auditAll cfg w history).2)
    (hsecrets : ∀ y ∈ (auditAll cfg w history).2, isSecret y.raw = true)
    (hdistinct : ((auditAll cfg w history).2.map Entry.raw).Nodup) :
    (∀ cs : Nat → Choice, (∀ n, (cs n).fails = false) →
      let res := (Call.validateApiToken x.text).perform cfg cs (auditAll cfg w history).1
      res.1 = x.answer res.2.now) ↔
    (x.live (auditAll cfg w history).1.now = true → Unrivalled (auditAll cfg w history).2 x) := by
  have hagrees := audit_agrees cfg hempty hcalls
  generalize (auditAll cfg w history).1 = w' at *
  generalize (auditAll cfg w history).2 = ledger at *
  obtain ⟨row, _, hmatches⟩ := hagrees.stored x hx
  obtain ⟨rest, hsplit, hfull⟩ := splitToken_tokenText (hsecrets x hx)
  rw [← hmatches.text] at hsplit
  constructor
  · intro hall hlive
    by_contra hrival
    obtain ⟨r, hr, y, hy, hraw, hyr⟩ := candidate_of_rival hagrees hdistinct hx hrival
    obtain ⟨pick, hpick⟩ := limitOne_of_mem hr
    -- the lookup takes the rival, at this very instant
    let cs : Nat → Choice := fun _ => { pick := pick }
    have hcs : (cs 0).fails = false := rfl
    have hres := hall cs fun _ => rfl
    obtain ⟨_, hstill, hanswer⟩ := validate_run cfg hsplit hcs w'
    have hnow := hstill fun _ => Nat.zero_le _
    rw [hpick, hfull] at hanswer
    dsimp only at hanswer hres
    rw [hanswer, answerOf_other hideal hyr hraw, hnow] at hres
    simp [Entry.answer, hlive] at hres
  · intro hunrivalled cs hcs
    obtain ⟨hle, _, hanswer⟩ := validate_run cfg hsplit (hcs 0) w'
    rw [hfull] at hanswer
    dsimp only
    generalize (Call.validateApiToken x.text).perform cfg cs w' = res at hle hanswer ⊢
    cases hlive : x.live res.2.now with
    | true =>
        -- in force: the only candidate is its own row
        have hrevoked : x.revoked = false := by
          have hboth := hlive
          simp only [Entry.live, Bool.and_eq_true, Bool.not_eq_true'] at hboth
          exact hboth.1
        obtain ⟨⟨r, hr⟩, hown⟩ := candidates_unrivalled hagrees hdistinct hx hrevoked
          (hunrivalled (live_mono hle hlive))
        obtain ⟨r', hlimit⟩ := limitOne_of_ne_nil (cs 0).pick (List.ne_nil_of_mem hr)
        have hr' := mem_of_limitOne hlimit
        rw [hlimit] at hanswer
        rw [hanswer]
        exact answerOf_eq hideal (hown r' hr') (mem_candidates.mp hr').2.2.1 _
    | false =>
        -- not in force: no row, another secret, or its own row with the same refusal
        have hrefused : x.answer res.2.now = .error .invalidToken := by
          rw [Entry.answer, hlive]
          rfl
        rw [hanswer]
        cases hlimit : limitOne (cs 0).pick (candidates w'.db (box x.raw)) with
        | none => exact hrefused.symm
        | some r =>
            have hr := mem_of_limitOne hlimit
            rcases candidate_cases hagrees hdistinct hx hr with hxr | ⟨y, _, hraw, hyr⟩
            · exact answerOf_eq hideal hxr (mem_candidates.mp hr).2.2.1 _
            · exact (answerOf_other hideal hyr hraw _).trans hrefused.symm

/-! ## Two tokens of one account -/

/-- Ann's account. -/
def annWorld : World :=
  { toyWorld with db := { DB.empty with users := Table.empty.put (toyUser 1) } }

/-- Ann creates a token at the instant `t`. -/
def creation (t : Time) (secret : String) : Call × (Nat → Choice) :=
  (.createApiToken (Uuid.ofNat 1).string "ci" (some ["read"]) none,
    fun _ => { now := t, secret := secret, id := Uuid.ofNat t })

def firstSecret : String := "AAAAAAAAAAAAAAAAAAAAAAAAAAAAAAAAAAAAAAAAAAA"

def secondSecret : String := "AAAAAAAAAAAAAAAAAAAAAAAAAAAAAAAAAAAAAAAAAAB"

def firstEntry : Entry where
  text := "oat_AAAAAAAA.AAAAAAAAAAAAAAAAAAAAAAAAAAAAAAAAAAA"
  raw := firstSecret
  id := (Uuid.ofNat 1000).string
  owner := (Uuid.ofNat 1).string
  scopes := some ["read"]
  expiresAt := none
  createdAt := 1000
  revoked := false

def thirdSecret : String := "BAAAAAAAAAAAAAAAAAAAAAAAAAAAAAAAAAAAAAAAAAA"

/-- A token that expires, a newer one that begins like it and is revoked, and one that begins
otherwise. -/
def threeTokens : History :=
  [(.createApiToken (Uuid.ofNat 1).string "ci" (some ["read"]) (some 5000),
      fun _ => { now := 1000, secret := firstSecret, id := Uuid.ofNat 1000 }),
    creation 1001 secondSecret, creation 1002 thirdSecret,
    (.revokeApiToken (Uuid.ofNat 1).string (Uuid.ofNat 1001).string, fun _ => { now := 1003 })]

def expiringEntry : Entry :=
  { firstEntry with expiresAt := some 5000 }

set_option maxRecDepth 10000 in
/-- The first of them is answered as the ledger says, before and after its expiry. -/
theorem token_validates_expiring :
    let s := auditAll toyConfig annWorld threeTokens
    expiringEntry ∈ s.2 ∧ s.2.map Entry.revoked = [false, true, false] ∧
      expiringEntry.live s.1.now = true ∧ expiringEntry.live 5001 = false ∧
      ∀ cs : Nat → Choice, (∀ n, (cs n).fails = false) →
        let res := (Call.validateApiToken expiringEntry.text).perform toyConfig cs s.1
        res.1 = expiringEntry.answer res.2.now := by
  obtain ⟨hx, hrevoked, hlive, hexpired, hsecrets, hdistinct, hunrivalled⟩ :
      let s := auditAll toyConfig annWorld threeTokens
      expiringEntry ∈ s.2 ∧ s.2.map Entry.revoked = [false, true, false] ∧
        expiringEntry.live s.1.now = true ∧ expiringEntry.live 5001 = false ∧
        (∀ y ∈ s.2, isSecret y.raw = true) ∧ (s.2.map Entry.raw).Nodup ∧
        ∀ y ∈ s.2, y.raw ≠ expiringEntry.raw → box y.raw = box expiringEntry.raw →
          y.revoked = true ∨ y.createdAt < expiringEntry.createdAt := by decide +kernel
  have hcalls : ∀ i ∈ threeTokens, isTokenCall i.1 = true := by
    intro i hi
    simp only [threeTokens, List.mem_cons, List.not_mem_nil, or_false] at hi
    rcases hi with rfl | rfl | rfl | rfl <;> rfl
  refine ⟨hx, hrevoked, hlive, hexpired, ?_⟩
  exact (token_validates_iff toyConfig toyEnv_ideal rfl hcalls hx hsecrets hdistinct).mpr
    fun _ => hunrivalled

set_option maxRecDepth 10000 in
/-- Two secrets that begin alike: the older token is live and refused. -/
theorem rival_token_wins :
    let s := auditAll toyConfig annWorld [creation 1000 firstSecret, creation 1001 secondSecret]
    firstEntry ∈ s.2 ∧ firstEntry.live s.1.now = true ∧
      ((Call.validateApiToken firstEntry.text).perform toyConfig (fun _ => {}) s.1).1 =
        .error .invalidToken ∧
      (∀ y ∈ s.2, isSecret y.raw = true) ∧ (s.2.map Entry.raw).Nodup := by
  decide +kernel

end ApiTokens
end Service
end OrbitAuth
