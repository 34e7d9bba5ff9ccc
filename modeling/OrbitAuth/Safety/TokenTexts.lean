import OrbitAuth.Safety.ApiTokens
import OrbitAuth.Safety.Disabled

/-!
# TokenTexts — which texts a token answers to

A token is handed out as scheme, first eight characters, dot, rest, and is documented to work
without the scheme as well.  Validation trims the text, strips one scheme if there is one and splits
at the first dot.  Whether that undoes the formatting depends on the secret: the text without the
scheme may begin with the four characters of the scheme again, and then they are stripped from the
secret.

* `around_trimSpace`, `trimSpace_around` — trimming finds the text and the white space around it;
* `spells_of_split` — whatever is taken apart into a secret is one of the spellings of that secret;
* `roundTrip_iff` — a new token answers to both of its spellings, and no other text is answered,
  exactly when its secret does not begin with the scheme;
* `scheme_in_secret` — a token that does not answer without the scheme.
-/

namespace OrbitAuth

/-! ## White space around a text -/

namespace Domain

/-- `s` is `text` with white space around it. -/
def Around (text s : String) : Prop :=
  ∃ before after : List Char, (∀ c ∈ before, isSpace c = true) ∧ (∀ c ∈ after, isSpace c = true) ∧
    s.toList = before ++ text.toList ++ after

theorem around_self (text : String) : Around text text :=
  ⟨[], [], by simp, by simp, by simp⟩

theorem around_trimSpace (s : String) : Around (trimSpace s) s := by
  refine ⟨s.toList.takeWhile isSpace, (trimLeft s.toList).rtakeWhile isSpace, ?_, ?_, ?_⟩
  · exact fun c hc => List.mem_takeWhile_imp hc
  · exact fun c hc => List.mem_rtakeWhile_imp hc
  · have htext : (trimSpace s).toList = (trimLeft s.toList).rdropWhile isSpace :=
      String.toList_ofList
    rw [htext, List.append_assoc, List.rdropWhile_append_rtakeWhile]
    exact List.takeWhile_append_dropWhile.symm

theorem trimSpace_around {text s : String} (h : Around text s)
    (hplain : ∀ c ∈ text.toList, isSpace c = false) : trimSpace s = text := by
  obtain ⟨before, after, hbefore, hafter, hs⟩ := h
  have hleft : trimLeft s.toList = trimLeft (text.toList ++ after) := by
    rw [hs, List.append_assoc]
    exact List.dropWhile_append_of_pos hbefore
  have hright : ((text.toList ++ after).rdropWhile isSpace) = text.toList := by
    have hrev : ∀ c ∈ after.reverse, isSpace c = true :=
      fun c hc => hafter c (List.mem_reverse.mp hc)
    have hplain' : ∀ c ∈ text.toList.reverse, isSpace c = false :=
      fun c hc => hplain c (List.mem_reverse.mp hc)
    rw [List.rdropWhile, List.reverse_append, List.dropWhile_append_of_pos hrev]
    exact (congrArg List.reverse (trimLeft_eq_self hplain')).trans (List.reverse_reverse _)
  have hlist : (trimSpace s).toList = (trimLeft s.toList).rdropWhile isSpace := String.toList_ofList
  rw [← String.toList_inj, hlist, hleft]
  cases htext : text.toList with
  | nil =>
      -- nothing but white space
      rw [List.nil_append]
      have hnone : trimLeft after = [] := List.dropWhile_eq_nil_iff.mpr hafter
      rw [hnone]
      rfl
  | cons c cs =>
      have hc : isSpace c = false := hplain c (by simp [htext])
      have hkeep : trimLeft (c :: cs ++ after) = c :: cs ++ after := by simp [trimLeft, hc]
      rw [hkeep, ← htext]
      exact hright

end Domain

namespace Service
namespace TokenTexts

open Domain Foundations Postgres ApiTokens

variable {raw : String}

/-! ## Spellings -/

/-- A token text without its scheme. -/
def withoutScheme (text : String) : String :=
  String.ofList (text.toList.drop apiTokenScheme.toList.length)

/-- The spellings of a token text: with or without the scheme, and white space around it. -/
def Spells (text s : String) : Prop :=
  Around text s ∨ Around (withoutScheme text) s

/-- The secret begins with the characters of the scheme. -/
def beginsWithScheme (raw : String) : Bool :=
  apiTokenScheme.toList.isPrefixOf raw.toList

theorem toList_withoutScheme (raw : String) : (withoutScheme (tokenText raw)).toList =
    raw.toList.take 8 ++ '.' :: raw.toList.drop 8 := by
  rw [withoutScheme, String.toList_ofList, toList_tokenText, List.drop_left]

/-- The first half of a secret is longer than the scheme. -/
theorem scheme_halves (h : isSecret raw = true) :
    apiTokenScheme.toList.isPrefixOf (raw.toList.take 8 ++ '.' :: raw.toList.drop 8) =
      beginsWithScheme raw := by
  have hlength : apiTokenScheme.toList.length ≤ (raw.toList.take 8).length := by
    rw [List.length_take, secret_length h]
    decide
  rw [Bool.eq_iff_iff, beginsWithScheme, List.isPrefixOf_iff_prefix, List.isPrefixOf_iff_prefix]
  constructor
  · intro hpre
    have htake : apiTokenScheme.toList <+: raw.toList.take 8 :=
      List.prefix_of_prefix_length_le hpre (List.prefix_append _ _) hlength
    exact htake.trans (List.take_prefix 8 raw.toList)
  · intro hpre
    have htake : apiTokenScheme.toList <+: raw.toList.take 8 :=
      List.prefix_of_prefix_length_le hpre (List.take_prefix 8 raw.toList) hlength
    exact htake.trans (List.prefix_append _ _)

/-- Every spelling is taken apart into the secret, if the secret does not begin with the scheme. -/
theorem split_of_spells {raw s : String} (h : isSecret raw = true)
    (hscheme : beginsWithScheme raw = false) (hs : Spells (tokenText raw) s) :
    ∃ rest, splitToken s = some (box raw, rest) ∧ box raw ++ rest = raw := by
  refine splitToken_halves h ?_
  rcases hs with hs | hs
  · rw [trimSpace_around hs (tokenText_plain h)]
    unfold trimScheme
    rw [toList_tokenText, if_pos (by simp), List.drop_left]
  · have hplain : ∀ c ∈ (withoutScheme (tokenText raw)).toList, isSpace c = false := by
      rw [toList_withoutScheme]
      exact halves_plain h
    rw [trimSpace_around hs hplain]
    unfold trimScheme
    rw [toList_withoutScheme, scheme_halves h, hscheme]
    rfl

/-- A secret that begins with the scheme loses four characters when the scheme is left out. -/
theorem split_withoutScheme (h : isSecret raw = true) (hscheme : beginsWithScheme raw = true) :
    splitToken (withoutScheme (tokenText raw)) = none := by
  have hplain : ∀ c ∈ (withoutScheme (tokenText raw)).toList, isSpace c = false := by
    rw [toList_withoutScheme]
    exact halves_plain h
  -- the scheme lies within the first half, so the dot stays where it is
  have hlength : apiTokenScheme.toList.length ≤ (raw.toList.take 8).length := by
    rw [List.length_take, secret_length h]
    decide
  have hstripped : trimScheme (trimSpace (withoutScheme (tokenText raw))) =
      (raw.toList.take 8).drop apiTokenScheme.toList.length ++ '.' :: raw.toList.drop 8 := by
    rw [trimSpace_eq_self hplain]
    unfold trimScheme
    rw [toList_withoutScheme, scheme_halves h, hscheme, if_pos rfl,
      List.drop_append_of_le_length hlength]
  have hmem : ∀ c ∈ (raw.toList.take 8).drop apiTokenScheme.toList.length, c ∈ raw.toList :=
    fun c hc => List.mem_of_mem_take (List.mem_of_mem_drop hc)
  have hnodot : ∀ c ∈ (raw.toList.take 8).drop apiTokenScheme.toList.length, (c != '.') = true := by
    intro c hc
    simpa using (secret_plain h (hmem c hc)).2.1
  -- eight characters less the four of the scheme, and the parser wants eight
  have hsize :
      (String.ofList ((raw.toList.take 8).drop apiTokenScheme.toList.length)).utf8ByteSize = 4 := by
    rw [utf8ByteSize_ofList fun c hc => (secret_plain h (hmem c hc)).2.2, List.length_drop,
      List.length_take, secret_length h]
    rfl
  unfold splitToken
  rw [hstripped, List.span_eq_takeWhile_dropWhile, List.takeWhile_append_of_pos hnodot,
    List.dropWhile_append_of_pos hnodot]
  simp [hsize, apiTokenPrefixLength]

/-! ## What is taken apart -/

theorem trimScheme_cases (s : String) :
    s.toList = apiTokenScheme.toList ++ trimScheme s ∨ s.toList = trimScheme s := by
  unfold trimScheme
  split
  · rename_i hpre
    refine .inl ?_
    exact (List.prefix_iff_eq_append.mp (List.isPrefixOf_iff_prefix.mp hpre)).symm
  · exact .inr rfl

theorem split_inv {s tokenPrefix rest : String} (h : splitToken s = some (tokenPrefix, rest)) :
    trimScheme (trimSpace s) = tokenPrefix.toList ++ '.' :: rest.toList ∧
      tokenPrefix.utf8ByteSize = apiTokenPrefixLength := by
  unfold splitToken at h
  rw [List.span_eq_takeWhile_dropWhile] at h
  generalize hcs : trimScheme (trimSpace s) = cs at h ⊢
  split at h
  · rename_i box c tail hspan
    split at h
    · rename_i hsize
      rw [Bool.and_eq_true, decide_eq_true_eq] at hsize
      cases h
      have htake : cs.takeWhile (fun c => c != '.') = box := congrArg Prod.fst hspan
      have hdrop : cs.dropWhile (fun c => c != '.') = c :: tail := congrArg Prod.snd hspan
      -- what stops the scan is a dot
      have hdot : c = '.' := by
        have hhead := List.head?_dropWhile_not (fun c => c != '.') cs
        rw [hdrop] at hhead
        simpa using hhead
      refine ⟨?_, hsize.1⟩
      have hsplit : cs = cs.takeWhile (fun c => c != '.') ++ cs.dropWhile (fun c => c != '.') :=
        List.takeWhile_append_dropWhile.symm
      rw [htake, hdrop, hdot] at hsplit
      rw [String.toList_ofList, String.toList_ofList]
      exact hsplit
    · cases h
  · cases h

/-- What is taken apart into a secret is one of its spellings. -/
theorem spells_of_split {s tokenPrefix rest raw : String} (h : isSecret raw = true)
    (hsplit : splitToken s = some (tokenPrefix, rest)) (hraw : tokenPrefix ++ rest = raw) :
    Spells (tokenText raw) s := by
  obtain ⟨hscheme, hsize⟩ := split_inv hsplit
  have hlist :
    raw.toList = tokenPrefix.toList ++ rest.toList := by rw [← hraw, String.toList_append]
  -- the first half is eight bytes long, and the characters of a secret are one byte each
  have height : tokenPrefix.toList.length = 8 := by
    have hbytes : (String.ofList tokenPrefix.toList).utf8ByteSize = tokenPrefix.toList.length :=
      utf8ByteSize_ofList fun c hc => (secret_plain h (by simp [hlist, hc])).2.2
    rw [String.ofList_toList] at hbytes
    exact hbytes.symm.trans hsize
  have hhalves : trimScheme (trimSpace s) = raw.toList.take 8 ++ '.' :: raw.toList.drop 8 := by
    rw [hscheme, hlist, ← height, List.take_left, List.drop_left]
  rcases trimScheme_cases (trimSpace s) with htext | htext
  · have heq : trimSpace s = tokenText raw := by
      rw [← String.toList_inj, htext, hhalves, toList_tokenText]
    exact .inl (heq ▸ around_trimSpace s)
  · have heq : trimSpace s = withoutScheme (tokenText raw) := by
      rw [← String.toList_inj, htext, hhalves, toList_withoutScheme]
    exact .inr (heq ▸ around_trimSpace s)

/-! ## Tokens and their secrets -/

/-- The row of the token with this secret. -/
structure Stored (env : Env) (raw : String) (r : APITokenRow) : Prop where
  secret : isSecret raw = true
  box : r.tokenPrefix = box raw
  hash : ∃ salt, r.tokenHash = env.hash salt raw

/-- Every row is the row of some secret. -/
def Genuine (env : Env) (t : Table APITokenRow) : Prop :=
  ∀ r ∈ t, ∃ raw, Stored env raw r

/-- Creations and revocations make such tables. -/
theorem genuine_history (cfg : Config) {w : World} (hempty : w.db.apiTokens = Table.empty)
    {history : History} (hcalls : ∀ i ∈ history, isTokenCall i.1 = true)
    (hsecrets : ∀ x ∈ (auditAll cfg w history).2, isSecret x.raw = true) :
    Genuine cfg.env (auditAll cfg w history).1.db.apiTokens := by
  intro r hr
  obtain ⟨x, hx, hmatches⟩ := (audit_agrees cfg hempty hcalls).issued r hr
  exact ⟨x.raw, hsecrets x hx, hmatches.box, hmatches.hash⟩

theorem compare_stored {env : Env} (hideal : env.IdealHasher) {r : APITokenRow}
    (h : Stored env raw r) (full : String) : env.compare r.tokenHash full = true ↔ raw = full := by
  obtain ⟨salt, hhash⟩ := h.hash
  rw [hhash]
  exact hideal salt raw full

/-- A text that is answered spells the secret of a token. -/
theorem spells_of_answer {cfg : Config} (hideal : cfg.env.IdealHasher) {w : World}
    (hgenuine : Genuine cfg.env w.db.apiTokens) {s : String} {cs : Nat → Choice} {reply : Reply}
    (h : ((Call.validateApiToken s).perform cfg cs w).1 = .ok reply) :
    ∃ r ∈ w.db.apiTokens, ∃ raw, Stored cfg.env raw r ∧ Spells (tokenText raw) s := by
  have hmust : ((Call.validateApiToken s).program cfg).Must (exec cfg.env)
      (fun _ _ => ∃ r ∈ w.db.apiTokens, ∃ raw, Stored cfg.env raw r ∧
      Spells (tokenText raw) s) w := by
    refine safe_map (safe_mono ?_ (Disabled.validateApiToken_must s))
    rintro _ _ ⟨tokenPrefix, rest, hsplit, r, hr, _, hcompare, _⟩
    have hmem : r ∈ w.db.apiTokens := (mem_candidates.mp hr).1
    obtain ⟨raw, hstored⟩ := hgenuine r hmem
    have hraw := (compare_stored hideal hstored _).mp hcompare
    exact ⟨r, hmem, raw, hstored, spells_of_split hstored.secret hsplit hraw.symm⟩
  exact must_run hmust cs reply h

/-- A text that cannot be taken apart is refused before the store is asked. -/
theorem refused_of_split {cfg : Config} {s : String} (h : splitToken s = none)
    (cs : Nat → Choice) (w : World) :
    (Call.validateApiToken s).perform cfg cs w = (.error .invalidToken, w) := by
  have hprogram : Service.validateApiToken cfg s = .fail .invalidToken := by
    unfold validateApiToken
    rw [h]
  have hrun : (Call.validateApiToken s).perform cfg cs w =
      ((Service.validateApiToken cfg s).bind fun r => .done (.identity r.1 r.2)).run
        (exec cfg.env) cs w := rfl
  rw [hrun, hprogram]
  rfl

/-- A row that no other shares its first characters with answers for its secret until it expires. -/
theorem answer_of_only {cfg : Config} (hideal : cfg.env.IdealHasher) {w : World}
    {row : APITokenRow} (hrow : row ∈ w.db.apiTokens) (hstored : Stored cfg.env raw row)
    (hforce : row.revokedAt = none)
    (honly : ∀ r ∈ w.db.apiTokens, r.tokenPrefix = box raw → r = row) {s rest : String}
    (hsplit : splitToken s = some (box raw, rest)) (hfull : box raw ++ rest = raw)
    {cs : Nat → Choice} (hcs : (cs 0).fails = false) :
    let res := (Call.validateApiToken s).perform cfg cs w
    (row.expiresAt.all fun e => res.2.now ≤ e) = true →
      res.1 = .ok (.identity row.userID.string (some row.scopes)) := by
  obtain ⟨_, _, hanswer⟩ := validate_run cfg hsplit hcs w
  generalize (Call.validateApiToken s).perform cfg cs w = res at hanswer ⊢
  intro _ hlive
  have hmem : row ∈ candidates w.db (box raw) := by
    refine mem_candidates.mpr ⟨hrow, hstored.box, hforce, ?_⟩
    intro r hr hprefix _
    rw [honly r hr hprefix]
  -- whichever candidate the database picks, it is the row
  obtain ⟨r, hlimit⟩ := limitOne_of_ne_nil (cs 0).pick (List.ne_nil_of_mem hmem)
  have hr : r = row := by
    have hcandidate := mem_candidates.mp (mem_of_limitOne hlimit)
    exact honly r hcandidate.1 hcandidate.2.1
  have hcompare : cfg.env.compare row.tokenHash raw = true :=
    (compare_stored hideal hstored raw).mpr rfl
  have hown : answerOf cfg.env row raw res.2.now =
      .ok (.identity row.userID.string (some row.scopes)) := by
    rw [answerOf, hcompare, hlive]
    rfl
  rw [hlimit, hfull, hr] at hanswer
  exact hanswer.trans hown

/-! ## The round trip -/

/-- The token `text` of `owner` in the world `w`: it answers to each of its spellings until it
expires, and a text that spells no token is refused. -/
structure RoundTrip (cfg : Config) (w : World) (text owner : String) (scopes : Option (List String))
    (expires : Option Time) : Prop where
  accepts : ∀ s, Spells text s → ∀ cs : Nat → Choice, (∀ n, (cs n).fails = false) →
    let res := (Call.validateApiToken s).perform cfg cs w
    (expires.all fun e => res.2.now ≤ e) = true → res.1 = .ok (.identity owner scopes)
  rejects : ∀ s, (∀ r ∈ w.db.apiTokens, ∀ raw, Stored cfg.env raw r → ¬ Spells (tokenText raw) s) →
    ∀ cs : Nat → Choice, ∃ e, ((Call.validateApiToken s).perform cfg cs w).1 = .error e

section Creation

variable {cfg : Config} {w : World} {user name : String} {scopes : Option (List String)}
  {expires : Option Time} {cs : Nat → Choice} {token : CreatedToken}

/-- The row of a token that was handed out, and the others as they were. -/
theorem created_row
    (h : ((Call.createApiToken user name scopes expires).perform cfg cs w).1 =
      .ok (.created token)) :
    token.secret = tokenText (cs 0).secret ∧
    ∃ row : APITokenRow,
    row ∈ ((Call.createApiToken user name scopes expires).perform cfg cs w).2.db.apiTokens ∧
      row.tokenPrefix = box (cs 0).secret ∧
      (∃ salt, row.tokenHash = cfg.env.hash salt (cs 0).secret) ∧
      row.userID.string = canonical user ∧ some row.scopes = scopes ∧ row.expiresAt = expires ∧
      row.revokedAt = none ∧
      ∀ r ∈ ((Call.createApiToken user name scopes expires).perform cfg cs w).2.db.apiTokens,
        r = row ∨ r ∈ w.db.apiTokens := by
  rcases createApiToken_cases cfg user name scopes expires cs w with
    ⟨⟨e, herror⟩, _⟩ | ⟨token', tid, uid, l, salt, hok, htext, _, huser, hscopes, _, hput⟩
  · rw [herror] at h
    cases h
  · rw [hok] at h
    have htoken : token' = token := Reply.created.inj (Except.ok.inj h)
    rw [hput]
    refine ⟨htoken ▸ htext, _, mem_put.mpr (.inl rfl), rfl, ⟨salt, rfl⟩,
      (canonical_eq huser).symm, hscopes.symm, rfl, rfl, ?_⟩
    intro r hr
    rcases mem_put.mp hr with hr | ⟨hr, _⟩
    · exact .inl hr
    · exact .inr hr

end Creation

/-- A token that was just handed out, with no other token whose secret begins alike, answers to the
text it was handed out as and to that text without the scheme, white space around them or not, and
no text that spells no secret is answered — exactly when the secret does not itself begin with the
scheme. -/
theorem roundTrip_iff (cfg : Config) (hideal : cfg.env.IdealHasher) {w : World}
    (hgenuine : Genuine cfg.env w.db.apiTokens) {user name : String} {scopes : Option (List String)}
    {expires : Option Time} {cs : Nat → Choice} {token : CreatedToken}
    (hcreated : ((Call.createApiToken user name scopes expires).perform cfg cs w).1 =
      .ok (.created token))
    (hsecret : isSecret (cs 0).secret = true)
    (halone : ∀ r ∈ w.db.apiTokens, r.tokenPrefix ≠ box (cs 0).secret)
    (hfuture : (expires.all fun e =>
      ((Call.createApiToken user name scopes expires).perform cfg cs w).2.now ≤ e) = true) :
    RoundTrip cfg ((Call.createApiToken user name scopes expires).perform cfg cs w).2 token.secret
      (canonical user) scopes expires ↔ beginsWithScheme (cs 0).secret = false := by
  obtain ⟨htext, row, hrow, hbox, hhash, howner, hscopes, hexpires, hforce, hothers⟩ :=
    created_row hcreated
  have hstored : Stored cfg.env (cs 0).secret row := ⟨hsecret, hbox, hhash⟩
  rw [htext]
  generalize ((Call.createApiToken user name scopes expires).perform cfg cs w).2 = w' at *
  have honly : ∀ r ∈ w'.db.apiTokens, r.tokenPrefix = box (cs 0).secret → r = row := by
    intro r hr hprefix
    rcases hothers r hr with heq | hold
    · exact heq
    · exact absurd hprefix (halone r hold)
  have hgenuine' : Genuine cfg.env w'.db.apiTokens := by
    intro r hr
    rcases hothers r hr with heq | hold
    · exact ⟨_, heq ▸ hstored⟩
    · exact hgenuine r hold
  constructor
  · intro h
    by_contra hscheme
    rw [Bool.not_eq_false] at hscheme
    -- without the scheme the text is not taken apart
    have hanswer := h.accepts (withoutScheme (tokenText (cs 0).secret)) (.inr (around_self _))
      (fun _ => {}) fun _ => rfl
    rw [refused_of_split (split_withoutScheme hsecret hscheme)] at hanswer
    cases hanswer hfuture
  · intro hscheme
    refine ⟨?_, ?_⟩
    · intro s hs cs' hcs
      obtain ⟨rest, hsplit, hfull⟩ := split_of_spells hsecret hscheme hs
      have hanswer := answer_of_only hideal hrow hstored hforce honly hsplit hfull (hcs 0)
      rw [hexpires, howner, hscopes] at hanswer
      exact hanswer
    · intro s hnone cs'
      cases hres : ((Call.validateApiToken s).perform cfg cs' w').1 with
      | error e => exact ⟨e, rfl⟩
      | ok reply =>
          obtain ⟨r, hr, raw, hraw, hspells⟩ := spells_of_answer hideal hgenuine' hres
          exact absurd hspells (hnone r hr raw hraw)

/-! ## Two secrets -/

/-- A secret whose first characters are those of the scheme. -/
def schemeSecret : String := "oat_AAAAAAAAAAAAAAAAAAAAAAAAAAAAAAAAAAAAAAA"

set_option maxRecDepth 10000 in
/-- A token that answers to both spellings. -/
theorem roundTrip_plain :
    let created :=
      (creation 1000 firstSecret).1.perform toyConfig (creation 1000 firstSecret).2 annWorld
    RoundTrip toyConfig created.2 firstEntry.text (Uuid.ofNat 1).string (some ["read"]) none := by
  have hcreated :
      ((creation 1000 firstSecret).1.perform toyConfig (creation 1000 firstSecret).2 annWorld).1 =
      .ok (.created ⟨(Uuid.ofNat 1000).string, "AAAAAAAA", firstEntry.text⟩) := by
    decide +kernel
  have hgenuine : Genuine toyConfig.env annWorld.db.apiTokens :=
    fun r hr => absurd hr (not_mem_empty r)
  have halone : ∀ r ∈ annWorld.db.apiTokens, r.tokenPrefix ≠ box firstSecret :=
    fun r hr => absurd hr (not_mem_empty r)
  exact (roundTrip_iff toyConfig toyEnv_ideal hgenuine hcreated (by decide) halone rfl).mpr
    (by decide)

set_option maxRecDepth 10000 in
/-- 32 random bytes whose secret begins with the scheme: its token is answered with the scheme and
refused without. -/
theorem scheme_in_secret :
    let created :=
      (creation 1000 schemeSecret).1.perform toyConfig (creation 1000 schemeSecret).2 annWorld
    Base64.encode ([161, 171, 127] ++ List.replicate 29 0) = schemeSecret ∧
      isSecret schemeSecret = true ∧
      created.1 = .ok (.created ⟨(Uuid.ofNat 1000).string, "oat_AAAA", tokenText schemeSecret⟩) ∧
      ((Call.validateApiToken (tokenText schemeSecret)).perform toyConfig (fun _ => {})
        created.2).1 =
        .ok (.identity (Uuid.ofNat 1).string (some ["read"])) ∧
      ((Call.validateApiToken (withoutScheme (tokenText schemeSecret))).perform
        toyConfig (fun _ => {}) created.2).1 = .error .invalidToken := by
  decide +kernel

end TokenTexts
end Service
end OrbitAuth
