import OrbitAuth.Token.RemoteVerifier

/-!
# Publication — what a published key set tells its readers

`KeySet.document` writes a key set down and `JWKSet.keySet` reads it back.

* `publication_round_trip`: a set the reader's rules admit comes back as it was, and so does every
  set that was itself read from a document;
* `loaded_published_iff`: which of the sets the loader admits come back at all.  The loader asks for
  less than the reader, and one key the reader refuses costs the whole document
  (`blank_key_id_unpublishable`).
-/

namespace OrbitAuth
namespace Token
namespace Publication

open Domain Foundations

variable {key : PublicKey} {keys : KeySet} {e : KeyEntry}

/-! ## One key -/

/-- What the reader asks of a key. -/
structure Readable (e : KeyEntry) : Prop where
  named : trimSpace e.keyID ≠ ""
  large : 2 ^ 2047 ≤ e.key.modulus
  three : 3 ≤ e.key.exponent
  odd : e.key.exponent % 2 = 1
  short : e.key.exponent < 2 ^ 32

theorem decode_bytesOf (n : Nat) : Base64.decode (Base64.encode (Base64.bytesOf n)) =
    some (Base64.bytesOf n) :=
  Base64.decode_encode Base64.bytesOf_lt

/-- The check of the numbers alone. -/
theorem rsaKey_ok {keyID : String} {modulus exponent : List Nat} :
    rsaKey keyID modulus exponent = .ok key ↔
      key = ⟨Base64.bigEndian modulus, Base64.bigEndian exponent⟩ ∧
        2 ^ 2047 ≤ key.modulus ∧ 3 ≤ key.exponent ∧ key.exponent % 2 = 1 := by
  unfold rsaKey
  dsimp only
  split
  · rename_i hbad
    simp only [Bool.or_eq_true, decide_eq_true_eq] at hbad
    constructor
    · intro h
      cases h
    · rintro ⟨rfl, hlarge, hthree, hodd⟩
      dsimp only at hlarge hthree hodd
      omega
  · rename_i hgood
    simp only [Bool.or_eq_true, decide_eq_true_eq, not_or, Nat.not_lt] at hgood
    constructor
    · intro h
      cases h
      exact ⟨rfl, hgood.1.1, hgood.1.2, by dsimp only; omega⟩
    · rintro ⟨rfl, _⟩
      rfl

/-- What an accepted entry of a document says. -/
theorem publicKey_ok {jwk : JWK} (h : jwk.publicKey = .ok key) :
    ∃ modulus exponent, Base64.decode jwk.modulus = some modulus ∧
      Base64.decode jwk.exponent = some exponent ∧ exponent.length ≤ 4 ∧
      trimSpace jwk.keyID ≠ "" ∧ rsaKey jwk.keyID modulus exponent = .ok key := by
  unfold JWK.publicKey at h
  split at h
  · cases h
  · rename_i hkind
    simp only [Bool.or_eq_true, decide_eq_true_eq, not_or] at hkind
    cases hmodulus : Base64.decode jwk.modulus with
    | none =>
        rw [hmodulus] at h
        cases h
    | some modulus =>
        cases hexponent : Base64.decode jwk.exponent with
        | none =>
            rw [hmodulus, hexponent] at h
            cases h
        | some exponent =>
            rw [hmodulus, hexponent] at h
            dsimp only at h
            split at h
            · cases h
            · rename_i hlength
              simp only [Bool.or_eq_true, decide_eq_true_eq, not_or, Nat.not_lt] at hlength
              exact ⟨modulus, exponent, rfl, rfl, hlength.2, hkind.2, h⟩

/-- Every key read from a document can be read again. -/
theorem readable_of_publicKey {jwk : JWK} (h : jwk.publicKey = .ok key) :
    Readable ⟨jwk.keyID, key⟩ := by
  obtain ⟨modulus, exponent, _, hexponent, hlength, hnamed, hkey⟩ := publicKey_ok h
  obtain ⟨heq, hlarge, hthree, hodd⟩ := rsaKey_ok.mp hkey
  refine ⟨hnamed, hlarge, hthree, hodd, ?_⟩
  calc key.exponent = Base64.bigEndian exponent := by rw [heq]
    _ < 256 ^ exponent.length := Base64.bigEndian_lt (Base64.decode_lt hexponent)
    _ ≤ 256 ^ 4 := Nat.pow_le_pow_right (by decide) hlength
    _ = 2 ^ 32 := by decide

/-- A published key is read back exactly when the reader admits it. -/
theorem jwk_publicKey : e.jwk.publicKey = .ok key ↔ Readable e ∧ key = e.key := by
  constructor
  · intro h
    obtain ⟨modulus, exponent, hmodulus, hexponent, _, _, hkey⟩ := publicKey_ok h
    rw [show e.jwk.modulus = Base64.encode (Base64.bytesOf e.key.modulus) from rfl, decode_bytesOf,
      Option.some.injEq] at hmodulus
    rw [show e.jwk.exponent = Base64.encode (Base64.bytesOf e.key.exponent) from rfl,
      decode_bytesOf, Option.some.injEq] at hexponent
    have heq := (rsaKey_ok.mp hkey).1
    rw [← hmodulus, ← hexponent, Base64.bigEndian_bytesOf, Base64.bigEndian_bytesOf] at heq
    have hreadable := readable_of_publicKey h
    rw [heq] at hreadable
    exact ⟨hreadable, heq⟩
  · rintro ⟨hreadable, rfl⟩
    have hkind : (e.jwk.keyType ≠ "RSA" || e.jwk.alg ≠ algorithm || e.jwk.use ≠ "sig" ||
        trimSpace e.jwk.keyID = "") = false := by
      simp [KeyEntry.jwk, hreadable.named]
    -- the exponent fills one to four bytes
    have hpos : (Base64.bytesOf e.key.exponent).length ≠ 0 :=
      Base64.length_bytesOf_pos (by have := hreadable.three; omega)
    have hfour : (Base64.bytesOf e.key.exponent).length ≤ 4 :=
      Base64.length_bytesOf_le.mpr (by have := hreadable.short; omega)
    have hlength : ((Base64.bytesOf e.key.exponent).length = 0 ||
        4 < (Base64.bytesOf e.key.exponent).length) = false := by
      simp [hpos, hfour]
    have hkey : rsaKey e.keyID (Base64.bytesOf e.key.modulus) (Base64.bytesOf e.key.exponent) =
        .ok e.key := by
      refine rsaKey_ok.mpr ⟨?_, hreadable.large, hreadable.three, hreadable.odd⟩
      rw [Base64.bigEndian_bytesOf, Base64.bigEndian_bytesOf]
    unfold JWK.publicKey
    rw [if_neg (Bool.eq_false_iff.mp hkind)]
    dsimp only [KeyEntry.jwk]
    rw [decode_bytesOf, decode_bytesOf]
    dsimp only
    rw [if_neg (Bool.eq_false_iff.mp hlength)]
    exact hkey

/-! ## Documents -/

/-- The entries of a key set in the order of their ids. -/
def sortedEntries (keys : KeySet) : List KeyEntry :=
  keys.sortedIDs.filterMap keys.find?

theorem document_keys (keys : KeySet) :
    keys.document.keys = (sortedEntries keys).map KeyEntry.jwk := by
  have hentry : ∀ keyID, (keys.get keyID).map (fun key => KeyEntry.jwk ⟨keyID, key⟩) =
      (keys.find? keyID).map KeyEntry.jwk := by
    intro keyID
    unfold KeySet.get
    cases hfind : keys.find? keyID with
    | none => rfl
    | some e =>
        obtain ⟨_, hid⟩ := find?_eq_some.mp hfind
        subst hid
        rfl
  rw [sortedEntries, List.map_filterMap]
  exact List.filterMap_congr fun keyID _ => hentry keyID

theorem mem_sortedIDs {keyID : String} : keyID ∈ keys.sortedIDs ↔ ∃ e ∈ keys, e.keyID = keyID := by
  unfold KeySet.sortedIDs
  rw [List.mem_insertionSort, List.mem_map]
  rfl

theorem mem_sortedEntries : e ∈ sortedEntries keys ↔ e ∈ keys := by
  unfold sortedEntries
  rw [List.mem_filterMap]
  constructor
  · rintro ⟨keyID, _, hfind⟩
    exact (find?_eq_some.mp hfind).1
  · intro he
    exact ⟨e.keyID, mem_sortedIDs.mpr ⟨e, he, rfl⟩, find?_of_mem he⟩

/-- The entries carry the sorted ids. -/
theorem map_sortedEntries (keys : KeySet) : (sortedEntries keys).map KeyEntry.keyID =
    keys.sortedIDs := by
  unfold sortedEntries
  rw [List.map_filterMap]
  have hsome : ∀ keyID ∈ keys.sortedIDs, (keys.find? keyID).map KeyEntry.keyID = some keyID := by
    intro keyID hmem
    obtain ⟨e, he, rfl⟩ := mem_sortedIDs.mp hmem
    rw [show keys.find? e.keyID = some e from find?_of_mem he]
    rfl
  calc keys.sortedIDs.filterMap (fun keyID => (keys.find? keyID).map KeyEntry.keyID)
      = keys.sortedIDs.filterMap some := List.filterMap_congr hsome
    _ = keys.sortedIDs := List.filterMap_some

theorem sortedIDs_increasing (keys : KeySet) : keys.sortedIDs.Pairwise (· < ·) := by
  have hnodup : keys.sortedIDs.Nodup := (List.perm_insertionSort _ _).nodup_iff.mpr keys.nodup
  exact ((List.pairwise_insertionSort _ _).sortedLE.sortedLT_of_nodup hnodup).pairwise

/-- A document lists its keys in the order of their ids. -/
theorem document_increasing (keys : KeySet) :
    (keys.document.keys.map JWK.keyID).Pairwise (· < ·) := by
  have hids : keys.document.keys.map JWK.keyID = keys.sortedIDs := by
    rw [document_keys, List.map_map, ← map_sortedEntries]
    rfl
  rw [hids]
  exact sortedIDs_increasing keys

theorem length_document (keys : KeySet) : keys.document.keys.length = keys.rows.length := by
  calc keys.document.keys.length = ((sortedEntries keys).map KeyEntry.keyID).length := by
        rw [document_keys, List.length_map, List.length_map]
    _ = keys.sortedIDs.length := by rw [map_sortedEntries]
    _ = keys.rows.length := by rw [KeySet.sortedIDs, List.length_insertionSort, List.length_map]

/-! ## Reading a document -/

/-- The two sets hold the same keys under the same ids. -/
def Same (keys keys' : KeySet) : Prop :=
  ∀ keyID, keys.get keyID = keys'.get keyID

theorem same_of_mem {keys keys' : KeySet} (h : ∀ e, e ∈ keys ↔ e ∈ keys') : Same keys keys' := by
  intro keyID
  unfold KeySet.get
  rw [Table.find?_congr h keyID]

/-- Readable entries with new ids are all taken over. -/
theorem collect_entries {es : List KeyEntry} (hreadable : ∀ e ∈ es, Readable e)
    (hnodup : (es.map KeyEntry.keyID).Nodup) :
    ∀ {keys : KeySet}, (∀ e ∈ es, keys.get e.keyID = none) →
      ∃ keys', collect keys (es.map KeyEntry.jwk) = .ok keys' ∧ ∀ e, e ∈ keys' ↔
      e ∈ keys ∨ e ∈ es := by
  induction es with
  | nil =>
      intro keys _
      exact ⟨keys, rfl, by simp⟩
  | cons x es ih =>
      intro keys hnew
      rw [List.map_cons, List.nodup_cons] at hnodup
      have hput : ∀ e ∈ es, KeySet.get (keys.put x) e.keyID = none := by
        intro e he
        have hne : e.keyID ≠ x.keyID := fun h => hnodup.1 (h ▸ List.mem_map_of_mem he)
        have hfind : (keys.put x).find? e.keyID = keys.find? e.keyID := by
          rw [find?_put]
          exact if_neg (Ne.symm hne)
        unfold KeySet.get
        rw [hfind]
        exact hnew e (List.mem_cons_of_mem _ he)
      obtain ⟨keys', hcollect, hmem⟩ :=
        ih (fun e he => hreadable e (List.mem_cons_of_mem _ he)) hnodup.2 hput
      refine ⟨keys', ?_, ?_⟩
      · have hkey : x.jwk.publicKey = .ok x.key := jwk_publicKey.mpr ⟨hreadable x (by simp), rfl⟩
        exact collect_cons.mpr ⟨x.key, hkey, hnew x (by simp), hcollect⟩
      · intro e
        -- an old entry is not overwritten: its id is not that of `x`
        have hold : e ∈ keys → e.keyID ≠ x.keyID := KeySet.keyID_ne_of_get (hnew x (by simp))
        rw [hmem, mem_put, List.mem_cons]
        constructor
        · rintro ((rfl | ⟨he, _⟩) | he)
          · exact .inr (.inl rfl)
          · exact .inl he
          · exact .inr (.inr he)
        · rintro (he | rfl | he)
          · exact .inl (.inr ⟨he, hold he⟩)
          · exact .inl (.inl rfl)
          · exact .inr he

/-- Collecting adds one key for every entry, and refuses unless every entry is acceptable. -/
theorem collect_ok {jwks : List JWK} :
    ∀ {keys keys' : KeySet}, collect keys jwks = .ok keys' →
      keys'.rows.length = keys.rows.length + jwks.length ∧
      ∀ jwk ∈ jwks, ∃ key, jwk.publicKey = .ok key := by
  induction jwks with
  | nil =>
      intro keys keys' h
      cases h
      simp
  | cons jwk rest ih =>
      intro keys keys' h
      obtain ⟨key, hkey, hnone, hrest⟩ := collect_cons.mp h
      obtain ⟨hlength, hall⟩ := ih hrest
      refine ⟨?_, ?_⟩
      · have hput : (keys.put ⟨jwk.keyID, key⟩).rows.length = keys.rows.length + 1 :=
          Table.length_put_of_new fun e he => KeySet.keyID_ne_of_get hnone he
        rw [hlength, hput, List.length_cons]
        omega
      · intro jwk' hmem
        rcases List.mem_cons.mp hmem with rfl | hmem
        · exact ⟨key, hkey⟩
        · exact hall jwk' hmem

/-- A key set the reader's rules admit: not too many keys, each of them readable. -/
structure Publishable (keys : KeySet) : Prop where
  nonempty : 1 ≤ keys.rows.length
  bounded : keys.rows.length ≤ 100
  readable : ∀ e ∈ keys, Readable e

/-- A document is read back exactly when the set is publishable, and then as it was. -/
theorem document_keySet (keys : KeySet) :
    ((∃ keys', keys.document.keySet = .ok keys') ↔ Publishable keys) ∧
      ∀ keys', keys.document.keySet = .ok keys' → Same keys' keys := by
  -- the entries are read in the order of their ids, which are distinct
  have hforward : Publishable keys → ∃ keys', keys.document.keySet = .ok keys' ∧
      Same keys' keys := by
    intro h
    have hnodup : ((sortedEntries keys).map KeyEntry.keyID).Nodup := by
      rw [map_sortedEntries]
      exact (sortedIDs_increasing keys).imp fun h => ne_of_lt h
    obtain ⟨keys', hcollect, hmem⟩ := collect_entries
      (fun e he => h.readable e (mem_sortedEntries.mp he)) hnodup
        (fun e _ => KeySet.get_empty e.keyID)
    refine ⟨keys', ?_, same_of_mem fun e => ?_⟩
    · unfold JWKSet.keySet
      have hcount := length_document keys
      rw [if_neg, document_keys]
      · exact hcollect
      · simp only [Bool.or_eq_true, decide_eq_true_eq, not_or, Nat.not_lt, hcount]
        have := h.nonempty
        exact ⟨by omega, h.bounded⟩
    · rw [hmem, mem_sortedEntries]
      simp
  -- an accepted document has accepted every entry
  have hbackward : ∀ keys', keys.document.keySet = .ok keys' → Publishable keys := by
    intro keys' h
    unfold JWKSet.keySet at h
    split at h
    · cases h
    · rename_i hcount
      simp only [Bool.or_eq_true, decide_eq_true_eq, not_or, Nat.not_lt, length_document] at hcount
      refine ⟨by omega, hcount.2, ?_⟩
      intro e he
      have hlisted : e.jwk ∈ keys.document.keys := by
        rw [document_keys]
        exact List.mem_map_of_mem (mem_sortedEntries.mpr he)
      obtain ⟨key, hkey⟩ := (collect_ok h).2 e.jwk hlisted
      exact (jwk_publicKey.mp hkey).1
  refine ⟨⟨?_, ?_⟩, ?_⟩
  · rintro ⟨keys', h⟩
    exact hbackward keys' h
  · intro h
    obtain ⟨keys', hok, _⟩ := hforward h
    exact ⟨keys', hok⟩
  · intro keys' h
    obtain ⟨keys'', hok, hsame⟩ := hforward (hbackward keys' h)
    rw [h] at hok
    cases hok
    exact hsame

/-- What was read can be published. -/
theorem publishable_of_keySet {document : JWKSet} (h : document.keySet = .ok keys) :
    Publishable keys := by
  unfold JWKSet.keySet at h
  split at h
  · cases h
  · rename_i hcount
    simp only [Bool.or_eq_true, decide_eq_true_eq, not_or, Nat.not_lt] at hcount
    have hlength : keys.rows.length = document.keys.length := by
      rw [(collect_ok h).1]
      simp [Table.empty]
    refine ⟨by omega, by omega, ?_⟩
    intro e he
    rcases collect_mem h e he with hempty | ⟨jwk, _, hid, hkey⟩
    · exact absurd hempty (not_mem_empty _)
    · have hreadable := readable_of_publicKey hkey
      rw [hid] at hreadable
      exact hreadable

/-- Publishing and reading back gives the same keys, in a document ordered by key id; in particular
for every set that was read from a document, however that document was written. -/
theorem publication_round_trip :
    (∀ keys : KeySet, Publishable keys →
      (∃ keys', keys.document.keySet = .ok keys' ∧ Same keys' keys) ∧
        (keys.document.keys.map JWK.keyID).Pairwise (· < ·)) ∧
    ∀ (document : JWKSet) (keys : KeySet), document.keySet = .ok keys →
      ∃ keys', keys.document.keySet = .ok keys' ∧ Same keys' keys := by
  have hround : ∀ keys : KeySet, Publishable keys →
      ∃ keys', keys.document.keySet = .ok keys' ∧ Same keys' keys := by
    intro keys h
    obtain ⟨keys', hok⟩ := (document_keySet keys).1.mpr h
    exact ⟨keys', hok, (document_keySet keys).2 keys' hok⟩
  refine ⟨fun keys h => ⟨hround keys h, document_increasing keys⟩, ?_⟩
  intro document keys h
  exact hround keys (publishable_of_keySet h)

/-! ## Sets read from a directory -/

theorem loadRSAPublicKey_large {dir : KeyDirectory} {path : String}
    (h : loadRSAPublicKey dir path = .ok key) : 2 ^ 2047 ≤ key.modulus := by
  unfold loadRSAPublicKey at h
  split at h
  · cases h
  · cases h
  · cases h
  · split at h
    · cases h
    · rename_i hlarge
      cases h
      exact Nat.not_lt.mp hlarge

/-- The loader keeps a set of large keys large and never drops one. -/
theorem loadKeys_large {dir : KeyDirectory} {paths : List String} :
    ∀ {keys keys' : KeySet}, loadKeys dir keys paths = .ok keys' →
      (∀ e ∈ keys, 2 ^ 2047 ≤ e.key.modulus) →
      (∀ e ∈ keys', 2 ^ 2047 ≤ e.key.modulus) ∧
      (paths ≠ [] ∨ (∃ e, e ∈ keys) → ∃ e, e ∈ keys') := by
  induction paths with
  | nil =>
      intro keys keys' h hlarge
      cases h
      exact ⟨hlarge, by simp⟩
  | cons path rest ih =>
      intro keys keys' h hlarge
      unfold loadKeys at h
      split at h
      · cases h
      · cases hkey : loadRSAPublicKey dir path with
        | error e =>
            rw [hkey] at h
            cases h
        | ok key =>
            rw [hkey] at h
            dsimp only at h
            -- a later file of the same id replaces the key, and is as large
            have hput : ∀ e ∈ keys.put ⟨pathKeyID path, key⟩, 2 ^ 2047 ≤ e.key.modulus := by
              intro e he
              rcases mem_put.mp he with rfl | ⟨he, _⟩
              · exact loadRSAPublicKey_large hkey
              · exact hlarge e he
            obtain ⟨hall, hsome⟩ := ih h hput
            exact ⟨hall, fun _ => hsome (.inr ⟨_, mem_put.mpr (.inl rfl)⟩)⟩

/-- What the loader guarantees: some key, and none of less than 2048 bits. -/
theorem loadKeySet_ok {dir : KeyDirectory} (h : loadKeySet dir = .ok keys) :
    1 ≤ keys.rows.length ∧ ∀ e ∈ keys, 2 ^ 2047 ≤ e.key.modulus := by
  unfold loadKeySet at h
  split at h
  · cases h
  · rename_i hpaths
    have hnonempty : dir.paths ≠ [] := fun hnil => hpaths (by rw [hnil]; rfl)
    obtain ⟨hlarge, hsome⟩ := loadKeys_large h fun e he => absurd he (not_mem_empty e)
    obtain ⟨e, he⟩ := hsome (.inl hnonempty)
    exact ⟨List.length_pos_of_mem he, hlarge⟩

/-- Readers of the published document verify what the holder of the keys verifies. -/
def ServesReaders (keys : KeySet) : Prop :=
  ∃ keys', keys.document.keySet = .ok keys' ∧
    ∀ (lib : Library) (raw : String) (now : Int),
      parseAccessToken lib raw keys' now = parseAccessToken lib raw keys now

theorem parseAccessToken_same {keys keys' : KeySet} (h : Same keys keys') (lib : Library)
    (raw : String) (now : Int) : parseAccessToken lib raw keys now =
      parseAccessToken lib raw keys' now := by
  unfold parseAccessToken
  cases tokenKeyID lib raw with
  | error e => rfl
  | ok keyID =>
      dsimp only
      rw [h keyID]

/-- What a loaded set lacks to be published: at most 100 keys, ids that are not blank, and odd
exponents from 3 up to four bytes. -/
structure Restrained (keys : KeySet) : Prop where
  bounded : keys.rows.length ≤ 100
  named : ∀ e ∈ keys, trimSpace e.keyID ≠ ""
  exponents : ∀ e ∈ keys, 3 ≤ e.key.exponent ∧ e.key.exponent % 2 = 1 ∧ e.key.exponent < 2 ^ 32

/-- A loaded key set reaches its readers exactly when it is restrained. -/
theorem loaded_published_iff {dir : KeyDirectory} {keys : KeySet} (h : loadKeySet dir = .ok keys) :
    ServesReaders keys ↔ Restrained keys := by
  obtain ⟨hnonempty, hlarge⟩ := loadKeySet_ok h
  constructor
  · rintro ⟨keys', hok, _⟩
    have hpublishable := (document_keySet keys).1.mp ⟨keys', hok⟩
    refine ⟨hpublishable.bounded, fun e he => (hpublishable.readable e he).named, fun e he => ?_⟩
    have hreadable := hpublishable.readable e he
    exact ⟨hreadable.three, hreadable.odd, hreadable.short⟩
  · intro hrestrained
    have hpublishable : Publishable keys := by
      refine ⟨hnonempty, hrestrained.bounded, fun e he => ?_⟩
      obtain ⟨hthree, hodd, hshort⟩ := hrestrained.exponents e he
      exact ⟨hrestrained.named e he, hlarge e he, hthree, hodd, hshort⟩
    obtain ⟨keys', hok⟩ := (document_keySet keys).1.mpr hpublishable
    exact ⟨keys', hok, parseAccessToken_same ((document_keySet keys).2 keys' hok)⟩

/-! ## Directories -/

/-- A key of 2048 bits with the usual exponent. -/
def usualKey : PublicKey :=
  ⟨2 ^ 2047 + 1, 65537⟩

theorem usualKey_large : 2 ^ 2047 ≤ usualKey.modulus := by
  decide +kernel

/-- The set that holds this key under every id. -/
def keySetOf (ids : List String) : KeySet :=
  ids.foldl (fun keys keyID => keys.put ⟨keyID, usualKey⟩) Table.empty

/-- A directory in which every file holds it. -/
def usualFiles (paths : List String) : KeyDirectory where
  paths := paths
  read _ := .rsa { usualKey with positive := by decide, machine := by decide }

theorem mem_foldl_usual (ids : List String) :
    ∀ keys : KeySet, e ∈ ids.foldl (fun keys keyID => keys.put ⟨keyID, usualKey⟩) keys ↔
      (e ∈ keys ∧ e.keyID ∉ ids) ∨ (e.keyID ∈ ids ∧ e.key = usualKey) := by
  induction ids with
  | nil => simp
  | cons keyID ids ih =>
      intro keys
      rw [List.foldl_cons, ih, mem_put, List.mem_cons]
      obtain ⟨id, key⟩ := e
      simp only [KeyEntry.mk.injEq, key_keyEntry]
      tauto

theorem mem_keySetOf {ids : List String} : e ∈ keySetOf ids ↔ e.keyID ∈ ids ∧ e.key = usualKey := by
  rw [keySetOf, mem_foldl_usual]
  simp

theorem loadRSAPublicKey_usual (all : List String) (path : String) :
    loadRSAPublicKey (usualFiles all) path = .ok usualKey := by
  have hlarge : ¬ usualKey.modulus < 2 ^ 2047 := Nat.not_lt.mpr usualKey_large
  unfold loadRSAPublicKey usualFiles
  dsimp only
  rw [if_neg hlarge]

theorem loadKeys_usual (all : List String) {paths : List String}
    (h : ∀ path ∈ paths, pathKeyID path ≠ "") :
    ∀ keys : KeySet, loadKeys (usualFiles all) keys paths =
      .ok ((paths.map pathKeyID).foldl (fun keys keyID => keys.put ⟨keyID, usualKey⟩) keys) := by
  induction paths with
  | nil => exact fun _ => rfl
  | cons path paths ih =>
      intro keys
      rw [loadKeys, if_neg (h path (by simp)), loadRSAPublicKey_usual]
      exact ih (fun path hpath => h path (List.mem_cons_of_mem _ hpath)) _

theorem loadKeySet_usual {paths : List String} (hpaths : paths ≠ [])
    (h : ∀ path ∈ paths, pathKeyID path ≠ "") :
    loadKeySet (usualFiles paths) = .ok (keySetOf (paths.map pathKeyID)) := by
  have hlength : ¬ (usualFiles paths).paths.length = 0 :=
    fun hzero => hpaths (List.length_eq_zero_iff.mp hzero)
  rw [loadKeySet, if_neg hlength]
  exact loadKeys_usual paths h _

theorem readable_usual {keyID : String} (h : trimSpace keyID ≠ "") :
    Readable ⟨keyID, usualKey⟩ := by
  have hexponent : 3 ≤ usualKey.exponent ∧ usualKey.exponent % 2 = 1 ∧
      usualKey.exponent < 2 ^ 32 := by
    decide
  exact ⟨h, usualKey_large, hexponent.1, hexponent.2.1, hexponent.2.2⟩

/-- Two keys, not in the order of their ids. -/
theorem publishable_two : Publishable (keySetOf ["k2", "k1"]) := by
  refine ⟨by decide, by decide, ?_⟩
  intro e he
  obtain ⟨hid, hkey⟩ := mem_keySetOf.mp he
  have hnamed : ∀ keyID ∈ ["k2", "k1"], trimSpace keyID ≠ "" := by decide +kernel
  obtain ⟨keyID, key⟩ := e
  subst hkey
  exact readable_usual (hnamed keyID hid)

theorem publication_round_trip_two :
    (keySetOf ["k2", "k1"]).document.keys.map JWK.keyID = ["k1", "k2"] ∧
      ∃ keys', (keySetOf ["k2", "k1"]).document.keySet = .ok keys' ∧
      Same keys' (keySetOf ["k2", "k1"]) :=
  ⟨by decide +kernel, (publication_round_trip.1 _ publishable_two).1⟩

/-- A directory with one ordinary key file. -/
theorem loaded_published_one :
    ∃ keys, loadKeySet (usualFiles ["keys/k1.pem"]) = .ok keys ∧ ServesReaders keys := by
  have hload : loadKeySet (usualFiles ["keys/k1.pem"]) = .ok (keySetOf ["k1"]) := by
    rw [loadKeySet_usual (by simp) (by decide +kernel)]
    have hids : ["keys/k1.pem"].map pathKeyID = ["k1"] := by decide +kernel
    rw [hids]
  refine ⟨keySetOf ["k1"], hload, (loaded_published_iff hload).mpr ⟨by decide, ?_, ?_⟩⟩
  · intro e he
    rw [List.mem_singleton.mp (mem_keySetOf.mp he).1]
    decide +kernel
  · intro e he
    rw [(mem_keySetOf.mp he).2]
    decide

/-- A file whose name is a blank before `.pem` beside an ordinary one: both are loaded, and readers
refuse the document with both. -/
theorem blank_key_id_unpublishable :
    ∃ keys, loadKeySet (usualFiles ["keys/ .pem", "keys/k1.pem"]) = .ok keys ∧
      keys.get "k1" = some usualKey ∧ ¬ ServesReaders keys := by
  have hids : ["keys/ .pem", "keys/k1.pem"].map pathKeyID = [" ", "k1"] := by decide +kernel
  refine ⟨keySetOf [" ", "k1"], ?_, KeySet.get_eq_some.mpr (mem_keySetOf.mpr ⟨by simp, rfl⟩), ?_⟩
  · rw [loadKeySet_usual (by simp) (by decide +kernel), hids]
  · rintro ⟨keys', hok, _⟩
    have hpublishable := (document_keySet _).1.mp ⟨keys', hok⟩
    have hblank : (⟨" ", usualKey⟩ : KeyEntry) ∈ keySetOf [" ", "k1"] :=
      mem_keySetOf.mpr ⟨by simp, rfl⟩
    exact (hpublishable.readable _ hblank).named (by decide +kernel)

end Publication
end Token
end OrbitAuth
