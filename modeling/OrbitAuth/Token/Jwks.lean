import Mathlib.Data.List.Sort
import Mathlib.Data.String.Basic
import OrbitAuth.Domain.Entities
import OrbitAuth.Foundations.Base64
import OrbitAuth.Foundations.Table

/-!
# Jwks — key sets and the document that publishes them

A key set maps key ids to RSA public keys; ids are unique because the set is a keyed table.
`loadKeySet` reads one from a directory of PEM files, `KeySet.document` publishes it, and
`JWKSet.keySet` validates a published document and converts it, refusing the whole document at the
first key it does not like.

`keySet_listed` — every key of the result is one the document lists under its id.
-/

namespace OrbitAuth
namespace Token

open Domain Foundations

/-- The errors of the package.  `quoted` is a text with one `%q` in it; `library` is an error the
JWT library reports. -/
inductive TokenError
  | message (text : String)
  | quoted (before value after : String)
  | status (code : Nat)
  | library
  deriving DecidableEq, Repr

def algorithm : String := "RS256"

structure PublicKey where
  modulus : Nat
  exponent : Nat
  deriving DecidableEq, Repr

/-! ## Key sets -/

structure KeyEntry where
  keyID : String
  key : PublicKey
  deriving DecidableEq

instance : Keyed KeyEntry String := ⟨KeyEntry.keyID⟩

@[simp] theorem key_keyEntry (e : KeyEntry) : Keyed.key e = e.keyID := rfl

abbrev KeySet := Table KeyEntry

namespace KeySet

/-- `keys[keyID]`, with `nil` as `none`. -/
def get (keys : KeySet) (keyID : String) : Option PublicKey :=
  (keys.find? keyID).map KeyEntry.key

/-- `KeySet{keyID: key}`. -/
def single (keyID : String) (key : PublicKey) : KeySet :=
  Table.empty.put ⟨keyID, key⟩

theorem get_eq_some {keys : KeySet} {keyID : String} {key : PublicKey} :
    keys.get keyID = some key ↔ ⟨keyID, key⟩ ∈ keys := by
  unfold get
  rw [Option.map_eq_some_iff]
  constructor
  · rintro ⟨e, hfind, rfl⟩
    rcases find?_eq_some.1 hfind with ⟨he, rfl⟩
    exact he
  · intro h
    exact ⟨⟨keyID, key⟩, find?_eq_some.2 ⟨h, rfl⟩, rfl⟩

@[simp] theorem get_empty (keyID : String) : get Table.empty keyID = none := rfl

@[simp] theorem get_single (keyID : String) (key : PublicKey) :
    (single keyID key).get keyID = some key :=
  get_eq_some.2 (mem_put.2 (.inl rfl))

theorem keyID_ne_of_get {keys : KeySet} {keyID : String} (h : keys.get keyID = none) {e : KeyEntry}
    (he : e ∈ keys) : e.keyID ≠ keyID := by
  rintro rfl
  rw [get_eq_some.2 he] at h
  cases h

end KeySet

/-! ## Loading -/

/-- An RSA key as the x509 parsers return it: the exponent is a positive machine integer. -/
structure ParsedKey extends PublicKey where
  positive : 0 < exponent
  machine : exponent < 2 ^ 63

/-- What a key file turns out to be. -/
inductive KeyFile
  | unreadable
  | noPEM
  | unsupported
  | rsa (key : ParsedKey)

/-- A directory of keys: the paths that match `*.pem`, and the files themselves. -/
structure KeyDirectory where
  paths : List String
  read : String → KeyFile

/-- The last element of a path. -/
def base (path : String) : List Char :=
  path.toList.rtakeWhile (· ≠ '/')

/-- The suffix of the last element that begins at its last dot. -/
def ext (path : String) : List Char :=
  if '.' ∈ base path then '.' :: (base path).rtakeWhile (· ≠ '.') else []

/-- `strings.TrimSuffix(filepath.Base(path), filepath.Ext(path))`. -/
def pathKeyID (path : String) : String :=
  String.ofList ((base path).take ((base path).length - (ext path).length))

def loadRSAPublicKey (dir : KeyDirectory) (path : String) : Except TokenError PublicKey :=
  match dir.read (trimSpace path) with
  | .unreadable => .error (.message "read JWT public key")
  | .noPEM => .error (.message "JWT public key file does not contain PEM data")
  | .unsupported => .error (.message "JWT public key must be an RSA PKIX or PKCS#1 PEM key")
  | .rsa key =>
      if key.modulus < 2 ^ 2047 then
        .error (.message "JWT RSA public key must be at least 2048 bits")
      else .ok key.toPublicKey

/-- The loop over the files of a directory.  The error of a key file is reported under its id. -/
def loadKeys (dir : KeyDirectory) : KeySet → List String → Except TokenError KeySet
  | keys, [] => .ok keys
  | keys, path :: rest =>
      if pathKeyID path = "" then
        .error (.message "JWT public key filename must provide a key ID")
      else
        match loadRSAPublicKey dir path with
        | .error _ => .error (.quoted "load JWT key " (pathKeyID path) "")
        | .ok key => loadKeys dir (keys.put ⟨pathKeyID path, key⟩) rest

def loadKeySet (dir : KeyDirectory) : Except TokenError KeySet :=
  if dir.paths.length = 0 then
    .error (.message "JWT public key directory contains no PEM keys")
  else loadKeys dir Table.empty dir.paths

example : pathKeyID "/etc/orbit/keys/2024.primary.pem" = "2024.primary" := by decide +kernel
example : pathKeyID ".pem" = "" := by decide +kernel

/-! ## Documents -/

structure JWK where
  keyType : String
  use : String
  alg : String
  keyID : String
  modulus : String
  exponent : String
  deriving DecidableEq, Repr

structure JWKSet where
  keys : List JWK
  deriving DecidableEq, Repr

/-- The published form of a key. -/
def KeyEntry.jwk (e : KeyEntry) : JWK where
  keyType := "RSA"
  use := "sig"
  alg := algorithm
  keyID := e.keyID
  modulus := Base64.encode (Base64.bytesOf e.key.modulus)
  exponent := Base64.encode (Base64.bytesOf e.key.exponent)

/-- The key ids in the order of `sort.Strings`. -/
def KeySet.sortedIDs (keys : KeySet) : List String :=
  (keys.rows.map KeyEntry.keyID).insertionSort (· ≤ ·)

def KeySet.document (keys : KeySet) : JWKSet where
  keys := keys.sortedIDs.filterMap fun keyID =>
    (keys.get keyID).map fun key => KeyEntry.jwk ⟨keyID, key⟩

/-- The two members of a usable RSA key, of at least 2048 bits. -/
def rsaKey (keyID : String) (modulus exponent : List Nat) : Except TokenError PublicKey :=
  let key : PublicKey := ⟨Base64.bigEndian modulus, Base64.bigEndian exponent⟩
  if key.modulus < 2 ^ 2047 || key.exponent < 3 || key.exponent % 2 = 0 then
    .error (.quoted "orbit JWKS key " keyID " is not a valid 2048-bit RSA signing key")
  else .ok key

/-- The public key of one entry, as far as the entry itself decides. -/
def JWK.publicKey (jwk : JWK) : Except TokenError PublicKey :=
  if jwk.keyType ≠ "RSA" || jwk.alg ≠ algorithm || jwk.use ≠ "sig" || trimSpace jwk.keyID = "" then
    .error (.message "orbit JWKS contains an unsupported key")
  else
    match Base64.decode jwk.modulus with
    | none => .error (.quoted "orbit JWKS key " jwk.keyID " has an invalid modulus")
    | some modulus =>
        match Base64.decode jwk.exponent with
        | none => .error (.quoted "orbit JWKS key " jwk.keyID " has an invalid exponent")
        | some exponent =>
            if exponent.length = 0 || 4 < exponent.length then
              .error (.quoted "orbit JWKS key " jwk.keyID " has an invalid exponent")
            else rsaKey jwk.keyID modulus exponent

/-- The loop over the entries of a document. -/
def collect : KeySet → List JWK → Except TokenError KeySet
  | keys, [] => .ok keys
  | keys, jwk :: rest =>
      match jwk.publicKey with
      | .error e => .error e
      | .ok key =>
          if (keys.get jwk.keyID).isSome then
            .error (.quoted "orbit JWKS contains duplicate key ID " jwk.keyID "")
          else collect (keys.put ⟨jwk.keyID, key⟩) rest

def JWKSet.keySet (document : JWKSet) : Except TokenError KeySet :=
  if document.keys.length = 0 || 100 < document.keys.length then
    .error (.message "orbit JWKS must contain between 1 and 100 keys")
  else collect Table.empty document.keys

/-- The document lists `key` under `keyID`. -/
def JWKSet.Lists (document : JWKSet) (keyID : String) (key : PublicKey) : Prop :=
  ∃ jwk ∈ document.keys, jwk.keyID = keyID ∧ jwk.publicKey = .ok key

/-- Another entry is collected if it can be read and its key ID is new. -/
theorem collect_cons {keys keys' : KeySet} {jwk : JWK} {rest : List JWK} :
    collect keys (jwk :: rest) = .ok keys' ↔ ∃ key, jwk.publicKey = .ok key ∧
      keys.get jwk.keyID = none ∧ collect (keys.put ⟨jwk.keyID, key⟩) rest = .ok keys' := by
  rw [collect]
  cases hkey : jwk.publicKey with
  | error e => simp
  | ok key =>
      dsimp only
      cases hget : keys.get jwk.keyID with
      | none => simp
      | some old => simp

/-- A collected key was there before or comes from one of the entries. -/
theorem collect_mem {jwks : List JWK} :
    ∀ {keys keys' : KeySet}, collect keys jwks = .ok keys' → ∀ e ∈ keys',
      e ∈ keys ∨ ∃ jwk ∈ jwks, jwk.keyID = e.keyID ∧ jwk.publicKey = .ok e.key := by
  induction jwks with
  | nil =>
      intro keys keys' h e he
      cases h
      exact .inl he
  | cons jwk rest ih =>
      intro keys keys' h e he
      obtain ⟨key, hkey, _, hrest⟩ := collect_cons.mp h
      rcases ih hrest e he with hput | ⟨jwk', hmem, hid, hpub⟩
      · rcases mem_put.1 hput with rfl | ⟨hold, _⟩
        · exact .inr ⟨jwk, by simp, rfl, hkey⟩
        · exact .inl hold
      · exact .inr ⟨jwk', List.mem_cons_of_mem _ hmem, hid, hpub⟩

theorem keySet_listed {document : JWKSet} {keys : KeySet} (h : document.keySet = .ok keys)
    {keyID : String} {key : PublicKey} (hkey : keys.get keyID = some key) :
    document.Lists keyID key := by
  unfold JWKSet.keySet at h
  split at h
  · cases h
  · rcases collect_mem h _ (KeySet.get_eq_some.1 hkey) with hempty | hlisted
    · exact absurd hempty (not_mem_empty _)
    · exact hlisted

end Token
end OrbitAuth
