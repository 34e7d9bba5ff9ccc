import Mathlib.Data.Int.Notation
import OrbitAuth.Token.Claims
import OrbitAuth.Token.Jwks

/-!
# RemoteVerifier — verifying access tokens against a fetched key set

`parseAccessToken` verifies a token against a given key set.  A `RemoteVerifier` keeps a key set it
has fetched and refreshes it when it has expired or a token names a key it does not know, each at
most every fifteen seconds.  Known keys stay usable for an hour after the last successful fetch.

What a call meets — the readings of the clock and the outcome of a fetch, should it make one — is
part of the call.  Instants are nanoseconds since Go's zero time, so `0` is the time for which
`IsZero` holds; `Sub` saturates far outside the durations it is compared with.
-/

namespace OrbitAuth
namespace Token

open Domain Foundations

/-! ## Tokens -/

/-- The claims of a received token. -/
structure ReceivedClaims where
  issuer : String
  subject : String
  expiresAt : Option Int
  notBefore : Option Int
  issuedAt : Option Int
  orgID : String
  deriving DecidableEq, Repr

/-- `OrganizationID`: the claim as an identifier, and none for an absent, blank or malformed one. -/
def ReceivedClaims.organizationID (c : ReceivedClaims) : Option Uuid :=
  if trimSpace c.orgID = "" then none else Uuid.parse (trimSpace c.orgID)

/-- A decoded token; `kid` is that header field if it is text. -/
structure Jwt where
  alg : String
  kid : Option String
  claims : ReceivedClaims
  deriving DecidableEq, Repr

/-- A `NumericDate` has whole seconds.  Claims are signed at microseconds and read at nanoseconds.
-/
def numericDate (t : Time) : Int :=
  (t / Domain.second * 1000000000 : Nat)

/-- What the transport of a signed token delivers. -/
def SignedToken.received (t : SignedToken) : Jwt where
  alg := algorithm
  kid := some t.kid
  claims :=
    { issuer := t.claims.issuer, subject := t.claims.subject,
      expiresAt := some (numericDate t.claims.expiresAt), notBefore := none,
      issuedAt := some (numericDate t.claims.issuedAt), orgID := t.claims.orgID }

/-- The JWT library: decoding without verification, and the check of an RS256 signature. -/
structure Library where
  parseUnverified : String → Option Jwt
  verifySignature : String → PublicKey → Bool

section Parse

variable (lib : Library)

/-- The checks `ParseWithClaims` is asked for: expiry required, issued-at, issuer; not-before is
always checked. -/
def validClaims (now : Int) (claims : ReceivedClaims) : Bool :=
  claims.expiresAt.any (now < ·) && claims.notBefore.all (· ≤ now) &&
    claims.issuedAt.all (· ≤ now) && claims.issuer = issuer

def parseWithClaims (raw : String) (key : PublicKey) (now : Int) :
    Except TokenError ReceivedClaims :=
  match lib.parseUnverified raw with
  | none => .error .library
  | some token =>
      if token.alg = algorithm && lib.verifySignature raw key && validClaims now token.claims then
        .ok token.claims
      else .error .library

/-- The key id a token names, read before anything is verified. -/
def tokenKeyID (raw : String) : Except TokenError String :=
  match lib.parseUnverified raw with
  | none => .error .library
  | some token =>
      match token.kid with
      | none => .error (.message "JWT key ID is required")
      | some keyID =>
          if trimSpace keyID = "" then .error (.message "JWT key ID is required") else .ok keyID

/-- Verification under the key the token names. -/
def parseUnder (raw : String) (key : PublicKey) (now : Int) : Except TokenError ReceivedClaims :=
  match parseWithClaims lib raw key now with
  | .error e => .error e
  | .ok claims =>
      if trimSpace claims.subject = "" then .error (.message "JWT subject is required")
      else .ok claims

def parseAccessToken (raw : String) (keys : KeySet) (now : Int) :
    Except TokenError ReceivedClaims :=
  match tokenKeyID lib raw with
  | .error e => .error e
  | .ok keyID =>
      match keys.get keyID with
      | none => .error (.quoted "unknown JWT key ID " keyID "")
      | some key => parseUnder lib raw key now

end Parse

/-! ## The verifier -/

namespace RemoteVerifier

def second : Int := 1000000000
def minute : Int := 60 * second
def hour : Int := 60 * minute

/-- How long a refresh of either kind waits for the next one. -/
def retryInterval : Int := 15 * second

end RemoteVerifier

open RemoteVerifier

/-- How a fetch of the document can go.  `body = none` does not decode. -/
inductive Fetch
  | noRequest
  | unreachable
  | answered (status : Nat) (body : Option JWKSet)
  deriving DecidableEq, Repr

def Fetch.keySet : Fetch → Except TokenError KeySet
  | .noRequest => .error (.message "create JWKS request")
  | .unreachable => .error (.message "fetch Orbit JWKS")
  | .answered status body =>
      if status ≠ 200 then .error (.status status)
      else
        match body with
        | none => .error (.message "decode Orbit JWKS")
        | some document => document.keySet

structure RemoteVerifier where
  cacheLifetime : Int
  maxStale : Int
  keys : KeySet
  fetchedAt : Int
  expiresAt : Int
  lastRefreshAttempt : Int
  lastUnknownRefresh : Int

/-- What a call meets: its reading of the clock under the lock, the fetch it would make with the
reading taken when that has succeeded, and the reading of the final verification. -/
structure Request where
  raw : String
  now : Int
  fetch : Fetch
  fetchedAt : Int
  checkedAt : Int

namespace RemoteVerifier

def refreshLocked (v : RemoteVerifier) (fetch : Fetch) (fetchedAt : Int) :
    Except TokenError Unit × RemoteVerifier :=
  match fetch.keySet with
  | .error e => (.error e, v)
  | .ok keys =>
      (.ok (), { v with
        keys := keys
        fetchedAt := fetchedAt
        expiresAt := fetchedAt + v.cacheLifetime })

/-- The parts of the parsed URL that are looked at. -/
structure ParsedURL where
  scheme : String
  host : String
  hostname : String
  fragment : String
  hasUser : Bool

def localHTTP (url : ParsedURL) : Bool :=
  url.scheme = "http" && (url.hostname = "localhost" || url.hostname = "127.0.0.1" ||
    url.hostname = "host.docker.internal")

def checkURL (parse : String → Option ParsedURL) (jwksURL : String) : Except TokenError Unit :=
  if trimSpace jwksURL = "" then .error (.message "orbit JWKS URL is required")
  else
    match parse (trimSpace jwksURL) with
    | none => .error (.message
        "orbit JWKS URL must be an absolute HTTP(S) URL without a fragment")
    | some url =>
        if url.host = "" || url.fragment ≠ "" || url.hasUser then
          .error (.message "orbit JWKS URL must be an absolute HTTP(S) URL without a fragment")
        else if url.scheme ≠ "https" && !localHTTP url then
          .error (.message "orbit JWKS URL must use HTTPS outside local development")
        else .ok ()

/-- The lifetime a verifier uses: five minutes unless a positive one is given. -/
def effectiveLifetime (cacheLifetime : Int) : Int :=
  if cacheLifetime ≤ 0 then 5 * minute else cacheLifetime

/-- A verifier before its first fetch. -/
def fresh (cacheLifetime : Int) : RemoteVerifier where
  cacheLifetime := effectiveLifetime cacheLifetime
  maxStale := hour
  keys := Table.empty
  fetchedAt := 0
  expiresAt := 0
  lastRefreshAttempt := 0
  lastUnknownRefresh := 0

def newRemoteVerifier (parse : String → Option ParsedURL) (jwksURL : String)
    (cacheLifetime : Int) (fetch : Fetch) (fetchedAt : Int) : Except TokenError RemoteVerifier :=
  match checkURL parse jwksURL with
  | .error e => .error e
  | .ok _ =>
      match (fresh cacheLifetime).refreshLocked fetch fetchedAt with
      | (.error e, _) => .error e
      | (.ok _, v) => .ok v

/-! ### A call -/

/-- The key set has expired, or the key is unknown, and the last refresh for that reason is long
enough ago. -/
def refreshDue (v : RemoteVerifier) (keyID : String) (now : Int) : Bool :=
  (v.expiresAt < now && (v.lastRefreshAttempt = 0 || retryInterval ≤ now - v.lastRefreshAttempt)) ||
    ((v.keys.get keyID).isNone &&
      (v.lastUnknownRefresh = 0 || retryInterval ≤ now - v.lastUnknownRefresh))

/-- The throttling marks a refresh leaves. -/
def marked (v : RemoteVerifier) (keyID : String) (now : Int) : RemoteVerifier :=
  { v with
    lastRefreshAttempt := now
    lastUnknownRefresh := if (v.keys.get keyID).isNone then now else v.lastUnknownRefresh }

/-- The refresh a call makes if one is due. -/
def refreshed (v : RemoteVerifier) (keyID : String) (r : Request) :
    Except TokenError Unit × RemoteVerifier :=
  if v.refreshDue keyID r.now then (v.marked keyID r.now).refreshLocked r.fetch r.fetchedAt
  else (.ok (), v)

def tooStale (v : RemoteVerifier) (now : Int) : Bool :=
  v.maxStale < now - v.fetchedAt

/-- The key to verify with, after a refresh that ended with `outcome`. -/
def selectKey (v : RemoteVerifier) (outcome : Except TokenError Unit) (keyID : String) (now : Int) :
    Except TokenError PublicKey :=
  match outcome, v.keys.get keyID with
  | .error e, none => .error e
  | .error e, some key => if v.tooStale now then .error e else .ok key
  | .ok _, none => .error (.quoted "unknown JWT key ID " keyID "")
  | .ok _, some key =>
      if v.tooStale now then
        .error (.message "cached Orbit JWKS exceeded its maximum stale age")
      else .ok key

/-- The verifier after the call. -/
def after (lib : Library) (v : RemoteVerifier) (r : Request) : RemoteVerifier :=
  match tokenKeyID lib r.raw with
  | .error _ => v
  | .ok keyID => (v.refreshed keyID r).2

/-- `RemoteVerifier.ParseAccessToken`. -/
def parse (lib : Library) (v : RemoteVerifier) (r : Request) : Except TokenError ReceivedClaims :=
  match tokenKeyID lib r.raw with
  | .error e => .error e
  | .ok keyID =>
      match (v.refreshed keyID r).2.selectKey (v.refreshed keyID r).1 keyID r.now with
      | .error e => .error e
      | .ok key => parseAccessToken lib r.raw (KeySet.single keyID key) r.checkedAt

/-- The verifier after a sequence of calls. -/
def run (lib : Library) (v : RemoteVerifier) (calls : List Request) : RemoteVerifier :=
  calls.foldl (after lib) v

@[simp] theorem run_nil (lib : Library) (v : RemoteVerifier) : v.run lib [] = v := rfl

@[simp] theorem run_cons (lib : Library) (v : RemoteVerifier) (r : Request) (calls : List Request) :
    v.run lib (r :: calls) = (v.after lib r).run lib calls := rfl

theorem run_append (lib : Library) (v : RemoteVerifier) (calls more : List Request) :
    v.run lib (calls ++ more) = (v.run lib calls).run lib more :=
  List.foldl_append

end RemoteVerifier

end Token
end OrbitAuth
