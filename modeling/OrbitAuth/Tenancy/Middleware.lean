import OrbitAuth.Token.RemoteVerifier

/-!
# Middleware — the active organization of a request

The package `tenancy`: verified claims go in, and the handler is called with an organization in its
context or the request is refused.  HTTP and gRPC share `resolveOrg` and differ in how they refuse.
The nil UUID stands for "no organization" in options, contexts and claims alike.
-/

namespace OrbitAuth
namespace Tenancy

open Domain Token

/-- `uuid.Nil`. -/
def nilUUID : Uuid := Uuid.ofNat 0

/-! ## Contexts -/

/-- What the context holds under the organization's key. -/
structure Context where
  org : Option Uuid
  deriving DecidableEq

def withOrg (_ : Context) (orgID : Uuid) : Context :=
  ⟨some orgID⟩

def orgFrom (ctx : Context) : Option Uuid :=
  match ctx.org with
  | none => none
  | some orgID => if orgID = nilUUID then none else some orgID

/-! ## Options -/

structure Options where
  fallbackOrg : Uuid := nilUUID

/-- `WithFallbackOrg(orgID)` is the only option there is. -/
structure Setting where
  withFallbackOrg :: fallbackOrg : Uuid

/-- The last option wins; a nil option is skipped. -/
def newOptions (opts : List (Option Setting)) : Options :=
  opts.foldl (fun cfg option =>
    match option with
    | none => cfg
    | some o => { cfg with fallbackOrg := o.fallbackOrg }) {}

/-! ## The rules of the claim -/

inductive TenancyError
  | orgRequired
  | orgMalformed
  deriving DecidableEq, Repr

/-- A missing claim may use the fallback, a malformed claim never does. -/
def resolveOrg (claims : ReceivedClaims) (fallbackOrg : Uuid) : Except TenancyError Uuid :=
  if trimSpace claims.orgID = "" then
    if fallbackOrg ≠ nilUUID then .ok fallbackOrg else .error .orgRequired
  else
    match Uuid.parse (trimSpace claims.orgID) with
    | none => .error .orgMalformed
    | some orgID => if orgID = nilUUID then .error .orgMalformed else .ok orgID

/-! ## HTTP and gRPC -/

/-- The handler has been called in a context, or the request is refused. -/
inductive Response (ρ : Type)
  | served (ctx : Context)
  | refused (reply : ρ)
  deriving DecidableEq

/-- The verified claims of a request; `none` is a missing `ClaimsFunc` or one that reports `false`.
-/
def verifiedClaims {α : Type} (claims : Option (α → Option ReceivedClaims)) (request : α) :
    Option ReceivedClaims :=
  claims.bind fun f => f request

/-- What both kinds of middleware do: refuse, each in its own words, or call the handler. -/
def guard {α ρ : Type} (unauthenticated : ρ) (refusal : TenancyError → ρ)
    (claims : Option (α → Option ReceivedClaims)) (opts : List (Option Setting)) (request : α)
    (ctx : Context) : Response ρ :=
  match verifiedClaims claims request with
  | none => .refused unauthenticated
  | some verified =>
      match resolveOrg verified (newOptions opts).fallbackOrg with
      | .error e => .refused (refusal e)
      | .ok orgID => .served (withOrg ctx orgID)

/-- A status and the error code of the JSON body. -/
structure HTTPError where
  status : Nat
  code : String
  deriving DecidableEq

def httpRefusal : TenancyError → HTTPError
  | .orgRequired => ⟨403, "org_required"⟩
  | .orgMalformed => ⟨401, "invalid_org"⟩

def requireOrg {α : Type} (claims : Option (α → Option ReceivedClaims))
    (opts : List (Option Setting)) (request : α) (ctx : Context) : Response HTTPError :=
  guard ⟨401, "unauthenticated"⟩ httpRefusal claims opts request ctx

inductive Code
  | unauthenticated
  | permissionDenied
  deriving DecidableEq

structure GRPCError where
  code : Code
  message : String
  deriving DecidableEq

def grpcRefusal : TenancyError → GRPCError
  | .orgRequired => ⟨.permissionDenied, "org_required"⟩
  | .orgMalformed => ⟨.unauthenticated, "invalid_org"⟩

def unaryServerInterceptor {α : Type} (claims : Option (α → Option ReceivedClaims))
    (opts : List (Option Setting)) (request : α) (ctx : Context) : Response GRPCError :=
  guard ⟨.unauthenticated, "unauthenticated"⟩ grpcRefusal claims opts request ctx

/-! ## What the rules come to -/

section Rules

variable {claims : ReceivedClaims} {u : Uuid}

/-- A claim that names an organization is resolved to it, whatever the fallback, unless it is nil.
-/
theorem resolveOrg_of_organizationID (h : claims.organizationID = some u) (fallbackOrg : Uuid) :
    resolveOrg claims fallbackOrg = if u = nilUUID then .error .orgMalformed else .ok u := by
  unfold ReceivedClaims.organizationID at h
  unfold resolveOrg
  split at h
  · cases h
  · rename_i hne
    rw [if_neg hne, h]

theorem resolveOrg_nil_eq_ok :
    resolveOrg claims nilUUID = .ok u ↔ claims.organizationID = some u ∧ u ≠ nilUUID := by
  constructor
  · intro h
    cases horg : claims.organizationID with
    | none =>
        unfold ReceivedClaims.organizationID at horg
        unfold resolveOrg at h
        split at h
        · simp at h
        · rename_i hne
          rw [if_neg hne] at horg
          rw [horg] at h
          cases h
    | some u' =>
        rw [resolveOrg_of_organizationID horg] at h
        split at h
        · cases h
        · rename_i hne
          obtain rfl := Except.ok.inj h
          exact ⟨rfl, hne⟩
  · rintro ⟨horg, hne⟩
    rw [resolveOrg_of_organizationID horg, if_neg hne]

variable {α ρ : Type} {unauthenticated : ρ} {refusal : TenancyError → ρ}
  {verify : Option (α → Option ReceivedClaims)} {request : α}

theorem guard_of_organizationID (hclaims : verifiedClaims verify request = some claims)
    (horg : claims.organizationID = some u) (opts : List (Option Setting)) (ctx : Context) :
    guard unauthenticated refusal verify opts request ctx =
      if u = nilUUID then .refused (refusal .orgMalformed) else .served (withOrg ctx u) := by
  unfold guard
  rw [hclaims]
  dsimp only
  rw [resolveOrg_of_organizationID horg]
  by_cases hnil : u = nilUUID
  · rw [if_pos hnil, if_pos hnil]
  · rw [if_neg hnil, if_neg hnil]

theorem orgFrom_withOrg (ctx : Context) (hne : u ≠ nilUUID) : orgFrom (withOrg ctx u) = some u :=
  if_neg hne

end Rules

end Tenancy
end OrbitAuth
