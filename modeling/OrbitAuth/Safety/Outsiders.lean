import OrbitAuth.Grpc.Orgs
import OrbitAuth.Service.Steps

/-!
# Outsiders — what an organization shows to those who do not belong to it

Eight handlers of the OrgService take an organization id.  Each of them begins with the same gate,
and for a caller without an active membership the gate is also where it ends: the membership lookup
is the only question that reaches the database, and its answer is the same whether the organization
does not exist, has never heard of the caller or has suspended them.

* `gate_outsider` — how the gate ends for an outsider, independently of the database;
* `outsider_sees_nothing` — so an outsider cannot tell two databases apart, and changes neither.
-/

namespace OrbitAuth
namespace Grpc
namespace Outsiders

open Domain Foundations Postgres Service

/-- Does the user have an active membership in the organization? -/
def isActive (db : DB) (org user : Uuid) : Bool :=
  db.memberships.any fun m => m.orgID = org && m.userID = user && m.status = .active

/-- The organization id of a request that has one. -/
def orgID? : Request → Option String
  | .listMembers org | .addMember org _ | .removeMember org _ | .suspendMember org _
  | .inviteMember org _ | .revokeInvite org _ | .listInvites org | .selectOrg _ org => some org
  | .createOrg _ | .listMyOrgs | .acceptInvite _ => none

/-! ## The gate -/

section Gate

variable (env : Env) {subject rawOrg : String} {user org : Uuid}

/-- The lookup of an outsider: nothing, unless the database cannot be reached. -/
theorem isActiveMember_outsider {orgID userID : String}
    (horg : Uuid.parse (trimSpace orgID) = some org)
    (huser : Uuid.parse (trimSpace userID) = some user) {w : World}
    (hout : isActive w.db org user = false) (cs : Nat → Choice) :
    (isActiveMember orgID userID).run (exec env) cs w =
      (if (cs 0).fails then .error .dependency else .ok false, w.advance (cs 0).now) := by
  have hnamed := Uuid.ne_empty_of_parse horg
  have hcaller := Uuid.ne_empty_of_parse huser
  cases hfails : (cs 0).fails with
  | true =>
      simp [isActiveMember, failIf, hnamed, hcaller, tryStore, exec, answer, execStore, hfails]
  | false =>
      -- a row that is found is not an active one
      have hstatus : ∀ r, w.db.memberships.find? (org, user) = some r → r.status ≠ .active := by
        intro r hr hactive
        obtain ⟨hmem, hkey⟩ := find?_eq_some.mp hr
        have hids := Prod.mk.inj hkey
        have hnone := any_eq_false.mp hout r hmem
        simp [hids.1, hids.2, hactive] at hnone
      cases hfind : w.db.memberships.find? (org, user) with
      | none =>
          have hlookup :
              exec env (.store (.getMembership (trimSpace orgID) (trimSpace userID))) (cs 0) w =
              (.error .notMember, w.advance (cs 0).now) := by
            rw [exec_store_runs env _ hfails, Store.exec_getMembership horg huser, hfind]
            rfl
          simp [isActiveMember, failIf, hnamed, hcaller, tryStore, hlookup]
      | some r =>
          have hlookup :
              exec env (.store (.getMembership (trimSpace orgID) (trimSpace userID))) (cs 0) w =
              (.ok r.membership, w.advance (cs 0).now) := by
            rw [exec_store_runs env _ hfails, Store.exec_getMembership horg huser, hfind]
            rfl
          simp [isActiveMember, failIf, hnamed, hcaller, tryStore, hlookup,
            MembershipRow.membership, hstatus r hfind]

/-- The second half of the gate turns an outsider away. -/
theorem requireMembership_outsider (hcaller : Uuid.parse (trimSpace subject) = some user)
    (horg : Uuid.parse (trimSpace rawOrg) = some org) (cs : Nat → Choice) :
    ∃ status, ∀ (userID : String) (w : World), isActive w.db org user = false →
      (requireMembership (trimSpace rawOrg) userID (trimSpace subject)).run (exec env) cs w =
        (.error status, w.advance (cs 0).now) := by
  have horg' : Uuid.parse (trimSpace (trimSpace rawOrg)) = some org := by
    rw [trimSpace_trimSpace]
    exact horg
  have hcaller' : Uuid.parse (trimSpace (trimSpace subject)) = some user := by
    rw [trimSpace_trimSpace]
    exact hcaller
  have hrun : ∀ w : World, isActive w.db org user = false →
      (serving orgError (isActiveMember (trimSpace rawOrg) (trimSpace subject))).run
        (exec env) cs w =
        (if (cs 0).fails then .error ⟨.internal, "internal error"⟩ else .ok false,
          w.advance (cs 0).now) := by
    intro w hout
    unfold serving
    rw [Program.run_bimap, isActiveMember_outsider env horg' hcaller' hout]
    cases (cs 0).fails <;> rfl
  -- the one store call fails or answers no; neither depends on the world
  cases hfails : (cs 0).fails with
  | true =>
      refine ⟨⟨.internal, "internal error"⟩, fun userID w hout => ?_⟩
      refine Program.run_bind_error ?_
      rw [hrun w hout, hfails]
      rfl
  | false =>
      refine ⟨⟨.notFound, "organization not found"⟩, fun userID w hout => ?_⟩
      have hfalse := hrun w hout
      rw [hfails] at hfalse
      obtain ⟨n, hn⟩ := Program.run_bind_ok (f := fun active => do
        reject (!active) ⟨.notFound, "organization not found"⟩
        pure (trimSpace rawOrg, userID)) hfalse
      unfold requireMembership
      rw [Program.bind_eq, hn]
      simp [reject]

/-- The gate ends for an outsider: with a status that the request and the environment decide, and
without a trace. -/
theorem gate_outsider (hcaller : Uuid.parse (trimSpace subject) = some user)
    (horg : Uuid.parse (trimSpace rawOrg) = some org) (rawUsers : List String) (cs : Nat → Choice) :
    ∃ status, ∀ w : World, isActive w.db org user = false →
      ∃ t, (requireActiveMember (some subject) rawOrg rawUsers).run (exec env) cs w =
        (.error status, w.advance t) := by
  obtain ⟨status, hstatus⟩ := requireMembership_outsider env hcaller horg cs
  rw [requireActiveMember_eq hcaller horg]
  -- the ids of the request are looked at before the membership is
  cases rawUsers with
  | nil =>
      have hid : requireUserID [] = .done "" := rfl
      rw [hid, Program.done_bind]
      exact ⟨status, fun w hout => ⟨_, hstatus "" w hout⟩⟩
  | cons raw rest =>
      cases hraw : isUUID (trimSpace raw) with
      | true =>
          have hid : requireUserID (raw :: rest) = .done (trimSpace raw) := by
            simp [requireUserID, reject, hraw]
          rw [hid, Program.done_bind]
          exact ⟨status, fun w hout => ⟨_, hstatus (trimSpace raw) w hout⟩⟩
      | false =>
          have hid : requireUserID (raw :: rest) = .fail ⟨.invalidArgument, "invalid user_id"⟩ := by
            simp [requireUserID, reject, hraw]
          rw [hid]
          refine ⟨⟨.invalidArgument, "invalid user_id"⟩, fun w _ => ⟨0, ?_⟩⟩
          simp [World.advance]

end Gate

/-! ## The handlers -/

/-- A request with an organization id begins with the gate. -/
theorem handler_gated (cfg : Config) (ctx : Option String) {request : Request} {rawOrg : String}
    (h : orgID? request = some rawOrg) :
    ∃ (rawUsers : List String) (rest : String × String → Handler Response),
      request.handler cfg ctx = (requireActiveMember ctx rawOrg rawUsers).bind rest := by
  -- each handler is the gate followed by something, under a map of its response
  have hmap : ∀ {α : Type} (f : α → Response) (rawUsers : List String)
      (rest : String × String → Handler α), ∃ (rawUsers' : List String)
        (rest' : String × String → Handler Response),
        (f <$> (requireActiveMember ctx rawOrg rawUsers).bind rest) =
          (requireActiveMember ctx rawOrg rawUsers').bind rest' := by
    intro α f rawUsers rest
    exact ⟨rawUsers, _, Program.bind_assoc _ _ _⟩
  cases request with
  | createOrg name => cases h
  | listMyOrgs => cases h
  | acceptInvite token => cases h
  | listMembers org =>
      cases h
      exact hmap _ [] _
  | addMember org user =>
      cases h
      exact hmap _ [user] _
  | removeMember org user =>
      cases h
      exact hmap _ [user] _
  | suspendMember org user =>
      cases h
      exact hmap _ [user] _
  | inviteMember org email =>
      cases h
      exact hmap _ [] _
  | revokeInvite org invite =>
      cases h
      exact hmap _ [] _
  | listInvites org =>
      cases h
      exact hmap _ [] _
  | selectOrg token org =>
      cases h
      exact hmap _ [] _

/-- An authenticated caller asks for an organization, in any spelling of its id, in two worlds in
which they have no active membership in it.  The two worlds may differ in everything that concerns
the organization, and in anything else.  The caller gets the same status and message, and neither
world has a changed database, a new token or a new notification. -/
theorem outsider_sees_nothing (cfg : Config) {subject rawOrg : String} {user org : Uuid}
    (hcaller : Uuid.parse (trimSpace subject) = some user) {request : Request}
    (hrequest : orgID? request = some rawOrg) (horg : Uuid.parse (trimSpace rawOrg) = some org)
    {w₁ w₂ : World} (hout₁ : isActive w₁.db org user = false)
    (hout₂ : isActive w₂.db org user = false) (choices : Nat → Choice) :
    let call : Invocation := ⟨some subject, request, choices⟩
    ∃ status, (call.perform cfg w₁).1 = .error status ∧ (call.perform cfg w₂).1 = .error status ∧
      ∀ w, w = w₁ ∨ w = w₂ → (call.perform cfg w).2.db = w.db ∧
        (call.perform cfg w).2.issued = w.issued ∧ (call.perform cfg w).2.sent = w.sent := by
  intro call
  obtain ⟨rawUsers, rest, hhandler⟩ := handler_gated cfg (some subject) hrequest
  obtain ⟨status, hgate⟩ := gate_outsider cfg.env hcaller horg rawUsers choices
  have hrun : ∀ w : World, isActive w.db org user = false →
      ∃ t, call.perform cfg w = (.error status, w.advance t) := by
    intro w hout
    obtain ⟨t, ht⟩ := hgate w hout
    refine ⟨t, ?_⟩
    unfold Invocation.perform
    rw [hhandler]
    exact Program.run_bind_error ht
  obtain ⟨t₁, h₁⟩ := hrun w₁ hout₁
  obtain ⟨t₂, h₂⟩ := hrun w₂ hout₂
  refine ⟨status, by rw [h₁], by rw [h₂], ?_⟩
  rintro w (rfl | rfl)
  · rw [h₁]
    exact ⟨rfl, rfl, rfl⟩
  · rw [h₂]
    exact ⟨rfl, rfl, rfl⟩

def ann : Uuid := Uuid.ofNat 1

def acme : Uuid := Uuid.ofNat 2

/-- The organization exists and has suspended Ann. -/
def annSuspended : World :=
  { toyWorld with db := { DB.empty with
      orgs := Table.empty.put ⟨acme, "acme", 1000, 1000⟩
      memberships := Table.empty.put ⟨acme, ann, .suspended, 1000, 1000⟩ } }

/-- A suspended member cannot tell the organization from one that does not exist. -/
theorem outsider_sees_nothing_suspended :
    let call : Invocation := ⟨some ann.string, .addMember acme.string ann.string, fun _ => {}⟩
    ∃ status, (call.perform toyConfig toyWorld).1 = .error status ∧
      (call.perform toyConfig annSuspended).1 = .error status ∧
      ∀ w, w = toyWorld ∨ w = annSuspended → (call.perform toyConfig w).2.db = w.db ∧
        (call.perform toyConfig w).2.issued = w.issued ∧
        (call.perform toyConfig w).2.sent = w.sent := by
  have hparse : ∀ u : Uuid, Uuid.parse (trimSpace u.string) = some u := by
    intro u
    rw [Uuid.trimSpace_string, Uuid.parse_string]
  have hrequest : orgID? (.addMember acme.string ann.string) = some acme.string := rfl
  have hunknown : isActive toyWorld.db acme ann = false := by decide
  have hsuspended : isActive annSuspended.db acme ann = false := by decide
  exact outsider_sees_nothing toyConfig (hparse ann) hrequest (hparse acme) hunknown hsuspended
    fun _ => {}

end Outsiders
end Grpc
end OrbitAuth
