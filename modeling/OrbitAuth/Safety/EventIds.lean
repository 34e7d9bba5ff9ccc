import OrbitAuth.Grpc.Orgs
import OrbitAuth.Postgres.Commits
import OrbitAuth.Service.Steps

/-!
# EventIds — the identifiers in the events of the OrgService

A consumer compares the identifiers of lifecycle events as strings.  The rows behind the events are
keyed by parsed identifiers, but the events carry the text the request was made with: trimmed, and
otherwise as the caller spelled it.

* `perform_names` — a request that writes events names its rows by their canonical text exactly when
  the request itself spells its identifiers that way;
* `event_ids_canonical` — so a history of requests in canonical spelling writes canonical events;
* `spelling_reaches_events` — and a request in upper case does not.
-/

namespace OrbitAuth
namespace Grpc
namespace EventIds

open Domain Foundations Postgres Service

/-! ## Names -/

/-- The identifiers in the payload of an event. -/
def ids : Event → List String
  | .userCreated user _ => [user]
  | .orgCreated org _ _ => [org]
  | .membershipAdded org user _ _ | .membershipSuspended org user _ _
  | .membershipRemoved org user _ _ => [org, user]

/-- The event, written by a step from `db` to `db'`, names the row it is about by the canonical text
of its identifiers: the row that is there afterwards, or the one that is gone. -/
def Named (db db' : DB) : Event → Prop
  | .userCreated user _ => ∃ r ∈ db'.users, user = r.id.string
  | .orgCreated org _ _ => ∃ r ∈ db'.orgs, r ∉ db.orgs ∧ org = r.id.string
  | .membershipAdded org user _ _ | .membershipSuspended org user _ _ =>
      ∃ m ∈ db'.memberships, org = m.orgID.string ∧ user = m.userID.string
  | .membershipRemoved org user _ _ =>
      ∃ m ∈ db.memberships, m ∉ db'.memberships ∧ org = m.orgID.string ∧ user = m.userID.string

/-- If the text is an identifier at all, it is the canonical one. -/
def Spelled (text : String) : Prop :=
  ∀ u, Uuid.parse text = some u → text = u.string

theorem spelled_string (u : Uuid) : Spelled u.string := by
  intro v hv
  rw [Uuid.parse_string] at hv
  exact congrArg Uuid.string (Option.some.inj hv)

theorem named_stamp (db db' : DB) (now : Time) (e : Event) :
    Named db db' (Store.stamp now e) ↔ Named db db' e := by
  cases e <;> exact Iff.rfl

/-- Only the organizations and the memberships before the step matter. -/
theorem named_congr {db₁ db₂ db' : DB} (horgs : db₁.orgs = db₂.orgs)
    (hmembers : db₁.memberships = db₂.memberships) (e : Event) :
    Named db₁ db' e ↔ Named db₂ db' e := by
  cases e <;> simp only [Named, horgs, hmembers]

/-- The identifiers of a named event are canonical. -/
theorem ids_of_named {db db' : DB} {e : Event} (h : Named db db' e) :
    ∀ text ∈ ids e, ∃ u : Uuid, text = u.string := by
  cases e with
  | userCreated user t =>
      obtain ⟨r, _, huser⟩ := h
      simpa [ids] using ⟨r.id, huser⟩
  | orgCreated org name t =>
      obtain ⟨r, _, _, horg⟩ := h
      simpa [ids] using ⟨r.id, horg⟩
  | membershipAdded org user status t =>
      obtain ⟨m, _, horg, huser⟩ := h
      simpa [ids] using ⟨⟨m.orgID, horg⟩, ⟨m.userID, huser⟩⟩
  | membershipSuspended org user status t =>
      obtain ⟨m, _, horg, huser⟩ := h
      simpa [ids] using ⟨⟨m.orgID, horg⟩, ⟨m.userID, huser⟩⟩
  | membershipRemoved org user status t =>
      obtain ⟨m, _, _, horg, huser⟩ := h
      simpa [ids] using ⟨⟨m.orgID, horg⟩, ⟨m.userID, huser⟩⟩

section Members

variable {org user : String} {o u : Uuid}

/-- A membership event about a row that exists: it names the row when the texts are canonical. -/
theorem named_member_iff (horg : Uuid.parse org = some o) (huser : Uuid.parse user = some u)
    (rows : MembershipRow → Prop) (hrow : ∃ m, rows m ∧ m.orgID = o ∧ m.userID = u) :
    (∃ m, rows m ∧ org = m.orgID.string ∧ user = m.userID.string) ↔ Spelled org ∧ Spelled user := by
  constructor
  · rintro ⟨m, _, rfl, rfl⟩
    exact ⟨spelled_string _, spelled_string _⟩
  · rintro ⟨hspelledOrg, hspelledUser⟩
    obtain ⟨m, hm, rfl, rfl⟩ := hrow
    exact ⟨m, hm, hspelledOrg _ horg, hspelledUser _ huser⟩

end Members

/-! ## Store calls -/

/-- The store calls that write events for the handlers, and the texts of the request in them. -/
def Carries (texts : List String) : Store.Op → Prop
  | .createOrg org creatorID => (∃ o : Uuid, org.id = o.string) ∧ texts = [creatorID]
  | .addMember orgID userID _ | .removeMember orgID userID => texts = [orgID, userID]
  | .updateMemberStatus orgID userID status => status = .suspended ∧ texts = [orgID, userID]
  | .acceptInvite _ orgID userID _ => (∃ o : Uuid, orgID = o.string) ∧ texts = [userID]
  | _ => False

/-- The step writes events that name their rows exactly when the texts are canonical. -/
def Names (texts : List String) (db db' : DB) : Prop :=
  ∃ es, db'.outbox = db.outbox ++ es ∧
    (es ≠ [] → ((∀ e ∈ es, Named db db' e) ↔ ∀ text ∈ texts, Spelled text))

theorem names_silent {texts : List String} {db db' : DB} (h : db'.outbox = db.outbox) :
    Names texts db db' :=
  ⟨[], by rw [h, List.append_nil], fun hne => absurd rfl hne⟩

/-- A step that writes one event. -/
theorem names_event {texts : List String} {db db' : DB} {now : Time} {e : Event}
    (hout : db'.outbox = db.outbox ++ [Store.stamp now e])
    (h : Named db db' e ↔ ∀ text ∈ texts, Spelled text) : Names texts db db' := by
  refine ⟨_, hout, fun _ => ?_⟩
  rw [List.forall_mem_singleton, named_stamp]
  exact h

/-- The condition on the texts of a request that gives both identifiers, and of one that gives only
the user. -/
theorem spelled_both {org user : String} :
    Spelled org ∧ Spelled user ↔ ∀ text ∈ [org, user], Spelled text := by
  simp

theorem spelled_user {org user : String} (h : ∃ o : Uuid, org = o.string) :
    Spelled org ∧ Spelled user ↔ ∀ text ∈ [user], Spelled text := by
  obtain ⟨o, rfl⟩ := h
  simp [spelled_string]

section Calls

variable {env : Env} {now : Time} {id : Uuid} {pick : Nat} {db : DB} {texts : List String}

theorem exec_names {o : Store.Op} (h : Carries texts o) :
    Names texts db (o.exec env now id pick db).2 := by
  rcases Store.exec_commits env now id pick o db with ⟨v, _, hc⟩ | heq
  · generalize (o.exec env now id pick db).2 = db' at hc
    cases o with
    | createOrg org creatorID =>
        obtain ⟨⟨oid, hcanonical⟩, rfl⟩ := h
        obtain ⟨orgID, userID, horg, huser, _, _, hnew, _, rfl⟩ := Store.commits_createOrg.mp hc
        have hmember := (named_member_iff horg huser _
          (Store.exists_enrolled now db.memberships orgID userID .active)).trans
            (spelled_user ⟨oid, hcanonical⟩)
        refine ⟨_, rfl, fun _ => ?_⟩
        rw [List.forall_mem_cons, List.forall_mem_singleton, named_stamp, named_stamp]
        refine Iff.trans (and_iff_right ?_) hmember
        -- the organization is new, and its identifier was drawn
        have hid : org.id = orgID.string := by
          rw [hcanonical] at horg ⊢
          exact spelled_string oid _ horg
        exact ⟨_, mem_put.mpr (.inl rfl), fun hmem => hnew _ hmem rfl, hid⟩
    | addMember orgID userID status =>
        obtain rfl : texts = [orgID, userID] := h
        obtain ⟨org, user, horg, huser, _, ⟨_, rfl⟩ | ⟨_, _, rfl⟩⟩ := Store.commits_addMember.mp hc
        · exact names_silent rfl
        · refine names_event rfl (Iff.trans ?_ spelled_both)
          exact named_member_iff horg huser _ ⟨_, mem_put.mpr (.inl rfl), rfl, rfl⟩
    | updateMemberStatus orgID userID status =>
        obtain ⟨rfl, rfl⟩ := h
        obtain ⟨org, user, m, horg, huser, hfind, rfl⟩ := Store.commits_suspend hc
        by_cases hstatus : m.status = .suspended
        · exact names_silent (by simp [hstatus])
        · have hkey := Prod.mk.inj (find?_eq_some.mp hfind).2
          refine names_event (congrArg _ (if_neg hstatus)) (Iff.trans ?_ spelled_both)
          exact named_member_iff horg huser _ ⟨_, mem_put.mpr (.inl rfl), hkey⟩
    | removeMember orgID userID =>
        obtain rfl : texts = [orgID, userID] := h
        obtain ⟨org, user, m, horg, huser, _, hfind, _, rfl⟩ := Store.commits_removeMember.mp hc
        obtain ⟨hm, hkey⟩ := find?_eq_some.mp hfind
        have hgone : m ∉ db.memberships.erase (org, user) := fun h => (mem_erase.mp h).2 hkey
        have hremoved := named_member_iff horg huser
          (fun m => m ∈ db.memberships ∧ m ∉ db.memberships.erase (org, user))
          ⟨m, ⟨hm, hgone⟩, Prod.mk.inj hkey⟩
        refine names_event rfl (Iff.trans ?_ spelled_both)
        simpa only [Named, and_assoc] using hremoved
    | acceptInvite inviteID orgID userID t =>
        obtain ⟨hcanonical, rfl⟩ := h
        obtain ⟨iid, org, user, _, horg, huser, _, _, _, _, rfl⟩ := Store.commits_acceptInvite.mp hc
        refine names_event rfl (Iff.trans ?_ (spelled_user hcanonical))
        exact named_member_iff horg huser _ (Store.exists_joined now db.memberships org user)
    | _ => exact h.elim
  · rw [heq]
    exact names_silent rfl

end Calls

/-! ## Requests -/

/-- The texts of a request that its events carry.  The identifier of a new organization is drawn,
and that of an invitation comes from its row. -/
def texts (ctx : Option String) : Request → List String
  | .createOrg _ | .acceptInvite _ => (callerIDFromContext ctx).toList
  | .addMember org user | .removeMember org user | .suspendMember org user =>
      [trimSpace org, trimSpace user]
  | _ => []

/-- Drawn identifiers and those of rows are canonical. -/
def Answers : (o : Port) → o.Ans → Prop
  | .newID, text => ∃ u : Uuid, text = u.string
  | .store (.findInviteByTokenHash _), .ok invite => ∃ u : Uuid, invite.orgID = u.string
  | _, _ => True

/-- Operations that leave organizations, memberships and events alone. -/
def Calm : Port → Prop
  | .store o =>
      TableName.orgs ∉ o.writes ∧ TableName.memberships ∉ o.writes ∧ TableName.outbox ∉ o.writes
  | _ => True

/-- Operations that write the events of a request. -/
def Final (texts : List String) : Port → Prop
  | .store o => Carries texts o
  | _ => False

theorem calm_plain (o : Port) (h : o.plain = true) : Calm o := by
  cases o with
  | store o =>
      exact ⟨plainStore_writes h (by decide), plainStore_writes h (by decide),
        plainStore_writes h (by decide)⟩
  | _ => trivial

/-- The same organizations, memberships and events. -/
def Kept (db db' : DB) : Prop :=
  db'.orgs = db.orgs ∧ db'.memberships = db.memberships ∧ db'.outbox = db.outbox

theorem exec_calm (env : Env) (o : Port) (c : Choice) (w : World) (h : Calm o) :
    Answers o (exec env o c w).1 ∧ Kept w.db (exec env o c w).2.db := by
  refine ⟨?_, ?_⟩
  · cases o with
    | newID => exact ⟨c.id, rfl⟩
    | store o =>
        cases o with
        | findInviteByTokenHash tokenHash =>
            cases hres : (exec env (.store (.findInviteByTokenHash tokenHash)) c w).1 with
            | error e => trivial
            | ok invite =>
                obtain ⟨r, _, _, rfl⟩ := Store.exec_findInviteByTokenHash_ok (exec_store_ok hres).1
                exact ⟨r.orgID, rfl⟩
        | _ => trivial
    | _ => trivial
  · refine exec_db_rel (fun db => ⟨rfl, rfl, rfl⟩) ?_ c
    rintro o' rfl now id pick
    obtain ⟨horgs, hmembers, houtbox⟩ := h
    exact ⟨Store.exec_same horgs now id pick w.db, Store.exec_same hmembers now id pick w.db,
      Store.exec_same houtbox now id pick w.db⟩

section Handlers

variable {α : Type} {cfg : Config} {ctx : Option String} {ts : List String}
variable {p : Action α}

theorem finishes_store {o : Store.Op} (h : Carries ts o) :
    (store o).Finishes Answers Calm (Final ts) := by
  refine .last h fun r => ?_
  cases r with
  | ok v => exact .inl ⟨v, rfl⟩
  | error e => exact .inr ⟨e, rfl⟩

theorem finishes_storeMapping {sentinel generic : Err} {o : Store.Op} (h : Carries ts o) :
    (storeMapping sentinel generic o).Finishes Answers Calm (Final ts) := by
  refine .last h fun r => ?_
  cases r with
  | ok v => exact .inl ⟨v, rfl⟩
  | error e => exact .inr ⟨_, rfl⟩

theorem calm_uses (h : p.Uses Calm) : p.Makes Answers Calm fun _ => True :=
  makes_of_uses h

/-! ### Use cases -/

theorem finishes_createOrg (creatorID name : String) :
    (Service.createOrg creatorID name).Finishes Answers Calm (Final [trimSpace creatorID]) := by
  refine finishes_bind (calm_uses (uses_failIf _ _)) fun _ _ => ?_
  refine finishes_bind (calm_uses (uses_failIf _ _)) fun _ _ => ?_
  refine finishes_bind (calm_uses (uses_now trivial)) fun t _ => ?_
  have hdrawn : newID.Makes Answers Calm fun text => ∃ u : Uuid, text = u.string :=
    .call trivial fun _ h => .done h
  refine finishes_bind hdrawn fun id hid => ?_
  refine finishes_map (finishes_store ?_) _
  exact ⟨hid, rfl⟩

theorem finishes_addMember (orgID userID : String) :
    (Service.addMember orgID userID).Finishes Answers Calm
      (Final [trimSpace orgID, trimSpace userID]) := by
  refine finishes_bind (calm_uses (uses_requireTarget calm_plain _ _)) fun _ _ => ?_
  refine finishes_bind (calm_uses (uses_store (calm_plain (.store (.getOrg _)) rfl))) fun _ _ => ?_
  exact finishes_store rfl

theorem finishes_suspendMember (orgID userID : String) :
    (Service.suspendMember orgID userID).Finishes Answers Calm
      (Final [trimSpace orgID, trimSpace userID]) := by
  refine finishes_bind (calm_uses (uses_requireTarget calm_plain _ _)) fun _ _ => ?_
  refine finishes_bind (calm_uses (uses_store (calm_plain (.store (.getMembership _ _)) rfl)))
    fun m _ => ?_
  split
  · exact .done _
  · exact finishes_store ⟨rfl, rfl⟩

theorem finishes_removeMember (orgID userID : String) :
    (Service.removeMember orgID userID).Finishes Answers Calm
      (Final [trimSpace orgID, trimSpace userID]) := by
  refine finishes_bind (calm_uses (uses_requireTarget calm_plain _ _)) fun _ _ => ?_
  refine finishes_bind (calm_uses (uses_store (calm_plain (.store (.getMembership _ _)) rfl)))
    fun _ _ => ?_
  exact finishes_store rfl

theorem finishes_acceptInvite (userID token : String) :
    (Service.acceptInvite cfg userID token).Finishes Answers Calm (Final [trimSpace userID]) := by
  refine finishes_bind (calm_uses (uses_failIf _ _)) fun _ _ => ?_
  have hlookup : ∀ hash, (storeMapping .inviteNotFound .invalidInvite
      (.findInviteByTokenHash hash)).Makes Answers Calm fun invite => ∃ u : Uuid, invite.orgID =
        u.string := by
    intro hash
    refine .call (calm_plain (.store (.findInviteByTokenHash hash)) rfl) fun r hr => ?_
    cases r with
    | ok invite => exact .done hr
    | error e => exact .fail _
  refine finishes_bind (hlookup _) fun invite hinvite => ?_
  refine finishes_bind (calm_uses (uses_now trivial)) fun t _ => ?_
  refine finishes_bind (calm_uses (uses_failIf _ _)) fun _ _ => ?_
  refine finishes_bind (calm_uses (uses_storeMapping (calm_plain (.store (.findByID _)) rfl)))
    fun user _ => ?_
  refine finishes_bind (calm_uses (uses_failIf _ _)) fun _ _ => ?_
  refine finishes_map (finishes_storeMapping ?_) _
  exact ⟨hinvite, rfl⟩

/-! ### Handlers -/

theorem makes_caller : (caller ctx).Makes Answers Calm fun callerID =>
    callerIDFromContext ctx = some callerID := by
  unfold caller
  cases hcaller : callerIDFromContext ctx with
  | none => exact .fail _
  | some callerID => exact .done rfl

theorem makes_reject (c : Bool) (s : Status) : (reject c s).Makes Answers Calm fun _ => True := by
  unfold reject
  split
  · exact .fail s
  · exact .done trivial

theorem makes_serving {mapping : Err → Status} {post : α → Prop} (h : p.Makes Answers Calm post) :
    (serving mapping p).Makes Answers Calm post :=
  Program.makes_bimap h

/-- The gate passes the ids of the request on, trimmed. -/
theorem makes_gate (rawOrg : String) (rawUsers : List String) :
    (requireActiveMember ctx rawOrg rawUsers).Makes Answers Calm fun res =>
      res.1 = trimSpace rawOrg ∧ ∀ raw rest, rawUsers = raw :: rest → res.2 = trimSpace raw := by
  refine makes_bind makes_caller fun callerID _ => ?_
  refine makes_bind (makes_reject _ _) fun _ _ => ?_
  have huser : (requireUserID rawUsers).Makes Answers Calm fun userID =>
      ∀ raw rest, rawUsers = raw :: rest → userID = trimSpace raw := by
    cases rawUsers with
    | nil => exact .done fun raw rest h => by cases h
    | cons raw rest =>
        refine makes_bind (makes_reject _ _) fun _ _ => .done ?_
        intro raw' rest' h
        cases h
        rfl
  refine makes_bind huser fun userID hid => ?_
  refine makes_bind (makes_serving (calm_uses (uses_isActiveMember calm_plain _ _)))
    fun active _ => ?_
  exact makes_bind (makes_reject _ _) fun _ _ => .done ⟨rfl, hid⟩

theorem finishes_serving {mapping : Err → Status} (h : p.Finishes Answers Calm (Final ts)) :
    (serving mapping p).Finishes Answers Calm (Final ts) :=
  Program.finishes_bimap h id mapping

/-- Behind the gate, the use case gets trimmed ids. -/
theorem finishes_changeMember {change : String → String → Action Unit} {rawOrg rawUser : String}
    (h : ∀ org user, (change org user).Finishes Answers Calm
      (Final [trimSpace org, trimSpace user])) :
    (changeMember ctx change rawOrg rawUser).Finishes Answers Calm
      (Final [trimSpace rawOrg, trimSpace rawUser]) := by
  refine finishes_bind (makes_gate rawOrg [rawUser]) ?_
  rintro ⟨org, user⟩ ⟨horg, huser⟩
  obtain rfl : org = trimSpace rawOrg := horg
  obtain rfl : user = trimSpace rawUser := huser rawUser [] rfl
  have hchange := h (trimSpace rawOrg) (trimSpace rawUser)
  rw [trimSpace_trimSpace, trimSpace_trimSpace] at hchange
  exact finishes_serving hchange

/-- A use case that is calm to its end. -/
theorem finishes_calm {mapping : Err → Status} (h : p.Uses Calm) :
    (serving mapping p).Finishes Answers Calm (Final ts) :=
  finishes_serving (Program.finishes_of_uses h)

theorem caller_trimmed {callerID : String} (h : callerIDFromContext ctx = some callerID) :
    trimSpace callerID = callerID := by
  unfold callerIDFromContext at h
  cases ctx with
  | none => cases h
  | some subject =>
      dsimp only at h
      split at h
      · cases h
      · cases h
        exact trimSpace_trimSpace subject

/-- Every request ends with the call that writes its events, if it writes any. -/
theorem handler_finishes (cfg : Config) (ctx : Option String) (request : Request) :
    (request.handler cfg ctx).Finishes Answers Calm (Final (texts ctx request)) := by
  cases request with
  | createOrg name =>
      refine finishes_map (finishes_bind makes_caller fun callerID hcaller => ?_) _
      have hcreate := finishes_createOrg callerID name
      rw [caller_trimmed hcaller] at hcreate
      refine finishes_serving ?_
      simpa [texts, hcaller] using hcreate
  | acceptInvite token =>
      refine finishes_map (finishes_bind makes_caller fun callerID hcaller => ?_) _
      have haccept : (Service.acceptInvite cfg callerID token).Finishes Answers Calm _ :=
        finishes_acceptInvite callerID token
      rw [caller_trimmed hcaller] at haccept
      refine finishes_map (finishes_serving ?_) _
      simpa [texts, hcaller] using haccept
  | addMember org user =>
      exact finishes_map (finishes_changeMember finishes_addMember) _
  | removeMember org user =>
      exact finishes_map (finishes_changeMember finishes_removeMember) _
  | suspendMember org user =>
      exact finishes_map (finishes_changeMember finishes_suspendMember) _
  | listMyOrgs =>
      -- from here on no request writes an event
      refine finishes_map (finishes_bind makes_caller fun callerID _ => ?_) _
      exact finishes_calm (uses_listOrgsForUser calm_plain _)
  | listMembers org =>
      refine finishes_map (finishes_bind (makes_gate org []) fun ids _ => ?_) _
      exact finishes_calm (uses_listMembers calm_plain _)
  | inviteMember org email =>
      refine finishes_map (finishes_bind (makes_gate org []) fun ids _ => ?_) _
      refine finishes_bind makes_caller fun callerID _ => ?_
      refine finishes_map (finishes_calm ?_) _
      exact uses_inviteMember calm_plain (fun _ _ => by simp [Calm, Store.Op.writes])
        fun _ _ => by simp [Calm, Store.Op.writes]
  | revokeInvite org invite =>
      refine finishes_map (finishes_bind (makes_gate org []) fun ids _ => ?_) _
      refine finishes_bind (makes_reject _ _) fun _ _ => ?_
      refine finishes_bind makes_caller fun callerID _ => ?_
      exact finishes_calm (uses_revokeInvite calm_plain fun _ _ => by simp [Calm, Store.Op.writes])
  | listInvites org =>
      refine finishes_map (finishes_bind (makes_gate org []) fun ids _ => ?_) _
      exact finishes_map (finishes_calm (uses_listInvites calm_plain _)) _
  | selectOrg token org =>
      refine finishes_map (finishes_bind (makes_gate org []) fun ids _ => ?_) _
      refine finishes_bind makes_caller fun callerID _ => ?_
      refine finishes_calm (uses_selectOrg calm_plain ?_ (fun _ _ _ => trivial) ?_)
      · intro hash
        simp [Calm, Store.Op.writes]
      · intro user org hash t
        simp [Calm, Store.Op.writes]

end Handlers

/-! ## Histories -/

/-- A request that writes events names its rows by their canonical text exactly when the request
gives its own identifiers in that form. -/
theorem perform_names (cfg : Config) (i : Invocation) (w : World) :
    Names (texts i.ctx i.request) w.db (i.perform cfg w).2.db := by
  obtain ⟨w', ⟨horgs, hmembers, houtbox⟩, hend⟩ := Program.run_finishes
    (R := fun w w' => Kept w.db w'.db) (fun w => ⟨rfl, rfl, rfl⟩)
    (fun _ _ _ h₁ h₂ => ⟨h₂.1.trans h₁.1, h₂.2.1.trans h₁.2.1, h₂.2.2.trans h₁.2.2⟩)
    (exec_calm cfg.env) (handler_finishes cfg i.ctx i.request) i.choices w
  rcases hend with hend | ⟨o, c, hfinal, hend⟩
  · exact names_silent (by rw [Invocation.perform, hend]; exact houtbox)
  · cases o with
    | store o =>
        have hnames : Names (texts i.ctx i.request) w'.db (exec cfg.env (.store o) c w').2.db := by
          rcases exec_store cfg.env o c w' with h | h
          · rw [h]
            exact names_silent rfl
          · rw [h]
            exact exec_names hfinal
        obtain ⟨es, hes, hnamed⟩ := hnames
        refine ⟨es, ?_, fun hne => ?_⟩
        · rw [Invocation.perform, hend, hes, houtbox]
        · rw [Invocation.perform, hend, ← hnamed hne]
          exact forall₂_congr fun e _ => (named_congr horgs hmembers e).symm
    | _ => exact hfinal.elim

/-- The request writes the event. -/
def Writes (cfg : Config) (w : World) (i : Invocation) (e : Event) : Prop :=
  ∃ es, (i.perform cfg w).2.db.outbox = w.db.outbox ++ es ∧ e ∈ es

/-- In a history of requests that give their identifiers in canonical form, every event was written
by a request whose step it describes under the canonical names of the row, and two events that mean
the same organization or user spell it alike. -/
theorem event_ids_canonical (cfg : Config) (w : World) {history : List Invocation}
    (hspelled : ∀ i ∈ history, ∀ text ∈ texts i.ctx i.request, Spelled text) :
    ∃ es, (serveAll cfg w history).db.outbox = w.db.outbox ++ es ∧
      (∀ e ∈ es, ∃ past i rest, history = past ++ i :: rest ∧
        let before := serveAll cfg w past
        Writes cfg before i e ∧ Named before.db (i.perform cfg before).2.db e) ∧
      ∀ e ∈ es, ∀ e' ∈ es, ∀ a ∈ ids e, ∀ b ∈ ids e', Uuid.parse a = Uuid.parse b → a = b := by
  have hnamed : ∃ es, (serveAll cfg w history).db.outbox = w.db.outbox ++ es ∧
      ∀ e ∈ es, ∃ past i rest, history = past ++ i :: rest ∧
        let before := serveAll cfg w past
        Writes cfg before i e ∧ Named before.db (i.perform cfg before).2.db e := by
    -- the world is general: the rest of the history starts from what the first call leaves
    induction history generalizing w with
    | nil => exact ⟨[], (List.append_nil _).symm, fun e he => by cases he⟩
    | cons i history ih =>
        obtain ⟨first, hfirst, hiff⟩ := perform_names cfg i w
        obtain ⟨later, hlater, hrest⟩ := ih (i.perform cfg w).2
          fun j hj => hspelled j (List.mem_cons_of_mem i hj)
        refine ⟨first ++ later, ?_, ?_⟩
        · calc (serveAll cfg w (i :: history)).db.outbox
              = (i.perform cfg w).2.db.outbox ++ later := hlater
            _ = w.db.outbox ++ (first ++ later) := by rw [hfirst, List.append_assoc]
        · intro e he
          rcases List.mem_append.mp he with he | he
          · have hne : first ≠ [] := List.ne_nil_of_mem he
            refine ⟨[], i, history, rfl, ⟨first, hfirst, he⟩, ?_⟩
            exact (hiff hne).mpr (hspelled i List.mem_cons_self) e he
          · obtain ⟨past, j, rest, rfl, hwrites, hname⟩ := hrest e he
            exact ⟨i :: past, j, rest, rfl, hwrites, hname⟩
  obtain ⟨es, hes, hnamed⟩ := hnamed
  refine ⟨es, hes, hnamed, ?_⟩
  -- a canonical spelling is determined by the identifier it spells
  intro e he e' he' a ha b hb hparse
  obtain ⟨_, _, _, _, _, hname⟩ := hnamed e he
  obtain ⟨_, _, _, _, _, hname'⟩ := hnamed e' he'
  obtain ⟨u, rfl⟩ := ids_of_named hname a ha
  obtain ⟨v, rfl⟩ := ids_of_named hname' b hb
  rw [Uuid.parse_string, Uuid.parse_string] at hparse
  rw [Option.some.inj hparse]

/-! ## An organization in two spellings -/

/-- The accounts of Ann and Bob. -/
def annAndBob : World :=
  { toyWorld with db := { DB.empty with
      users := (Table.empty.put (toyUser 1)).put (toyUser 2) } }

/-- Ann founds an organization and adds Bob to it, under the given spelling of its identifier. -/
def founding (spelling : String) : List Invocation :=
  let choices : Nat → Choice := fun _ => { now := 1000, id := Uuid.ofNat 0xab }
  [⟨some (Uuid.ofNat 1).string, .createOrg "acme", choices⟩,
    ⟨some (Uuid.ofNat 1).string, .addMember spelling (Uuid.ofNat 2).string, choices⟩]

set_option maxRecDepth 10000 in
/-- In canonical spelling there are three events, and they agree. -/
theorem event_ids_canonical_founding :
    let history := founding "00000000-0000-0000-0000-0000000000ab"
    (∀ i ∈ history, ∀ text ∈ texts i.ctx i.request, Spelled text) ∧
      (serveAll toyConfig annAndBob history).db.outbox.length = 3 ∧
      ∃ es, (serveAll toyConfig annAndBob history).db.outbox = annAndBob.db.outbox ++ es ∧
        (∀ e ∈ es, ∃ past i rest, history = past ++ i :: rest ∧
          let before := serveAll toyConfig annAndBob past
          Writes toyConfig before i e ∧ Named before.db (i.perform toyConfig before).2.db e) ∧
        ∀ e ∈ es, ∀ e' ∈ es, ∀ a ∈ ids e, ∀ b ∈ ids e', Uuid.parse a = Uuid.parse b → a = b := by
  intro history
  have htexts : ∀ i ∈ history, ∀ text ∈ texts i.ctx i.request,
      text ∈ [(Uuid.ofNat 1).string, (Uuid.ofNat 2).string, (Uuid.ofNat 0xab).string] := by
    decide +kernel
  have hspelled : ∀ i ∈ history, ∀ text ∈ texts i.ctx i.request, Spelled text := by
    intro i hi text htext
    have hmem := htexts i hi text htext
    simp only [List.mem_cons, List.not_mem_nil, or_false] at hmem
    rcases hmem with rfl | rfl | rfl <;> exact spelled_string _
  exact ⟨hspelled, by decide +kernel, event_ids_canonical toyConfig annAndBob hspelled⟩

set_option maxRecDepth 10000 in
/-- In upper case Bob joins the same organization, and the event names one that no row has. -/
theorem spelling_reaches_events :
    let w := serveAll toyConfig annAndBob (founding "00000000-0000-0000-0000-0000000000AB")
    w.db.outbox =
        [.orgCreated "00000000-0000-0000-0000-0000000000ab" "acme" 1000,
          .membershipAdded "00000000-0000-0000-0000-0000000000ab"
            "00000000-0000-0000-0000-000000000001" .active 1000,
          .membershipAdded "00000000-0000-0000-0000-0000000000AB"
            "00000000-0000-0000-0000-000000000002" .active 1000] ∧
      w.db.memberships.rows.map (fun m => (m.orgID.string, m.userID.string)) =
        [("00000000-0000-0000-0000-0000000000ab", "00000000-0000-0000-0000-000000000001"),
          ("00000000-0000-0000-0000-0000000000ab", "00000000-0000-0000-0000-000000000002")] := by
  decide +kernel

end EventIds
end Grpc
end OrbitAuth
