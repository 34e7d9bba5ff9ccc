import Mathlib.Data.List.Triplewise
import OrbitAuth.Postgres.Commits
import OrbitAuth.Service.Steps

/-!
# DemoSeeding — starting a demo twice

`SeedDemoUsers` runs at every start.  It goes through a list and upserts each entry: by email, or by
mobile where there is no email.  An upsert by email sets the account's mobile, so an entry can move
an account away from a number that an earlier entry of the list had named; the second start then
finds another table at that earlier entry than the first one did.

* `commits_upsertDemoUser` — the store call, taken apart;
* `Placed` — an entry with the account that it was upserted into;
* `seeded_put` — one entry of the first start: every account has the last name and the last mobile
  that its entries give, and the entries could be placed again (`Replays`);
* `reseeded_put` — one entry of the second start: it finds its account and changes its name and
  mobile only;
* `seeding_repeats` — a second start changes nothing, if nobody takes over a number from which an
  account of the list is moved;
* `mobile_moves_on` — lists for which a second start fails, or creates another account.
-/

namespace OrbitAuth
namespace Postgres

open Domain Foundations

/-! ## Entries -/

/-- An entry of the list, as it reaches the store: an empty identifier is none. -/
structure Entry where
  email : Option String
  mobile : Option String
  name : String
  deriving DecidableEq, Repr

namespace Entry

/-- The account that an upsert updates: the one with the email, or with the mobile where there is
none. -/
def targets (e : Entry) (r : UserRow) : Bool :=
  if e.email.isSome then r.email = e.email else r.mobile = e.mobile

/-- The mobile to which an upsert by email moves its account. -/
def moves (e : Entry) : Option String :=
  if e.email.isSome then e.mobile else none

/-- The row an upsert leaves in the place of its target. -/
def reseed (now : Time) (hash : String) (e : Entry) (r : UserRow) : UserRow :=
  r.reseeded now e.email e.mobile hash e.name

/-- The row an upsert inserts. -/
def row (now : Time) (id : Uuid) (hash : String) (e : Entry) : UserRow :=
  newUser now id e.email e.mobile (some hash)
  (some e.name) .active (if e.email.isSome then some now else none)

end Entry

/-! ## The store call -/

namespace Store

variable {env : Env} {now : Time} {pick : Nat} {db db' : DB} {id : Uuid}
  {email mobile hash name : String}

/-- What an upsert leaves: the target is updated, or a row is inserted and announced. -/
def Upserted (now : Time) (id : Uuid) (hash : String) (e : Entry) (db db' : DB) : Prop :=
  (∃ r, db.users.rows.find? e.targets = some r ∧
  Untaken (db.users.erase r.id) (e.reseed now hash r) ∧
    db' = { db with users := db.users.put (e.reseed now hash r) }) ∨
  (db.users.rows.find? e.targets = none ∧ Untaken db.users (e.row now id hash) ∧
    db' = emitted { db with users := db.users.put (e.row now id hash) }
    [stamp now (.userCreated id.string now)])

theorem targets_of_mobile {e : Entry} (hemail : e.email = none) (hmobile : e.mobile = some mobile) :
    e.targets = fun r : UserRow => r.mobile = some mobile := by
  funext r
  simp [Entry.targets, hemail, hmobile]

theorem targets_of_email {e : Entry} (hemail : e.email = some email) :
    e.targets = fun r : UserRow => r.email = some email := by
  funext r
  simp [Entry.targets, hemail]

/-- The lookup says whether the upsert has a target. -/
theorem commits_demoLookup (hnamed : email ≠ "" ∨ mobile ≠ "") {b : Bool} (name : String) :
    Commits env now pick (missing (demoLookup email mobile)) db b db' ↔
      b = (db.users.rows.find? (Entry.targets ⟨textPtr email, textPtr mobile, name⟩)).isNone ∧
        db' = db := by
  by_cases hemail : email = ""
  · subst hemail
    have hmobile : mobile ≠ "" := hnamed.resolve_left fun h => h rfl
    rw [targets_of_mobile rfl (if_neg hmobile)]
    show Commits env now pick (missing (.findUserByMobile mobile)) db b db' ↔ _
    unfold Commits missing
    rw [Program.run_call]
    cases hfind : db.users.rows.find? fun r => r.mobile = some mobile <;>
      simp [statement, Sql.eval, findUserByMobile, hfind, one, eq_comm]
  · have hlookup : demoLookup email mobile = .findUserByEmail email := if_neg hemail
    rw [targets_of_email (if_neg hemail), hlookup]
    unfold Commits missing
    rw [Program.run_call]
    cases hfind : db.users.rows.find? fun r => r.email = some email <;>
      simp [statement, Sql.eval, findUserByEmail, hfind, one, eq_comm]

/-- With an email the email is the arbiter, without one the mobile. -/
theorem commits_demoUpsert (hnamed : email ≠ "" ∨ mobile ≠ "") :
    Commits env now pick (demoUpsert id email mobile hash name) db () db' ↔
      ∃ ws, Postgres.upsertDemoUser (Entry.targets ⟨textPtr email, textPtr mobile, name⟩) now db id
        (textPtr email) (textPtr mobile) hash name = .ok ((), ws) ∧ db' = db.applyAll ws := by
  by_cases hemail : email = ""
  · subst hemail
    have hmobile : textPtr mobile = some mobile := if_neg (hnamed.resolve_left fun h => h rfl)
    have hconflict : (fun r : UserRow => (textPtr mobile).isSome && r.mobile = textPtr mobile) =
        Entry.targets ⟨textPtr "", textPtr mobile, name⟩ := by
      rw [targets_of_mobile rfl hmobile, hmobile]
      rfl
    rw [← hconflict]
    exact commits_stmt
  · have hpresent : textPtr email = some email := if_neg hemail
    have hconflict : (fun r : UserRow => (textPtr email).isSome && r.email = textPtr email) =
        Entry.targets ⟨textPtr email, textPtr mobile, name⟩ := by
      rw [targets_of_email hpresent, hpresent]
      rfl
    rw [← hconflict, demoUpsert, if_neg hemail]
    exact commits_stmt

theorem commits_upsertDemoUser (hnamed : email ≠ "" ∨ mobile ≠ "") :
    Commits env now pick (upsertDemoUser now id email mobile hash name) db () db' ↔
      Upserted now id hash ⟨textPtr email, textPtr mobile, name⟩ db db' := by
  constructor
  · intro h
    obtain ⟨b, db₁, h₁, hrest⟩ := commits_bind.mp h
    obtain ⟨hb, rfl⟩ := (commits_demoLookup hnamed name).mp h₁
    obtain ⟨_, db₂, h₂, h⟩ := commits_bind.mp hrest
    obtain ⟨ws, heval, hdb₂⟩ := (commits_demoUpsert hnamed).mp h₂
    -- the lookup and the upsert see the same table, so what is announced is what is inserted
    rcases upsertDemoUser_iff.mp heval with ⟨r, hfind, hfree, hws⟩ | ⟨hfind, hfree, hws⟩
    · rw [hb, hfind] at h
      obtain ⟨_, hdb'⟩ := commits_pure.mp h
      exact .inl ⟨r, hfind, hfree, by rw [hdb', hdb₂, hws]; rfl⟩
    · rw [hb, hfind] at h
      have hdb' := commits_emitEvents.mp h
      exact .inr ⟨hfind, hfree, by rw [hdb', hdb₂, hws]; rfl⟩
  · intro h
    refine commits_bind.mpr ⟨_, db, (commits_demoLookup hnamed name).mpr ⟨rfl, rfl⟩, ?_⟩
    rcases h with ⟨r, hfind, hfree, hdb'⟩ | ⟨hfind, hfree, hdb'⟩
    · rw [hfind]
      refine commits_bind.mpr ⟨(), _, (commits_demoUpsert hnamed).mpr
        ⟨_, upsertDemoUser_iff.mpr (.inl ⟨r, hfind, hfree, rfl⟩), rfl⟩, ?_⟩
      exact commits_pure.mpr ⟨rfl, hdb'⟩
    · rw [hfind]
      refine commits_bind.mpr ⟨(), _, (commits_demoUpsert hnamed).mpr
        ⟨_, upsertDemoUser_iff.mpr (.inr ⟨hfind, hfree, rfl⟩), rfl⟩, ?_⟩
      exact commits_emitEvents.mpr hdb'

theorem definite_missing (s : Sql) : Definite (missing s) := by
  refine .call fun ans => ?_
  rcases ans with e | v
  · cases e <;> first | exact .done _ | exact .fault _
  · exact .done _

/-- What a call that gets through has done. -/
theorem upserted_of_exec (hnamed : email ≠ "" ∨ mobile ≠ "")
    (h : ((Op.upsertDemoUser email mobile hash name).exec env now id pick db).1 = .ok ()) :
    Upserted now id hash ⟨textPtr email, textPtr mobile, name⟩ db
      ((Op.upsertDemoUser email mobile hash name).exec env now id pick db).2 := by
  have hdefinite : Definite ((Op.upsertDemoUser email mobile hash name).body now id) := by
    refine definite_bind (definite_missing _) fun created => ?_
    refine definite_bind ?_ fun _ => ?_
    · unfold demoUpsert
      split <;> exact definite_stmt _ _
    · split
      · exact definite_emitEvents now _
      · exact .done _
  exact (commits_upsertDemoUser hnamed).mp (commits_of_exec hdefinite h)

end Store

/-! ## Unique identifiers -/

section Identifiers

variable {t : Table UserRow} {e : Entry} {r s x : UserRow} {now : Time} {id : Uuid} {hash : String}

/-- The unique columns of the accounts. -/
structure Distinct (t : Table UserRow) : Prop where
  email : t.Unique UserRow.email
  mobile : t.Unique UserRow.mobile

theorem distinct_put (ht : Distinct t) (hfree : Untaken (t.erase x.id) x) : Distinct (t.put x) := by
  refine ⟨unique_put ht.email ?_, unique_put ht.mobile ?_⟩
  · intro s hs hne v hv
    exact (hfree s (mem_erase.2 ⟨hs, hne⟩)).2.1 v hv
  · intro s hs hne v hv
    exact (hfree s (mem_erase.2 ⟨hs, hne⟩)).2.2 v hv

namespace Entry

/-- The entry has an identifier. -/
def Named (e : Entry) : Prop :=
  e.email.isSome = true ∨ e.mobile.isSome = true

theorem mobile_of_moves {m : String} (h : e.moves = some m) :
    e.email.isSome = true ∧ e.mobile = some m := by
  rcases e with ⟨_ | email, mobile, name⟩
  · cases h
  · exact ⟨rfl, h⟩

theorem eq_of_targets (ht : Distinct t) (he : e.Named) (hr : r ∈ t) (hs : s ∈ t)
    (htr : e.targets r = true) (hts : e.targets s = true) : r = s := by
  rcases e with ⟨_ | email, mobile, name⟩
  · rcases mobile with _ | m
    · simp [Named] at he
    · have hrm : r.mobile = some m := by simpa [targets] using htr
      have hsm : s.mobile = some m := by simpa [targets] using hts
      exact ht.mobile r hr s hs m hrm hsm
  · have hre : r.email = some email := by simpa [targets] using htr
    have hse : s.email = some email := by simpa [targets] using hts
    exact ht.email r hr s hs email hre hse

theorem find?_targets (ht : Distinct t) (he : e.Named) (hr : r ∈ t) (htr : e.targets r = true) :
    t.rows.find? e.targets = some r := by
  cases hfind : t.rows.find? e.targets with
  | none => exact absurd htr (List.find?_eq_none.1 hfind r hr)
  | some s =>
      have hs : s ∈ t := List.mem_of_find?_eq_some hfind
      rw [eq_of_targets ht he hs hr (List.find?_some hfind) htr]

/-- An upsert leaves the email of its target. -/
theorem reseed_email (h : e.targets r = true) : (e.reseed now hash r).email = r.email := by
  rcases e with ⟨_ | email, mobile, name⟩
  · rfl
  · have hr : r.email = some email := by simpa [targets] using h
    exact hr.symm

/-- It leaves the mobile too, unless it moves the account. -/
theorem reseed_mobile (h : e.targets r = true) :
    (e.reseed now hash r).mobile = e.moves.or r.mobile := by
  rcases e with ⟨_ | email, mobile, name⟩
  · have hr : r.mobile = mobile := by simpa [targets] using h
    simp [reseed, UserRow.reseeded, moves, hr]
  · rfl

/-! ## What an upsert leaves -/

/-- The account has what every upsert of the entry leaves, whatever the other entries are. -/
structure Settled (e : Entry) (r : UserRow) : Prop where
  email : e.email.isSome = true → r.email = e.email
  active : r.status = .active
  verified : e.email.isSome = true → r.emailVerifiedAt.isSome = true

/-- `x` is what an upsert of the entry writes into `t`: over the account it found, or as a new one.
-/
structure Leaves (e : Entry) (t : Table UserRow) (x : UserRow) : Prop where
  settled : e.Settled x
  name : x.displayName = some e.name
  free : Untaken (t.erase x.id) x
  alone : e.email.isSome = true → ∀ r ∈ t, r.email = e.email → r.id = x.id
  given : e.mobile.isSome = true → x.mobile = e.mobile
  found : ∀ r ∈ t, r.id = x.id → x.email = r.email ∧ x.mobile = e.moves.or r.mobile ∧
    (r.emailVerifiedAt.isSome = true → x.emailVerifiedAt.isSome = true)
  new : (∀ r ∈ t, r.id ≠ x.id) → x.email = e.email ∧ x.mobile = e.mobile

theorem leaves_reseed (ht : Distinct t) (he : e.Named) (hr : r ∈ t) (htarget : e.targets r = true)
    (hfree : Untaken (t.erase r.id) (e.reseed now hash r)) :
    e.Leaves t (e.reseed now hash r) := by
  have hsettled : e.Settled (e.reseed now hash r) := by
    refine ⟨fun h => ?_, rfl, fun h => ?_⟩
    · obtain ⟨email, hemail⟩ := Option.isSome_iff_exists.1 h
      simp [reseed, UserRow.reseeded, hemail]
    · simp [reseed, UserRow.reseeded, h]
  refine ⟨hsettled, rfl, hfree, fun h s hs hemail => ?_, fun h => ?_, fun s hs hid =>
    ?_, fun h => ?_⟩
  · have hs' : e.targets s = true := by simp [targets, h, hemail]
    exact (congrArg UserRow.id (eq_of_targets ht he hs hr hs' htarget) :)
  · obtain ⟨mobile, hmobile⟩ := Option.isSome_iff_exists.1 h
    simp [reseed, UserRow.reseeded, hmobile]
  · rw [eq_of_key hs hr hid]
    refine ⟨reseed_email htarget, reseed_mobile htarget, fun hverified => ?_⟩
    simp only [reseed, UserRow.reseeded]
    split
    · simp
    · exact hverified
  · exact absurd rfl (h r hr)

theorem leaves_row (hnone : t.rows.find? e.targets = none)
    (hfree : Untaken t (e.row now id hash)) : e.Leaves t (e.row now id hash) := by
  refine ⟨⟨fun _ => rfl, rfl, fun h => ?_⟩, rfl, fun s hs => hfree s (mem_erase.1 hs).1,
    fun h s hs hemail => ?_, fun _ => rfl, fun s hs hid => ?_, fun _ => ⟨rfl, rfl⟩⟩
  · simp [row, newUser, h]
  · have hs' : e.targets s = true := by simp [targets, h, hemail]
    exact absurd hs' (List.find?_eq_none.1 hnone s hs)
  · exact absurd hid (hfree s hs).1

/-- What an upsert does to the accounts. -/
theorem leaves_of_upserted {db db' : DB} (ht : Distinct db.users) (he : e.Named)
    (h : Store.Upserted now id hash e db db') :
    ∃ x, e.Leaves db.users x ∧ db'.users = db.users.put x := by
  rcases h with ⟨r, hfind, hfree, rfl⟩ | ⟨hfind, hfree, rfl⟩
  · exact ⟨_, leaves_reseed ht he (List.mem_of_find?_eq_some hfind) (List.find?_some hfind) hfree,
      rfl⟩
  · exact ⟨_, leaves_row hfind hfree, rfl⟩

end Entry
end Identifiers

/-! ## Entries and their accounts -/

/-- An entry and the account that it was upserted into. -/
structure Placed where
  entry : Entry
  account : Uuid

/-- What the last entry of an account gives that gives anything. -/
def lastGiven (f : Entry → Option String) (log : List Placed) (id : Uuid) : Option String :=
  log.reverse.findSome? fun p => if p.account = id then f p.entry else none

/-- The mobile an account was last moved to. -/
def movedTo (log : List Placed) (id : Uuid) : Option String :=
  lastGiven Entry.moves log id

section Logs

variable {f : Entry → Option String} {log log' : List Placed} {p : Placed} {id : Uuid}

theorem lastGiven_append : lastGiven f (log ++ log') id =
    (lastGiven f log' id).or (lastGiven f log id) := by
  rw [lastGiven, List.reverse_append, List.findSome?_append]
  rfl

theorem lastGiven_self (hid : p.account = id) :
    lastGiven f (log ++ [p]) id = (f p.entry).or (lastGiven f log id) := by
  rw [lastGiven_append]
  cases h : f p.entry <;> simp [lastGiven, hid, h]

theorem lastGiven_other (hid : p.account ≠ id) :
    lastGiven f (log ++ [p]) id = lastGiven f log id := by
  rw [lastGiven_append]
  simp [lastGiven, hid]

theorem mem_of_lastGiven {v : String} (h : lastGiven f log id = some v) :
    ∃ p ∈ log, p.account = id ∧ f p.entry = some v := by
  obtain ⟨p, hp, hgives⟩ := List.exists_of_findSome?_eq_some h
  split at hgives
  · rename_i hid
    exact ⟨p, List.mem_reverse.1 hp, hid, hgives⟩
  · cases hgives

theorem lastGiven_none (h : ∀ p ∈ log, p.account ≠ id) : lastGiven f log id = none := by
  cases hlast : lastGiven f log id with
  | none => rfl
  | some v =>
      obtain ⟨p, hp, hid, _⟩ := mem_of_lastGiven hlast
      exact absurd hid (h p hp)

end Logs

/-- What a start must leave of an account: all but its password hash and its times of creation,
change and login. -/
structure Account where
  id : Uuid
  email : Option String
  mobile : Option String
  displayName : Option String
  status : UserStatus
  emailVerifiedAt : Option Time
  deriving DecidableEq

def account (r : UserRow) : Account :=
  ⟨r.id, r.email, r.mobile, r.displayName, r.status, r.emailVerifiedAt⟩

/-- The account after the entries: the mobile and the name are the last ones they give. -/
def Account.after (log : List Placed) (x : Account) : Account :=
  { x with
    mobile := (movedTo log x.id).or x.mobile
    displayName := (lastGiven (fun e => some e.name) log x.id).or x.displayName }

/-! ## The first start -/

/-- `e₀` and `e` give one email two mobiles, and `e₁` names the first of them for another account.
-/
def takesOver (e₀ e e₁ : Entry) : Bool :=
  e₀.moves.isSome && e.moves.isSome && e.email = e₀.email && e.mobile ≠ e₀.mobile &&
    e₁.mobile = e₀.mobile && e₁.email ≠ e₀.email

/-- `e₀` names a mobile alone, and `e` moves an account away that had it at the start. -/
def strands (t₀ : Table UserRow) (e₀ e : Entry) : Bool :=
  e₀.email.isNone && e.moves.isSome && e.mobile ≠ e₀.mobile &&
    t₀.any fun r => r.email = e.email && r.mobile = e₀.mobile

/-- No entry takes over the mobile of an account that two earlier ones move, and none moves an
account from a mobile that an earlier one names alone. -/
structure Steady (t₀ : Table UserRow) (es : List Entry) : Prop where
  untaken : es.Triplewise fun e₀ e e₁ => takesOver e₀ e e₁ = false
  kept : es.Pairwise fun e₀ e => strands t₀ e₀ e = false

instance decidableTriplewise {α : Type} (p : α → α → α → Prop) [∀ a b c, Decidable (p a b c)] :
    ∀ l : List α, Decidable (l.Triplewise p)
  | [] => isTrue .nil
  | a :: l =>
      haveI := decidableTriplewise p l
      decidable_of_iff (l.Pairwise (p a) ∧ l.Triplewise p) List.triplewise_cons.symm

instance (t₀ : Table UserRow) (es : List Entry) : Decidable (Steady t₀ es) :=
  decidable_of_iff (es.Triplewise (fun e₀ e e₁ => takesOver e₀ e e₁ = false) ∧
    es.Pairwise fun e₀ e => strands t₀ e₀ e = false) ⟨fun h => ⟨h.1, h.2⟩, fun h => ⟨h.1, h.2⟩⟩

/-- With the accounts `t` and after the entries `before`, `p` finds its account again and nobody is
in its way.  `start` says where the mobile of an entry without email came from. -/
structure Replays (t₀ t : Table UserRow) (before : List Placed) (p : Placed) : Prop where
  found : p.entry.email = none → ∀ r ∈ t, r.id = p.account →
    (movedTo before r.id).or r.mobile = p.entry.mobile
  start : p.entry.email = none → movedTo before p.account = none → ∀ r ∈ t, r.id = p.account →
    r.email = none ∨ ∃ r₀ ∈ t₀, r₀.email = r.email ∧ r₀.mobile = p.entry.mobile
  free : ∀ m, p.entry.moves = some m → ∀ s ∈ t, s.id ≠ p.account →
    (movedTo before s.id).or s.mobile ≠ some m

/-- The accounts after some of the entries, from the accounts `t₀` of the start. -/
structure Seeded (t₀ : Table UserRow) (log : List Placed) (t : Table UserRow) : Prop where
  distinct : Distinct t
  settled : ∀ p ∈ log, ∃ r ∈ t, r.id = p.account ∧ p.entry.Settled r
  fixed : ∀ r ∈ t, (account r).after log = account r
  start : ∀ r ∈ t, movedTo log r.id = none →
    r.email = none ∨ r.mobile = none ∨ ∃ r₀ ∈ t₀, r₀.email = r.email ∧ r₀.mobile = r.mobile
  replays : ∀ before p later, log = before ++ p :: later → Replays t₀ t before p

section FirstStart

variable {t₀ t : Table UserRow} {log before later : List Placed} {q : Placed} {e : Entry}
  {r x : UserRow} {m : String}

theorem seeded_nil (ht : Distinct t₀) : Seeded t₀ [] t₀ where
  distinct := ht
  settled := fun _ hp => (List.not_mem_nil hp).elim
  fixed := fun _ _ => rfl
  start := fun r hr _ => .inr (.inr ⟨r, hr, rfl, rfl⟩)
  replays := fun before p later h => by simp at h

theorem mobile_fixed (h : Seeded t₀ log t) (hr : r ∈ t) :
    (movedTo log r.id).or r.mobile = r.mobile :=
  congrArg Account.mobile (h.fixed r hr)

theorem lastGiven_new {f : Entry → Option String} (h : Seeded t₀ log t)
    (hnew : ∀ r ∈ t, r.id ≠ x.id) : lastGiven f log x.id = none := by
  refine lastGiven_none fun p hp hid => ?_
  obtain ⟨r, hr, hrid, _⟩ := h.settled p hp
  exact hnew r hr (hrid.trans hid)

/-- The row of an account after the upsert. -/
theorem eq_of_put {s : UserRow} (hs : s ∈ t.put x) (hid : s.id = x.id) : s = x := by
  rcases mem_put.1 hs with rfl | ⟨_, hne⟩
  · rfl
  · exact absurd hid hne

theorem found_or_new (t : Table UserRow) (x : UserRow) :
    (∃ r ∈ t, r.id = x.id) ∨ ∀ r ∈ t, r.id ≠ x.id := by
  by_cases h : ∃ r ∈ t, r.id = x.id
  · exact .inl h
  · exact .inr fun r hr hid => h ⟨r, hr, hid⟩

/-! ### One upsert -/

section Upsert

variable (h : Seeded t₀ log t) (hx : e.Leaves t x)

include h hx

/-- The account has the mobile that the entries up to this one give it last. -/
theorem mobile_after : (e.moves.or (movedTo log x.id)).or x.mobile = x.mobile := by
  rcases found_or_new t x with ⟨r, hr, hid⟩ | hnew
  · have hfixed := mobile_fixed h hr
    rw [(hx.found r hr hid).2.1, ← hid]
    cases e.moves with
    | some m => rfl
    | none => exact hfixed
  · rw [movedTo, lastGiven_new h hnew]
    cases hmoves : e.moves with
    | none => rfl
    | some m =>
        obtain ⟨_, hem⟩ := Entry.mobile_of_moves hmoves
        exact ((hx.given (by rw [hem]; rfl)).trans hem).symm

/-- If none of them moves it, it has had its identifiers from the start or lacks one. -/
theorem start_after (hmoves : e.moves = none) (hunmoved : movedTo log x.id = none) :
    x.email = none ∨ x.mobile = none ∨ ∃ r₀ ∈ t₀, r₀.email = x.email ∧ r₀.mobile = x.mobile := by
  rcases found_or_new t x with ⟨r, hr, hid⟩ | hnew
  · obtain ⟨hemail, hmobile, _⟩ := hx.found r hr hid
    rw [hmoves] at hmobile
    rw [hemail, hmobile]
    exact h.start r hr (hid ▸ hunmoved)
  · obtain ⟨hemail, hmobile⟩ := hx.new hnew
    rw [hemail, hmobile]
    rcases e with ⟨_ | email, mobile, name⟩
    · exact .inl rfl
    · exact .inr (.inl hmoves)

theorem settled_after :
    ∀ p ∈ log ++ [⟨e, x.id⟩], ∃ r ∈ t.put x, r.id = p.account ∧ p.entry.Settled r := by
  have hmem : x ∈ t.put x := mem_put.2 (.inl rfl)
  intro p hp
  rcases List.mem_append.1 hp with hp | hp
  · obtain ⟨r, hr, hrid, hsettled⟩ := h.settled p hp
    by_cases hid : r.id = x.id
    · obtain ⟨hemail, _, hverified⟩ := hx.found r hr hid
      refine ⟨x, hmem, hid.symm.trans hrid, fun h => ?_, hx.settled.active, fun h => ?_⟩
      · exact hemail.trans (hsettled.email h)
      · exact hverified (hsettled.verified h)
    · exact ⟨r, mem_put.2 (.inr ⟨hr, hid⟩), hrid, hsettled⟩
  · cases List.mem_singleton.1 hp
    exact ⟨x, hmem, rfl, hx.settled⟩

theorem fixed_after : ∀ r ∈ t.put x, (account r).after (log ++ [⟨e, x.id⟩]) = account r := by
  intro r hr
  rcases mem_put.1 hr with rfl | ⟨hold, hid⟩
  · have hname : lastGiven (fun e => some e.name) (log ++ [⟨e, r.id⟩]) r.id = some e.name :=
      lastGiven_self rfl
    have hmobile : (movedTo (log ++ [⟨e, r.id⟩]) r.id).or r.mobile = r.mobile := by
      rw [movedTo, lastGiven_self rfl]
      exact mobile_after h hx
    simp only [Account.after, account, hname, hmobile, hx.name]
    rfl
  · have hother : (⟨e, x.id⟩ : Placed).account ≠ (account r).id := fun h => hid h.symm
    simp only [Account.after, movedTo, lastGiven_other hother]
    exact h.fixed r hold

/-- The new entry can be placed again. -/
theorem replays_new (he : e.Named) : Replays t₀ (t.put x) log ⟨e, x.id⟩ := by
  have hgiven : e.email = none → x.mobile = e.mobile ∧ e.moves = none ∧ e.mobile ≠ none := by
    intro hnone
    have hmobile : e.mobile.isSome = true := he.resolve_left (by simp [hnone])
    refine ⟨hx.given hmobile, by simp [Entry.moves, hnone], fun h => ?_⟩
    rw [h] at hmobile
    cases hmobile
  refine ⟨fun hnone s hs hid => ?_, fun hnone hunmoved s hs hid => ?_, fun m hm s hs hid hsm => ?_⟩
  · obtain ⟨hmobile, hmoves, _⟩ := hgiven hnone
    have hafter := mobile_after h hx
    rw [hmoves, Option.none_or] at hafter
    rw [eq_of_put hs hid, hafter, hmobile]
  · obtain ⟨hmobile, hmoves, hsome⟩ := hgiven hnone
    rw [eq_of_put hs hid]
    rcases start_after h hx hmoves hunmoved with hno | hno | hstart
    · exact .inl hno
    · exact absurd (hmobile.symm.trans hno) hsome
    · exact .inr (hmobile ▸ hstart)
  · rcases mem_put.1 hs with rfl | ⟨hs, hne⟩
    · exact hid rfl
    · obtain ⟨_, hem⟩ := Entry.mobile_of_moves hm
      have hxm : x.mobile = some m := (hx.given (by rw [hem]; rfl)).trans hem
      rw [mobile_fixed h hs] at hsm
      exact (hx.free s (mem_erase.2 ⟨hs, hne⟩)).2.2 m hxm hsm

variable (hlog : log = before ++ q :: later)

include hlog

/-- Nobody takes over a mobile from which an account was moved. -/
theorem not_taken
    (huntaken : (log.map Placed.entry).Pairwise fun e₀ e₁ => takesOver e₀ e₁ e = false)
    (hm : q.entry.moves = some m) (hid : x.id ≠ q.account) : e.mobile ≠ some m := by
  intro hem
  obtain ⟨r, hr, hrid, hsettled⟩ := h.settled q (by simp [hlog])
  have hne : r.id ≠ x.id := fun heq => hid (heq.symm.trans hrid)
  have hxm : x.mobile = some m := (hx.given (by rw [hem]; rfl)).trans hem
  have hrm : r.mobile ≠ some m := (hx.free r (mem_erase.2 ⟨hr, hne⟩)).2.2 m hxm
  have hfixed := mobile_fixed h hr
  have hsplit : movedTo log r.id = (movedTo later r.id).or (some m) := by
    have happend : before ++ q :: later = (before ++ [q]) ++ later := by simp
    rw [movedTo, hlog, happend, lastGiven_append, lastGiven_self hrid.symm, hm]
    rfl
  rw [hsplit] at hfixed
  -- an entry after `q` has moved the account away from `m`
  cases hlater : movedTo later r.id with
  | none =>
      rw [hlater] at hfixed
      exact hrm hfixed.symm
  | some v =>
      rw [hlater] at hfixed
      have hrv : some v = r.mobile := hfixed
      obtain ⟨q₂, hq₂, hq₂id, hq₂v⟩ := mem_of_lastGiven hlater
      obtain ⟨r₂, hr₂, hr₂id, hsettled₂⟩ := h.settled q₂ (by simp [hlog, hq₂])
      rw [eq_of_key hr₂ hr (hr₂id.trans hq₂id)] at hsettled₂
      have hqe := hsettled.email (Entry.mobile_of_moves hm).1
      have hq₂e := hsettled₂.email (Entry.mobile_of_moves hq₂v).1
      have hvm : v ≠ m := fun heq => hrm (hrv.symm.trans (congrArg some heq))
      have hother : e.email ≠ q.entry.email := by
        intro heq
        have hsome : e.email.isSome = true := heq ▸ (Entry.mobile_of_moves hm).1
        exact hne (hx.alone hsome r hr (hqe.trans heq.symm))
      have htaken : takesOver q.entry q₂.entry e = true := by
        simp [takesOver, hm, hq₂v, (Entry.mobile_of_moves hm).2,
          (Entry.mobile_of_moves hq₂v).2, hem, ← hqe, ← hq₂e, hvm]
        exact hqe ▸ hother
      rw [hlog, List.map_append, List.map_cons] at huntaken
      have hpair := (List.pairwise_cons.1 (List.pairwise_append.1 huntaken).2.1).1
      rw [hpair q₂.entry (List.mem_map_of_mem hq₂)] at htaken
      cases htaken

/-- An entry without email still finds the account, if the upsert does not move it away. -/
theorem found_kept (hkept : strands t₀ q.entry e = false) (hnone : q.entry.email = none)
    (hid : x.id = q.account) : (movedTo before x.id).or x.mobile = q.entry.mobile := by
  have hold := h.replays before q later hlog
  obtain ⟨r, hr, hrid, _⟩ := h.settled q (by simp [hlog])
  have hsame : r.id = x.id := hrid.trans hid.symm
  obtain ⟨hemail, hmobile, _⟩ := hx.found r hr hsame
  have hfound := hold.found hnone r hr hrid
  rw [hsame] at hfound
  cases hmoved : movedTo before x.id with
  | some v =>
      rw [hmoved] at hfound
      exact hfound
  | none =>
      rw [hmoved] at hfound
      have hfound : r.mobile = q.entry.mobile := hfound
      show x.mobile = q.entry.mobile
      rw [hmobile]
      cases hmoves : e.moves with
      | none => exact hfound
      | some m =>
          -- the account has had the mobile from the start, and `e` would move it away
          by_contra hne
          obtain ⟨hsome, hem⟩ := Entry.mobile_of_moves hmoves
          have hre : r.email = e.email := hemail.symm.trans (hx.settled.email hsome)
          have hne' : some m ≠ q.entry.mobile := hne
          rcases hold.start hnone (hid ▸ hmoved) r hr hrid with hno | ⟨r₀, hr₀, hr₀e, hr₀m⟩
          · rw [← hre, hno] at hsome
            cases hsome
          · have hany : (t₀.any fun r => r.email = e.email && r.mobile = q.entry.mobile) = true :=
              any_eq_true.2 ⟨r₀, hr₀, by simp [hr₀e, hre, hr₀m]⟩
            simp [strands, hnone, hmoves, hem, hne', hany] at hkept

/-- The mobile to which an entry moves its account stays free of the account of the upsert. -/
theorem free_kept
    (huntaken : (log.map Placed.entry).Pairwise fun e₀ e₁ => takesOver e₀ e₁ e = false)
    (hm : q.entry.moves = some m) (hid : x.id ≠ q.account) :
    (movedTo before x.id).or x.mobile ≠ some m := by
  have hfresh := not_taken h hx hlog huntaken hm hid
  rcases found_or_new t x with ⟨r, hr, hrid⟩ | hnew
  · have hfree := (h.replays before q later hlog).free m hm r hr (hrid ▸ hid)
    rw [hrid] at hfree
    cases hmoved : movedTo before x.id with
    | some v =>
        rw [hmoved] at hfree
        exact hfree
    | none =>
        rw [hmoved] at hfree
        show x.mobile ≠ some m
        rw [(hx.found r hr hrid).2.1]
        cases hmoves : e.moves with
        | none => exact hfree
        | some m' => exact fun heq => hfresh ((Entry.mobile_of_moves hmoves).2.trans heq)
  · have hunmoved : movedTo before x.id = none := by
      refine lastGiven_none fun p hp hpid => ?_
      obtain ⟨r, hr, hrid, _⟩ := h.settled p (by simp [hlog, hp])
      exact hnew r hr (hrid.trans hpid)
    rw [hunmoved]
    exact (hx.new hnew).2 ▸ hfresh

/-- The earlier entries can still be placed again. -/
theorem replays_kept
    (huntaken : (log.map Placed.entry).Pairwise fun e₀ e₁ => takesOver e₀ e₁ e = false)
    (hkept : ∀ p ∈ log, strands t₀ p.entry e = false) : Replays t₀ (t.put x) before q := by
  have hold := h.replays before q later hlog
  have hq : q ∈ log := by simp [hlog]
  refine ⟨fun hnone s hs hid => ?_, fun hnone hunmoved s hs hid => ?_, fun m hm s hs hid => ?_⟩
  · rcases mem_put.1 hs with rfl | ⟨hs, _⟩
    · exact found_kept h hx hlog (hkept q hq) hnone hid
    · exact hold.found hnone s hs hid
  · rcases mem_put.1 hs with rfl | ⟨hs, _⟩
    · obtain ⟨r, hr, hrid, _⟩ := h.settled q hq
      rw [(hx.found r hr (hrid.trans hid.symm)).1]
      exact hold.start hnone hunmoved r hr hrid
    · exact hold.start hnone hunmoved s hs hid
  · rcases mem_put.1 hs with rfl | ⟨hs, _⟩
    · exact free_kept h hx hlog huntaken hm hid
    · exact hold.free m hm s hs hid

end Upsert

/-- An entry of the first start. -/
theorem seeded_put (h : Seeded t₀ log t) (he : e.Named) (hx : e.Leaves t x)
    (huntaken : (log.map Placed.entry).Pairwise fun e₀ e₁ => takesOver e₀ e₁ e = false)
    (hkept : ∀ p ∈ log, strands t₀ p.entry e = false) :
    Seeded t₀ (log ++ [⟨e, x.id⟩]) (t.put x) := by
  refine ⟨distinct_put h.distinct hx.free, settled_after h hx, fixed_after h hx, ?_, ?_⟩
  · intro r hr hunmoved
    rcases mem_put.1 hr with rfl | ⟨hold, hid⟩
    · rw [movedTo, lastGiven_self rfl] at hunmoved
      obtain ⟨hmoves, hunmoved⟩ := Option.or_eq_none_iff.1 hunmoved
      exact start_after h hx hmoves hunmoved
    · have hother : (⟨e, x.id⟩ : Placed).account ≠ r.id := fun h => hid h.symm
      rw [movedTo, lastGiven_other hother] at hunmoved
      exact h.start r hold hunmoved
  · -- the entry itself, or an earlier one
    intro before p later hlog
    rcases List.eq_nil_or_concat later with rfl | ⟨later', q, rfl⟩
    · obtain ⟨rfl, hp⟩ := List.append_inj' hlog rfl
      cases hp
      exact replays_new h hx he
    · have hsplit : before ++ p :: (later' ++ [q]) = (before ++ p :: later') ++ [q] := by simp
      rw [List.concat_eq_append, hsplit] at hlog
      obtain ⟨hlog, _⟩ := List.append_inj' hlog rfl
      exact replays_kept h hx hlog huntaken hkept

end FirstStart

/-! ## The second start -/

/-- `t'` has the accounts of `t`, as the entries so far leave them. -/
structure Reseeded (t : Table UserRow) (log : List Placed) (t' : Table UserRow) : Prop where
  distinct : Distinct t'
  accounts : ∀ id, (t'.find? id).map account = (t.find? id).map fun r => (account r).after log

section SecondStart

variable {t₀ t t' : Table UserRow} {log : List Placed} {p : Placed} {r : UserRow}

theorem reseeded_nil (ht : Distinct t) : Reseeded t [] t where
  distinct := ht
  accounts := fun _ => rfl

/-- The row of an account in the second start. -/
theorem exists_reseeded (h : Reseeded t log t') (hr : r ∈ t) :
    ∃ r' ∈ t', account r' = (account r).after log := by
  have hmapped := h.accounts r.id
  rw [show t.find? r.id = some r from find?_of_mem hr] at hmapped
  obtain ⟨r', hfind, hr'⟩ := Option.map_eq_some_iff.1 hmapped
  exact ⟨r', (find?_eq_some.1 hfind).1, hr'⟩

theorem exists_seeded {s' : UserRow} (h : Reseeded t log t') (hs : s' ∈ t') :
    ∃ s ∈ t, account s' = (account s).after log := by
  have hmapped := h.accounts s'.id
  rw [show t'.find? s'.id = some s' from find?_of_mem hs] at hmapped
  obtain ⟨s, hfind, hs'⟩ := Option.map_eq_some_iff.1 hmapped.symm
  exact ⟨s, (find?_eq_some.1 hfind).1, hs'.symm⟩

/-! ### One upsert again -/

section Again

variable {r' : UserRow} (now : Time) (hash : String) (hid : r.id = p.account)
  (hsettled : p.entry.Settled r) (hr' : account r' = (account r).after log)

include hsettled hr'

/-- The entry finds its account: the email is still there, or the mobile again. -/
theorem targets_again (hfound : p.entry.email = none →
    (movedTo log r.id).or r.mobile = p.entry.mobile) : p.entry.targets r' = true := by
  unfold Entry.targets
  split
  · rename_i hsome
    exact decide_eq_true ((congrArg Account.email hr').trans (hsettled.email hsome))
  · rename_i hnone
    exact decide_eq_true ((congrArg Account.mobile hr').trans (hfound (by simpa using hnone)))

include hid in
/-- It changes nothing but the name and the mobile. -/
theorem account_again (htarget : p.entry.targets r' = true) :
    account (p.entry.reseed now hash r') = (account r).after (log ++ [p]) := by
  have hkey : r'.id = r.id := congrArg Account.id hr'
  have hemail : r'.email = r.email := congrArg Account.email hr'
  have hmobile : r'.mobile = (movedTo log r.id).or r.mobile := congrArg Account.mobile hr'
  have hverified : (p.entry.reseed now hash r').emailVerifiedAt = r.emailVerifiedAt := by
    have hsame : r'.emailVerifiedAt = r.emailVerifiedAt := congrArg Account.emailVerifiedAt hr'
    simp only [Entry.reseed, UserRow.reseeded, hsame]
    split
    · rename_i hsome
      obtain ⟨verifiedAt, hat⟩ := Option.isSome_iff_exists.1 (hsettled.verified hsome)
      rw [hat]
      rfl
    · rfl
  simp only [account, Account.after, movedTo, lastGiven_self hid.symm, Entry.reseed_email htarget,
    Entry.reseed_mobile htarget, hverified, hemail, hmobile, hsettled.active, Option.or_assoc]
  exact congrArg (Account.mk · _ _ _ _ _) hkey

end Again

/-- Nobody is in the way of the entry. -/
theorem untaken_again (now : Time) (hash : String) (h : Reseeded t log t') {r' : UserRow}
    (hmem : r' ∈ t') (hkey : r'.id = p.account) (htarget : p.entry.targets r' = true)
    (hreplays : Replays t₀ t log p) :
    Untaken (t'.erase r'.id) (p.entry.reseed now hash r') := by
  intro s hs
  obtain ⟨hs, hne⟩ := mem_erase.1 hs
  refine ⟨hne, fun a ha hsa => ?_, fun m hm hsm => ?_⟩
  · rw [Entry.reseed_email htarget] at ha
    exact hne (congrArg UserRow.id (h.distinct.email s hs r' hmem a hsa ha))
  · rw [Entry.reseed_mobile htarget] at hm
    cases hmoves : p.entry.moves with
    | none =>
        rw [hmoves] at hm
        exact hne (congrArg UserRow.id (h.distinct.mobile s hs r' hmem m hsm hm))
    | some m' =>
        rw [hmoves] at hm
        cases hm
        -- the mobile to which the account is moved was free for it the first time
        obtain ⟨s₀, hs₀, hss₀⟩ := exists_seeded h hs
        have hsid : s.id = s₀.id := congrArg Account.id hss₀
        have hsmobile : s.mobile = (movedTo log s₀.id).or s₀.mobile := congrArg Account.mobile hss₀
        refine hreplays.free m hmoves s₀ hs₀ (fun heq => ?_) (hsmobile.symm.trans hsm)
        exact hne (hsid.trans (heq.trans hkey.symm))

/-- An entry of the second start. -/
theorem reseeded_put (now : Time) (hash : String) (h : Reseeded t log t') (he : p.entry.Named)
    (hr : r ∈ t) (hid : r.id = p.account) (hsettled : p.entry.Settled r)
    (hreplays : Replays t₀ t log p) :
    ∃ r', t'.rows.find? p.entry.targets = some r' ∧
      Untaken (t'.erase r'.id) (p.entry.reseed now hash r') ∧
      Reseeded t (log ++ [p]) (t'.put (p.entry.reseed now hash r')) := by
  obtain ⟨r', hmem, hr'⟩ := exists_reseeded h hr
  have hkey : r'.id = r.id := congrArg Account.id hr'
  have htarget := targets_again hsettled hr' fun hnone => hreplays.found hnone r hr hid
  have hfree := untaken_again now hash h hmem (hkey.trans hid) htarget hreplays
  refine ⟨r', Entry.find?_targets h.distinct he hmem htarget, hfree, distinct_put h.distinct hfree,
    fun id => ?_⟩
  rw [find?_put]
  by_cases hput : r'.id = id
  · rw [if_pos (show Keyed.key (p.entry.reseed now hash r') = id from hput), ← hput, hkey,
      show t.find? r.id = some r from find?_of_mem hr]
    exact congrArg some (account_again now hash hid hsettled hr' htarget)
  · rw [if_neg (show ¬ Keyed.key (p.entry.reseed now hash r') = id from hput), h.accounts id]
    cases hother : t.find? id with
    | none => rfl
    | some s =>
        have hsid : p.account ≠ (account s).id := fun heq =>
          hput ((hkey.trans (hid.trans heq)).trans (find?_eq_some.1 hother).2)
        simp only [Option.map_some, Account.after, movedTo, lastGiven_other hsid]

end SecondStart
end Postgres

/-! ## The service -/

namespace Service

open Domain Foundations Postgres

section Seeding

variable (cfg : Config)

/-- The entry that a configured user becomes. -/
def demoEntry (u : DemoUser) : Entry :=
  ⟨Store.textPtr (toLower cfg.env.lowerRune (trimSpace u.email)),
    Store.textPtr (trimSpace u.mobile), u.displayName⟩

/-- The checks of the identifiers. -/
def seedable (u : DemoUser) : Bool :=
  !(toLower cfg.env.lowerRune (trimSpace u.email) = "" && trimSpace u.mobile = "") &&
    !(trimSpace u.mobile ≠ "" && !isE164 (trimSpace u.mobile))

variable {cfg} {u : DemoUser}

theorem identifier_of_seedable (h : seedable cfg u = true) :
    toLower cfg.env.lowerRune (trimSpace u.email) ≠ "" ∨ trimSpace u.mobile ≠ "" := by
  by_contra hnone
  simp only [not_or, not_not] at hnone
  simp [seedable, hnone.1, hnone.2] at h

theorem named_of_seedable (h : seedable cfg u = true) : (demoEntry cfg u).Named := by
  rcases identifier_of_seedable h with hemail | hmobile
  · exact .inl (by simp [demoEntry, Store.textPtr, hemail])
  · exact .inr (by simp [demoEntry, Store.textPtr, hmobile])

/-- A user that passes the checks is one store call. -/
theorem run_seedDemoUser {cs : Nat → Choice} {w : World} (hcs : (cs 0).fails = false)
    (h : seedable cfg u = true) :
    (seedDemoUser cfg u).run (exec cfg.env) cs w =
      exec cfg.env
        (.store (.upsertDemoUser (toLower cfg.env.lowerRune (trimSpace u.email))
        (trimSpace u.mobile) (cfg.env.hash (cs 0).salt u.password) u.displayName)) (cs 1)
        (w.advance (cs 0).now) := by
  simp only [seedable, Bool.and_eq_true, Bool.not_eq_true'] at h
  unfold seedDemoUser
  simp only [Program.bind_eq, run_hash, run_failIf, hcs, h.1, h.2, Bool.false_eq_true, if_false]
  exact run_lone_store _ _ _ _

/-- A user that has been seeded passed the checks and was upserted. -/
theorem upserted_of_run {cs : Nat → Choice} {w w' : World}
    (h : (seedDemoUser cfg u).run (exec cfg.env) cs w = (.ok (), w')) :
    seedable cfg u = true ∧ ∃ now id hash, Store.Upserted now id hash (demoEntry cfg u)
      w.db w'.db := by
  have hpassed : (cs 0).fails = false ∧ seedable cfg u = true := by
    unfold seedDemoUser at h
    simp only [Program.bind_eq, run_hash, run_failIf] at h
    split at h
    · cases h
    rename_i hruns
    split at h
    · cases h
    rename_i hnamed
    split at h
    · cases h
    rename_i hE164
    refine ⟨Bool.eq_false_of_not_eq_true hruns, ?_⟩
    unfold seedable
    rw [Bool.eq_false_of_not_eq_true hnamed, Bool.eq_false_of_not_eq_true hE164]
    rfl
  rw [run_seedDemoUser hpassed.1 hpassed.2] at h
  have hok := exec_store_ok (congrArg Prod.fst h)
  have hup := Store.upserted_of_exec (identifier_of_seedable hpassed.2) hok.1
  rw [← hok.2, h] at hup
  exact ⟨hpassed.2, _, _, _, hup⟩

/-- A user whose upsert is possible is seeded. -/
theorem run_of_upserted {cs : Nat → Choice} (hcs : ∀ n, (cs n).fails = false) {w : World} {db' : DB}
    (hseedable : seedable cfg u = true)
    (hup : Store.Upserted (max (w.advance (cs 0).now).now (cs 1).now) (cs 1).id
      (cfg.env.hash (cs 0).salt u.password) (demoEntry cfg u) w.db db') :
    (seedDemoUser cfg u).run (exec cfg.env) cs w =
      (.ok (), { (w.advance (cs 0).now).advance (cs 1).now with db := db' }) := by
  rw [run_seedDemoUser (hcs 0) hseedable, exec_store_runs _ _ (hcs 1)]
  have hcommits : Store.Commits cfg.env _ (cs 1).pick (Store.upsertDemoUser _ (cs 1).id _ _ _ _)
      w.db () db' :=
    (Store.commits_upsertDemoUser (identifier_of_seedable hseedable)).mpr hup
  have hexec : (Store.Op.upsertDemoUser _ _ _ _).exec cfg.env _ (cs 1).id (cs 1).pick w.db =
      (.ok (), db') :=
    Store.exec_of_commits hcommits
  rw [show (w.advance (cs 0).now).db = w.db from rfl, hexec]

/-! ## Whole lists -/

/-- The first start: the list goes through, and every user passed the checks and has an account. -/
theorem seedAll_seeded {t₀ : Table UserRow} {us : List DemoUser} {log : List Placed}
    {cs : Nat → Choice} {w w' : World} (hseeded : Seeded t₀ log w.db.users)
    (hsteady : Steady t₀ (log.map Placed.entry ++ us.map (demoEntry cfg)))
    (h : (seedAll cfg us).run (exec cfg.env) cs w = (.ok (), w')) :
    (∀ u ∈ us, seedable cfg u = true) ∧ ∃ log', log'.map Placed.entry = us.map (demoEntry cfg) ∧
      Seeded t₀ (log ++ log') w'.db.users := by
  induction us generalizing log cs w with
  | nil =>
      cases h
      refine ⟨fun u hu => (List.not_mem_nil hu).elim, [], rfl, ?_⟩
      rw [List.append_nil]
      exact hseeded
  | cons u us ih =>
      have hbody : seedAll cfg (u :: us) = (seedDemoUser cfg u).bind fun _ => seedAll cfg us := rfl
      rw [hbody] at h
      cases hrun : (seedDemoUser cfg u).run (exec cfg.env) cs w with
      | mk res w₁ =>
          cases res with
          | error e =>
              rw [Program.run_bind_error hrun] at h
              cases h
          | ok v =>
              obtain ⟨n, hn⟩ := Program.run_bind_ok (f := fun _ => seedAll cfg us) hrun
              rw [hn] at h
              obtain ⟨hseedable, now, id, hash, hup⟩ := upserted_of_run hrun
              have hnamed := named_of_seedable hseedable
              obtain ⟨x, hx, hput⟩ := Entry.leaves_of_upserted hseeded.distinct hnamed hup
              -- the entries so far can be placed again after this one
              have huntaken :=
                (List.triplewise_append.1 hsteady.untaken).2.2.2 _ (List.mem_cons_self ..)
              have hkept : ∀ p ∈ log, strands t₀ p.entry (demoEntry cfg u) = false := fun p hp =>
                (List.pairwise_append.1 hsteady.kept).2.2 _ (List.mem_map_of_mem hp) _
                  (List.mem_cons_self ..)
              have hnext := seeded_put hseeded hnamed hx huntaken hkept
              rw [← hput] at hnext
              rw [List.map_cons, List.append_cons] at hsteady
              obtain ⟨hrest, log', hlog', hfinal⟩ :=
                ih hnext (by rw [List.map_append]; exact hsteady) h
              rw [← List.append_cons] at hfinal
              refine ⟨List.forall_mem_cons.2 ⟨hseedable, hrest⟩, _, ?_, hfinal⟩
              rw [List.map_cons, List.map_cons, hlog']

/-- The second start: every user finds the account of the first one. -/
theorem seedAll_again {t₀ t : Table UserRow} {log : List Placed} (hseeded : Seeded t₀ log t)
    {us : List DemoUser} {before rest : List Placed} (hlog : log = before ++ rest)
    (hrest : rest.map Placed.entry = us.map (demoEntry cfg))
    (hseedable : ∀ u ∈ us, seedable cfg u = true) {cs : Nat → Choice}
    (hcs : ∀ n, (cs n).fails = false) {w : World} (h : Reseeded t before w.db.users) :
    ∃ w', (seedAll cfg us).run (exec cfg.env) cs w = (.ok (), w') ∧
      Reseeded t log w'.db.users ∧ w'.db.outbox = w.db.outbox := by
  induction us generalizing before rest cs w with
  | nil =>
      rw [List.map_nil, List.map_eq_nil_iff] at hrest
      rw [hrest, List.append_nil] at hlog
      exact ⟨w, rfl, hlog ▸ h, rfl⟩
  | cons u us ih =>
      obtain ⟨p, rest, rfl, hp, hrest⟩ := List.map_eq_cons_iff.1 hrest
      obtain ⟨huser, hseedable⟩ := List.forall_mem_cons.1 hseedable
      obtain ⟨r, hr, hid, hsettled⟩ := hseeded.settled p (by simp [hlog])
      obtain ⟨r', hfind, hfree, hnext⟩ := reseeded_put (max (w.advance (cs 0).now).now (cs 1).now)
        (cfg.env.hash (cs 0).salt u.password) h (hp ▸ named_of_seedable huser) hr hid hsettled
        (hseeded.replays before p rest hlog)
      rw [hp] at hfind hfree hnext
      have hrun := run_of_upserted hcs huser (.inl ⟨r', hfind, hfree, rfl⟩)
      obtain ⟨n, hn⟩ := Program.run_bind_ok (f := fun _ => seedAll cfg us) hrun
      have hbody : seedAll cfg (u :: us) = (seedDemoUser cfg u).bind fun _ => seedAll cfg us := rfl
      rw [hbody, hn]
      rw [List.append_cons] at hlog
      exact ih hlog hrest hseedable (fun k => hcs (k + n)) hnext

end Seeding

/-! ## Starting twice -/

/-- The list that a start goes through. -/
def demoList (cfg : Config) : List DemoUser :=
  if cfg.demoMode then cfg.demoUsers else []

/-- A start is a pass over the list. -/
theorem perform_seedDemoUsers (cfg : Config) (cs : Nat → Choice) (w : World) :
    Call.seedDemoUsers.perform cfg cs w =
      ((seedAll cfg (demoList cfg)).bind fun _ => .done .none).run (exec cfg.env) cs w := by
  have hbody : seedDemoUsers cfg = seedAll cfg (demoList cfg) := by
    unfold seedDemoUsers demoList
    split <;> rfl
  rw [← hbody]
  rfl

theorem perform_of_seedAll {cfg : Config} {cs : Nat → Choice} {w w' : World}
    (h : (seedAll cfg (demoList cfg)).run (exec cfg.env) cs w = (.ok (), w')) :
    Call.seedDemoUsers.perform cfg cs w = (.ok .none, w') := by
  rw [perform_seedDemoUsers]
  obtain ⟨n, hn⟩ := Program.run_bind_ok (f := fun _ => .done Reply.none) h
  exact hn

theorem seedAll_of_perform {cfg : Config} {cs : Nat → Choice} {w : World}
    (h : (Call.seedDemoUsers.perform cfg cs w).1 = .ok .none) :
    (seedAll cfg (demoList cfg)).run (exec cfg.env) cs w =
      (.ok (), (Call.seedDemoUsers.perform cfg cs w).2) := by
  cases hrun : (seedAll cfg (demoList cfg)).run (exec cfg.env) cs w with
  | mk res w' =>
      cases res with
      | error e =>
          rw [perform_seedDemoUsers, Program.run_bind_error hrun] at h
          cases h
      | ok v => rw [perform_of_seedAll hrun]

/-- A second start gets through and leaves every account, no other and no event, if nobody takes
over a number from which an entry of the list moves an account. -/
theorem seeding_repeats (cfg : Config) (cs₁ cs₂ : Nat → Choice) (w₁ w₂ : World)
    (hint : w₁.db.Integrity) (hsteady : Steady w₁.db.users ((demoList cfg).map (demoEntry cfg)))
    (hfirst : (Call.seedDemoUsers.perform cfg cs₁ w₁).1 = .ok .none)
    (hdb : w₂.db = (Call.seedDemoUsers.perform cfg cs₁ w₁).2.db)
    (hruns : ∀ n, (cs₂ n).fails = false) :
    (Call.seedDemoUsers.perform cfg cs₂ w₂).1 = .ok .none ∧
      (∀ id, ((Call.seedDemoUsers.perform cfg cs₂ w₂).2.db.users.find? id).map account =
        (w₂.db.users.find? id).map account) ∧
      (Call.seedDemoUsers.perform cfg cs₂ w₂).2.db.outbox = w₂.db.outbox := by
  have hstart : Seeded w₁.db.users [] w₁.db.users := seeded_nil ⟨hint.email, hint.mobile⟩
  obtain ⟨hseedable, log, hlog, hseeded⟩ :=
    seedAll_seeded hstart hsteady (seedAll_of_perform hfirst)
  rw [← hdb, List.nil_append] at hseeded
  obtain ⟨w', hrun, hagain, houtbox⟩ :=
    seedAll_again hseeded (List.nil_append log).symm hlog hseedable hruns
      (reseeded_nil hseeded.distinct)
  rw [perform_of_seedAll hrun]
  refine ⟨rfl, fun id => ?_, houtbox⟩
  -- what the entries give last was there after the first start
  rw [hagain.accounts id]
  cases hfind : w₂.db.users.find? id with
  | none => rfl
  | some r => exact congrArg some (hseeded.fixed r (find?_eq_some.1 hfind).1)

/-! ## Three lists -/

def demoConfig (us : List DemoUser) : Config :=
  { toyConfig with demoMode := true, demoUsers := us }

/-- The `k`-th start of a service with these demo users. -/
def startDemo (us : List DemoUser) (k : Nat) (w : World) : Except Err Reply × World :=
  Call.seedDemoUsers.perform (demoConfig us)
  (fun n => { now := 1000 + k, id := Uuid.ofNat (100 * k + n) }) w

/-- One user by email, one by mobile and one with both, who is listed again under another name and
with another number. -/
def plainDemo : List DemoUser :=
  [⟨"ann@example.com", "", "one", "Ann"⟩, ⟨"", "+15550000002", "two", "Bob"⟩,
    ⟨"Cleo@example.com", "+15550000003", "three", "C."⟩,
    ⟨"cleo@example.com", "+15550000004", "three", "Cleo"⟩]

set_option maxRecDepth 10000 in
theorem seeding_repeats_plain :
    (startDemo plainDemo 2 (startDemo plainDemo 1 toyWorld).2).1 = .ok .none ∧
      (startDemo plainDemo 2 (startDemo plainDemo 1 toyWorld).2).2.db.outbox =
        (startDemo plainDemo 1 toyWorld).2.db.outbox ∧
      (startDemo plainDemo 1 toyWorld).2.db.outbox.length = 3 := by
  have hrepeats := seeding_repeats (demoConfig plainDemo)
    (fun n => { now := 1000 + 1, id := Uuid.ofNat (100 * 1 + n) })
    (fun n => { now := 1000 + 2, id := Uuid.ofNat (100 * 2 + n) }) toyWorld
      (startDemo plainDemo 1 toyWorld).2
    DB.integrity_empty (by decide +kernel) (by decide +kernel) rfl (fun _ => rfl)
  exact ⟨hrepeats.1, hrepeats.2.2, by decide +kernel⟩

/-- Ann's number changes in the middle of the list, and Bob gets the old one. -/
def reassigned : List DemoUser :=
  [⟨"ann@example.com", "+15550000001", "one", "Ann"⟩,
    ⟨"ann@example.com", "+15550000002", "one", "Ann"⟩,
    ⟨"bob@example.com", "+15550000001", "two", "Bob"⟩]

/-- What an earlier version of `numberFirst` listed. -/
def annOnly : List DemoUser :=
  [⟨"ann@example.com", "+15550000001", "one", "Ann"⟩]

/-- Ann's old number is listed by itself, before her new one. -/
def numberFirst : List DemoUser :=
  [⟨"", "+15550000001", "two", "Bob"⟩, ⟨"ann@example.com", "+15550000002", "one", "Ann"⟩]

set_option maxRecDepth 10000 in
/-- Two first starts get through.  In the second start of the one list Ann cannot get the old number
back from Bob; in that of the other, the old number has no account any more and a new one is created
and announced. -/
theorem mobile_moves_on :
    (startDemo reassigned 1 toyWorld).1 = .ok .none ∧
      (startDemo reassigned 2 (startDemo reassigned 1 toyWorld).2).1.isOk = false ∧
      (startDemo numberFirst 2 (startDemo annOnly 1 toyWorld).2).1 = .ok .none ∧
      (startDemo numberFirst 2 (startDemo annOnly 1 toyWorld).2).2.db.users.rows.length = 1 ∧
      (startDemo numberFirst 2 (startDemo annOnly 1 toyWorld).2).2.db.outbox.length = 1 ∧
      (startDemo numberFirst 3 (startDemo numberFirst 2
        (startDemo annOnly 1 toyWorld).2).2).2.db.users.rows.length = 2 ∧
      (startDemo numberFirst 3 (startDemo numberFirst 2
        (startDemo annOnly 1 toyWorld).2).2).2.db.outbox.length = 2 := by
  decide +kernel

end Service
end OrbitAuth
