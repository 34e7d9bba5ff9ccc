import Mathlib.Data.Set.Insert
import Mathlib.Logic.Function.Basic
import OrbitAuth.Domain.Entities

/-!
# Spec — the organization directory, without a database

What the organization part of the service is for, said without tables, locks or SQL: accounts,
organizations, who belongs to which with which status, and invitations by link.

* `Command` — the ways to change the directory;
* `Guard` and `effect` — when a command is possible and what it does;
* `performAll` — commands one after the other, those that are not possible refused.

`Directory.Refinement` shows that the store is a directory in this sense.
-/

namespace OrbitAuth
namespace Directory

open Domain

variable {O U I A L : Type}

/-- An invitation: to whom, to which organization, under which link, and what has become of it. -/
structure Ticket (O A L : Type) where
  org : O
  address : A
  link : L
  state : InviteStatus

@[ext]
structure State (O U I A L : Type) where
  accounts : Set U
  orgs : Set O
  member : O → U → Option MembershipStatus
  ticket : I → Option (Ticket O A L)

inductive Command (O U I A L : Type)
  | found (o : O) (u : U)
  | add (o : O) (u : U) (status : MembershipStatus)
  | restatus (o : O) (u : U) (status : MembershipStatus)
  | remove (o : O) (u : U)
  | invite (i : I) (o : O) (inviter : U) (address : A) (link : L) (state : InviteStatus)
  | withdraw (i : I) (o : O)
  /-- Somebody uses an invitation; a suspended member cannot. -/
  | accept (i : I) (o : O) (u : U)
  deriving DecidableEq

namespace State

variable (d : State O U I A L)

/-- Somebody besides `u` is active. -/
def AnotherActive (o : O) (u : U) : Prop :=
  ∃ u', u' ≠ u ∧ d.member o u' = some .active

/-- The invitation is open. -/
def Pending (i : I) (o : O) : Prop :=
  ∃ t, d.ticket i = some t ∧ t.org = o ∧ t.state = .pending

/-- `u` has a membership or could have one. -/
def Admissible (o : O) (u : U) : Prop :=
  d.member o u = none → o ∈ d.orgs ∧ u ∈ d.accounts

def Guard : Command O U I A L → Prop
  | .found o u => o ∉ d.orgs ∧ u ∈ d.accounts
  | .add o u _ => o ∈ d.orgs ∧ d.Admissible o u
  | .restatus o u status => ∃ current, d.member o u = some current ∧
      (status ≠ .active → current = .active → d.AnotherActive o u)
  | .remove o u =>
      ∃ current, d.member o u = some current ∧ (current = .active → d.AnotherActive o u)
  | .invite i o inviter _ link _ => o ∈ d.orgs ∧ inviter ∈ d.accounts ∧ d.ticket i = none ∧
      ∀ j t, d.ticket j = some t → t.link ≠ link
  | .withdraw i o => d.Pending i o
  | .accept i o u => d.Pending i o ∧ d.member o u ≠ some .suspended ∧ d.Admissible o u

end State

open Classical in
/-- The status of one member set. -/
noncomputable def setMember (member : O → U → Option MembershipStatus) (o : O) (u : U)
    (status : Option MembershipStatus) : O → U → Option MembershipStatus :=
  fun o' u' => if o' = o ∧ u' = u then status else member o' u'

open Classical in
/-- One invitation ended. -/
noncomputable def endTicket (ticket : I → Option (Ticket O A L)) (i : I) (state : InviteStatus) :
    I → Option (Ticket O A L) :=
  fun j => if j = i then (ticket j).map ({ · with state := state }) else ticket j

/-- Who uses an invitation becomes active, unless they are suspended. -/
def admitted : Option MembershipStatus → Option MembershipStatus
  | none => some .active
  | some .invited => some .active
  | some status => some status

open Classical in
/-- The open invitations of an address to an organization, withdrawn. -/
noncomputable def supersede (ticket : I → Option (Ticket O A L)) (o : O) (address : A) :
    I → Option (Ticket O A L) :=
  fun j => (ticket j).map fun t =>
    if t.org = o ∧ t.address = address ∧ t.state = .pending then { t with state := .revoked } else t

namespace State

variable (d : State O U I A L)

open Classical in
noncomputable def effect : Command O U I A L → State O U I A L
  | .found o u => { d with
      orgs := insert o d.orgs
      member := setMember d.member o u (some .active) }
  | .add o u status => { d with member := setMember d.member o u ((d.member o u).or (some status)) }
  | .restatus o u status => { d with member := setMember d.member o u (some status) }
  | .remove o u => { d with member := setMember d.member o u none }
  | .invite i o _ address link state => { d with
      ticket := fun j => if j = i then some ⟨o, address, link, state⟩ else supersede
        d.ticket o address j }
  | .withdraw i _ => { d with ticket := endTicket d.ticket i .revoked }
  | .accept i o u => { d with
      ticket := endTicket d.ticket i .accepted
      member := setMember d.member o u (admitted (d.member o u)) }

open Classical in
/-- A command is carried out if it is possible, and otherwise nothing happens. -/
noncomputable def perform (c : Command O U I A L) : State O U I A L :=
  if d.Guard c then d.effect c else d

noncomputable def performAll (cs : List (Command O U I A L)) : State O U I A L :=
  cs.foldl perform d

end State

end Directory
end OrbitAuth
