import OrbitAuth.Postgres.Atomic
import OrbitAuth.Token.Claims

/-!
# Ports — what a service call can ask for

The application service reaches the world through its ports: the clock, the generators, the
hasher, the signer, the feature flags, the notifier and the store.  A use case is a program over
these operations; each of them is one atomic step.

`exec` answers an operation.  What the environment decides — the passing of time, drawn
identifiers, codes and secrets, salts, flag values, which of several equally good rows a query
returns, and whether a dependency fails — is collected in a `Choice`.
-/

namespace OrbitAuth
namespace Service

open Domain Foundations Postgres Token

/-! ## Operations -/

inductive Notification
  | otp (channel identifier code correlationID : String)
  | signupVerification (email code : String) (ttlMinutes : Nat) (locale correlationID : String)
  | orgInvite (n : InviteNotification)
  deriving DecidableEq

inductive Port
  | now
  | newID
  | newCode
  | newSecret
  | hash (secret : String)
  | sign (subject orgID : String) (expires : Time)
  | flag (name : String)
  | send (n : Notification)
  | store (o : Store.Op)

@[reducible] def Port.Ans : Port → Type
  | .now => Time
  | .newID => String
  | .newCode | .newSecret | .hash _ => Except Err String
  | .sign _ _ _ => Except Err SignedToken
  | .flag _ => Bool
  | .send _ => Except Err Unit
  | .store o => Except Err o.Val

@[reducible] def ports : Signature where
  Op := Port
  Ans := Port.Ans

abbrev Action (α : Type) := Program ports Err α

/-! ## Worlds -/

/-- The database, the clock, the access tokens signed and the notifications sent so far. -/
structure World where
  now : Time
  db : DB
  issued : List SignedToken
  sent : List Notification

structure Choice where
  now : Time := 0
  fails : Bool := false
  pick : Nat := 0
  id : Uuid := Uuid.ofNat 0
  code : String := ""
  secret : String := ""
  salt : Nat := 0
  flag : Bool := false

instance : Inhabited Choice :=
  ⟨{}⟩

namespace World

def empty : World where
  now := 0
  db := DB.empty
  issued := []
  sent := []

/-- Time does not run backwards. -/
def advance (w : World) (t : Time) : World :=
  { w with now := max w.now t }

@[simp] theorem advance_db (w : World) (t : Time) : (w.advance t).db = w.db := rfl
@[simp] theorem advance_issued (w : World) (t : Time) : (w.advance t).issued = w.issued := rfl
@[simp] theorem advance_sent (w : World) (t : Time) : (w.advance t).sent = w.sent := rfl

end World

/-! ## Answers -/

/-- A fallible dependency. -/
def attempt {α : Type} (c : Choice) (a : Except Err α) : Except Err α :=
  if c.fails then .error .dependency else a

/-- A failing call is an error and leaves the database alone. -/
def execStore (env : Env) (o : Store.Op) (c : Choice) (w : World) : Except Err o.Val × World :=
  if c.fails then (.error .dependency, w)
  else
    let res := o.exec env w.now c.id c.pick w.db
    (res.1, { w with db := res.2 })

def execSign (env : Env) (subject orgID : String) (expires : Time) (c : Choice) (w : World) :
    Except Err SignedToken × World :=
  match attempt c (signAccessTokenWithOrg env.keyID subject orgID expires w.now) with
  | .ok t => (.ok t, { w with issued := w.issued ++ [t] })
  | .error e => (.error e, w)

def execSend (n : Notification) (c : Choice) (w : World) : Except Err Unit × World :=
  match attempt c (.ok ()) with
  | .ok _ => (.ok (), { w with sent := w.sent ++ [n] })
  | .error e => (.error e, w)

/-- One operation at the world's current instant. -/
def answer (env : Env) : (o : Port) → Choice → World → o.Ans × World
  | .now, _, w => (w.now, w)
  | .newID, c, w => (c.id.string, w)
  | .newCode, c, w => (attempt c (.ok c.code), w)
  | .newSecret, c, w => (attempt c (.ok c.secret), w)
  | .hash secret, c, w => (attempt c (.ok (env.hash c.salt secret)), w)
  | .sign subject orgID expires, c, w => execSign env subject orgID expires c w
  | .flag _, c, w => (c.flag, w)
  | .send n, c, w => execSend n c w
  | .store o, c, w => execStore env o c w

def exec (env : Env) (o : Port) (c : Choice) (w : World) : o.Ans × World :=
  answer env o c (w.advance c.now)

/-! ## Vocabulary of the use cases -/

section Vocabulary

variable {α : Type}

def now : Action Time :=
  .call .now .done

def newID : Action String :=
  .call .newID .done

def flag (name : String) : Action Bool :=
  .call (.flag name) .done

/-- `if err != nil { return err }`. -/
def orReturn : Except Err α → Action α
  | .ok a => .done a
  | .error e => .fail e

def newCode : Action String :=
  .call .newCode orReturn

def newSecret : Action String :=
  .call .newSecret orReturn

def hash (secret : String) : Action String :=
  .call (.hash secret) orReturn

def sign (subject orgID : String) (expires : Time) : Action SignedToken :=
  .call (.sign subject orgID expires) orReturn

/-- The raw answer of a notification or a store call. -/
def trySend (n : Notification) : Action (Except Err Unit) :=
  .call (.send n) .done

def send (n : Notification) : Action Unit :=
  .call (.send n) orReturn

def tryStore (o : Store.Op) : Action (Except Err o.Val) :=
  .call (.store o) .done

def store (o : Store.Op) : Action o.Val :=
  .call (.store o) orReturn

/-- A store call whose errors are all reported as `e`. -/
def storeOr (e : Err) (o : Store.Op) : Action o.Val :=
  .call (.store o) fun
    | .ok v => .done v
    | .error _ => .fail e

/-- `_ = store(…)`. -/
def ignore (o : Store.Op) : Action Unit :=
  .call (.store o) fun _ => .done ()

/-- A store call that reports `sentinel` as `generic` and every other error as it is. -/
def storeMapping (sentinel generic : Err) (o : Store.Op) : Action o.Val :=
  .call (.store o) fun
    | .ok v => .done v
    | .error e => .fail (if e = sentinel then generic else e)

def failIf (c : Bool) (e : Err) : Action Unit :=
  if c then .fail e else .done ()

end Vocabulary

end Service
end OrbitAuth
