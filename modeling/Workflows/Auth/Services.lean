import Workflows.AuthCore.InjectToken
import Workflows.AuthBroker.Steps

/-!
# Gateway, daemons and broker on one database

The four ways in which a row of `oidc_tokens` changes: a login callback and the refreshes of the
three services write it, a logout deletes it. Requests to the gateway and to the daemons are at an
await point of `inject_token_with`, and the session of a gateway request is saved after its
response unless that is a server error.
-/

namespace Workflows.Auth

open AuthCore

/-- Where `inject_token_with` finds its token. -/
inductive Store where
  | session (id : Nat)
  | daemon (id : Nat)
  deriving DecidableEq

def Store.service : Store → Service
  | .session _ => .gateway
  | .daemon _ => .daemon

structure Request where
  store : Store
  phase : RequestPhase
  deriving DecidableEq

inductive Logout where
  | loading (session : Nat)
  | deleting (session : Nat) (subject : String)
  | flushing (session : Nat)
  | done
  deriving DecidableEq

structure State where
  broker : AuthBroker.State
  sessions : Nat → Option TokenData
  daemons : Nat → Option TokenData
  nextDaemon : Nat
  requests : Nat → Option Request
  nextRequest : Nat
  logouts : Nat → Option Logout
  nextLogout : Nat

def State.init (database : Database) (now : Int) : State where
  broker := .init database now
  sessions := fun _ => none
  daemons := fun _ => none
  nextDaemon := 0
  requests := fun _ => none
  nextRequest := 0
  logouts := fun _ => none
  nextLogout := 0

inductive Action where
  | broker (action : AuthBroker.Action)
  /-- A login stores its token in the database and, unless that fails, in the session. -/
  | callback (session : Nat) (token : TokenData) (saved : Bool)
  | expireSession (session : Nat)
  | startDaemon (subject : String)
  | stopDaemon (daemon : Nat)
  | arrive (store : Store)
  | request (i : Nat) (event : Event)
  | saveSession (i : Nat)
  | logout (session : Nat)
  | findToken (i : Nat) (ok : Bool)
  | deleteRow (i : Nat) (ok : Bool)
  | flush (i : Nat)
  deriving DecidableEq

namespace State

def database (s : State) : Database := s.broker.database

def setDatabase (s : State) (database : Database) : State :=
  { s with broker := { s.broker with database } }

def setRequest (s : State) (i : Nat) (request : Request) : State :=
  { s with requests := Function.update s.requests i (some request) }

def setLogout (s : State) (i : Nat) (logout : Logout) : State :=
  { s with logouts := Function.update s.logouts i (some logout) }

/-- The requests to a daemon end with it. -/
def endRequests (s : State) (store : Store) : State :=
  { s with requests := fun i => (s.requests i).filter fun request => request.store != store }

def loadToken (s : State) : Store → Bool → Option TokenData
  | .session n, true => s.sessions n
  | .session _, false => none
  | .daemon d, _ => s.daemons d

def write (s : State) : Option TokenData → State
  | some token =>
    s.setDatabase (writeTokenToDatabase s.database token.refreshTokenInfo s.broker.now)
  | none => s

/-- A session keeps the token with its request until the response. -/
def store (s : State) (store : Store) : Option TokenData → State
  | none => s
  | some token =>
    match store with
    | .session _ => s
    | .daemon d => { s with daemons := Function.update s.daemons d (some token) }

section Fields

variable (s : State) (i : Nat) (request : Request) (store : Store) (token : Option TokenData)

@[simp] theorem requests_setRequest_self : (s.setRequest i request).requests i = some request :=
  Function.update_self ..

theorem requests_setRequest_of_ne {j : Nat} (h : j ≠ i) :
    (s.setRequest i request).requests j = s.requests j :=
  Function.update_of_ne h ..

@[simp] theorem broker_setRequest : (s.setRequest i request).broker = s.broker := rfl

@[simp] theorem sessions_setRequest : (s.setRequest i request).sessions = s.sessions := rfl

@[simp] theorem daemons_setRequest : (s.setRequest i request).daemons = s.daemons := rfl

@[simp] theorem write_none : s.write none = s := rfl

@[simp] theorem sessions_write : (s.write token).sessions = s.sessions := by cases token <;> rfl

@[simp] theorem daemons_write : (s.write token).daemons = s.daemons := by cases token <;> rfl

@[simp] theorem requests_write : (s.write token).requests = s.requests := by cases token <;> rfl

@[simp] theorem calls_write : (s.write token).broker.calls = s.broker.calls := by
  cases token <;> rfl

@[simp] theorem store_none : s.store store none = s := rfl

@[simp] theorem broker_store : (s.store store token).broker = s.broker := by
  cases store <;> cases token <;> rfl

@[simp] theorem sessions_store : (s.store store token).sessions = s.sessions := by
  cases store <;> cases token <;> rfl

@[simp] theorem requests_store : (s.store store token).requests = s.requests := by
  cases store <;> cases token <;> rfl

theorem database_write_self (token : TokenData) :
    (s.write (some token)).broker.database token.subject ≠ none := by
  simp [write, setDatabase, writeTokenToDatabase, TokenData.refreshTokenInfo]

theorem database_write_of_ne {token : TokenData} {subject : String} (h : token.subject ≠ subject) :
    (s.write (some token)).broker.database subject = s.broker.database subject := by
  simp [write, setDatabase, database, writeTokenToDatabase, TokenData.refreshTokenInfo, h.symm]

end Fields

end State

section Step

variable (crates : Crates)

def step (s : State) : Action → Option State
  | .broker a => (AuthBroker.step crates s.broker a).map fun broker => { s with broker }
  | .callback n token saved =>
    let written := s.write (some token)
    some (if saved then { written with sessions := Function.update s.sessions n (some token) }
      else written)
  | .expireSession n => some { s with sessions := Function.update s.sessions n none }
  | .startDaemon subject =>
    match readTokenFromDatabase s.database subject none s.broker.now with
    | .error _ => none
    | .ok row =>
      if crates.issuerUrl row.issuer then
        some { s with
          daemons := Function.update s.daemons s.nextDaemon
            (some { issuer := row.issuer, subject := row.subject, accessToken := none,
                    accessTokenExpiresAt := s.broker.now, refreshToken := row.refreshTokenSecret })
          nextDaemon := s.nextDaemon + 1 }
      else none
  | .stopDaemon d =>
    some { s.endRequests (.daemon d) with daemons := Function.update s.daemons d none }
  | .arrive store =>
    some { s.setRequest s.nextRequest ⟨store, .loading⟩ with nextRequest := s.nextRequest + 1 }
  | .request i event =>
    match s.requests i with
    | some ⟨store, phase⟩ =>
      (phase.next crates store.service s.broker.now (s.loadToken store) event).map fun next =>
        ((s.write (phase.written event)).store store (phase.stored event)).setRequest i
          ⟨store, next⟩
    | none => none
  | .saveSession i =>
    match s.requests i with
    | some ⟨.session n, .responded status (some token)⟩ =>
      if status < 500 then
        some { s.setRequest i ⟨.session n, .responded status none⟩ with
          sessions := Function.update s.sessions n (some token) }
      else none
    | _ => none
  | .logout n =>
    some { s.setLogout s.nextLogout (.loading n) with nextLogout := s.nextLogout + 1 }
  | .findToken i ok =>
    match s.logouts i with
    | some (.loading n) =>
      if ok then
        match s.sessions n with
        | some token => some (s.setLogout i (.deleting n token.subject))
        | none => some (s.setLogout i (.flushing n))
      else some (s.setLogout i .done)
    | _ => none
  | .deleteRow i ok =>
    match s.logouts i with
    | some (.deleting n subject) =>
      if ok then
        some ((s.setDatabase (deleteTokenFromDatabase s.database subject)).setLogout i
          (.flushing n))
      else some (s.setLogout i .done)
    | _ => none
  | .flush i =>
    match s.logouts i with
    | some (.flushing n) =>
      some { s.setLogout i .done with sessions := Function.update s.sessions n none }
    | _ => none

end Step

end Workflows.Auth
