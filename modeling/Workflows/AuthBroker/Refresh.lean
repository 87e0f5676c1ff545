import Workflows.AuthCore.Oidc
import Workflows.Foundations.Execution

/-!
# The broker's token refresh

`get_or_refresh_token` with the task that prunes its locks, as a step function. A call is at one of
its await points, and one action moves one call, the clock, the cache or the pruning task. The
answers of the database and of the identity provider are part of the action.
-/

namespace Workflows.AuthBroker

open AuthCore

def tokenGracePeriodSecs : Int := 30

/-- An access token with the number of the exchange that issued it, which the code does not keep. -/
structure AccessToken where
  secret : String
  exchange : Nat
  deriving DecidableEq

structure CachedToken where
  accessToken : AccessToken
  expiresAt : Int
  refreshToken : String
  issuer : String
  subject : String
  deriving DecidableEq

/-- The await points of `get_or_refresh_token`, from `waiting` on with the mutex it cloned. -/
inductive Phase where
  | lookup
  | entry
  | waiting (lock : Nat)
  | relookup (lock : Nat)
  | reading (lock : Nat)
  | exchanging (lock : Nat) (stored : StoredToken) (exchange : Nat)
  | writing (lock : Nat) (cached : CachedToken)
  | inserting (lock : Nat) (cached : CachedToken)
  | done (result : Option AccessToken)
  deriving DecidableEq

def Phase.held : Phase → Option Nat
  | .relookup lock => some lock
  | .reading lock => some lock
  | .exchanging lock _ _ => some lock
  | .writing lock _ => some lock
  | .inserting lock _ => some lock
  | _ => none

def Phase.waitingFor : Phase → Option Nat
  | .waiting lock => some lock
  | _ => none

structure Call where
  subject : String
  phase : Phase
  deriving DecidableEq

inductive Outcome where
  | pending
  | failed
  | succeeded (response : TokenResponse)
  deriving DecidableEq

/-- An exchange at the identity provider, with the token read from the database for it. -/
structure Exchange where
  stored : StoredToken
  outcome : Outcome
  deriving DecidableEq

inductive Cleanup where
  | sleeping
  | scanning (stale : List String)
  | removing (stale : List String)
  deriving DecidableEq

/-- The subject whose lock the task removes next. -/
def Cleanup.next : Cleanup → Option String
  | .removing (subject :: _) => some subject
  | _ => none

structure State where
  now : Int
  database : Database
  tokenCache : String → Option CachedToken
  refreshLocks : String → Option Nat
  nextLock : Nat
  calls : Nat → Option Call
  nextCall : Nat
  exchanges : Nat → Option Exchange
  nextExchange : Nat
  cleanup : Cleanup

def State.init (database : Database) (now : Int) : State where
  now := now
  database := database
  tokenCache := fun _ => none
  refreshLocks := fun _ => none
  nextLock := 0
  calls := fun _ => none
  nextCall := 0
  exchanges := fun _ => none
  nextExchange := 0
  cleanup := .sleeping

inductive Action where
  | advance (seconds : Nat)
  | start (subject : String)
  | lookup (call : Nat)
  | takeEntry (call : Nat)
  | acquire (call : Nat)
  | relookup (call : Nat)
  /-- The database answers the read, and the exchange is sent if it gave a token. -/
  | read (call : Nat) (ok : Bool)
  | respond (call : Nat) (answer : Option TokenResponse)
  | write (call : Nat) (ok : Bool)
  | insert (call : Nat)
  /-- The cache drops an entry, expired or not. -/
  | evict (subject : String)
  | wake
  | inspect (subject : String)
  | endScan
  | removeLock
  deriving DecidableEq

namespace State

def setPhase (s : State) (i : Nat) (subject : String) (phase : Phase) : State :=
  { s with calls := Function.update s.calls i (some { subject, phase }) }

def setExchange (s : State) (e : Nat) (x : Exchange) : State :=
  { s with exchanges := Function.update s.exchanges e (some x) }

@[simp] theorem setPhase_calls_self (s : State) (i : Nat) (subject : String) (phase : Phase) :
    (s.setPhase i subject phase).calls i = some ⟨subject, phase⟩ :=
  Function.update_self ..

theorem setPhase_calls_of_ne (s : State) {i j : Nat} (h : j ≠ i) (subject : String)
    (phase : Phase) :
    (s.setPhase i subject phase).calls j = s.calls j :=
  Function.update_of_ne h ..

@[simp] theorem setExchange_exchanges_self (s : State) (e : Nat) (x : Exchange) :
    (s.setExchange e x).exchanges e = some x :=
  Function.update_self ..

theorem setExchange_exchanges_of_ne (s : State) {e f : Nat} (h : f ≠ e) (x : Exchange) :
    (s.setExchange e x).exchanges f = s.exchanges f :=
  Function.update_of_ne h ..

/-- The cached token, if it outlives the grace period. -/
def cachedToken (s : State) (subject : String) : Option AccessToken :=
  (s.tokenCache subject).bind fun token =>
    if token.expiresAt > s.now + tokenGracePeriodSecs then some token.accessToken else none

def IsFree (s : State) (lock : Nat) : Prop :=
  ∀ i < s.nextCall, ∀ c ∈ s.calls i, c.phase.held ≠ some lock

instance (s : State) (lock : Nat) : Decidable (s.IsFree lock) := by
  unfold IsFree
  infer_instance

end State

section Step

variable (crates : Crates)

def afterResponse (now : Int) (lock : Nat) (stored : StoredToken) (exchange : Nat) (subject : String)
    (response : TokenResponse) : Phase :=
  match crates.addDuration now (response.expiresIn.getD defaultTokenExpirySecs) with
  | none => .done none
  | some expiresAt =>
    if crates.issuerUrl stored.issuer then
      let cached : CachedToken :=
        { accessToken := { secret := response.accessToken, exchange }
          expiresAt
          refreshToken := response.refreshToken.getD stored.refreshTokenSecret
          issuer := stored.issuer
          subject }
      if response.refreshToken.isSome then .writing lock cached else .inserting lock cached
    else .done none

def CachedToken.refreshTokenInfo (token : CachedToken) : RefreshTokenInfo where
  refreshTokenSecret := token.refreshToken
  issuer := token.issuer
  subject := token.subject

def step (s : State) : Action → Option State
  | .advance seconds => some { s with now := s.now + seconds }
  | .start subject =>
    some { s.setPhase s.nextCall subject .lookup with nextCall := s.nextCall + 1 }
  | .lookup i =>
    match s.calls i with
    | some ⟨subject, .lookup⟩ =>
      match s.cachedToken subject with
      | some token => some (s.setPhase i subject (.done (some token)))
      | none => some (s.setPhase i subject .entry)
    | _ => none
  | .takeEntry i =>
    match s.calls i with
    | some ⟨subject, .entry⟩ =>
      match s.refreshLocks subject with
      | some lock => some (s.setPhase i subject (.waiting lock))
      | none =>
        some { s.setPhase i subject (.waiting s.nextLock) with
          refreshLocks := Function.update s.refreshLocks subject (some s.nextLock)
          nextLock := s.nextLock + 1 }
    | _ => none
  | .acquire i =>
    match s.calls i with
    | some ⟨subject, .waiting lock⟩ =>
      if s.IsFree lock then some (s.setPhase i subject (.relookup lock)) else none
    | _ => none
  | .relookup i =>
    match s.calls i with
    | some ⟨subject, .relookup lock⟩ =>
      match s.cachedToken subject with
      | some token => some (s.setPhase i subject (.done (some token)))
      | none => some (s.setPhase i subject (.reading lock))
    | _ => none
  | .read i ok =>
    match s.calls i with
    | some ⟨subject, .reading lock⟩ =>
      match ok, readTokenFromDatabase s.database subject none s.now with
      | true, .ok stored =>
        some { (s.setPhase i subject (.exchanging lock stored s.nextExchange)).setExchange
            s.nextExchange { stored, outcome := .pending } with
          nextExchange := s.nextExchange + 1 }
      | _, _ => some (s.setPhase i subject (.done none))
    | _ => none
  | .respond i answer =>
    match s.calls i with
    | some ⟨subject, .exchanging lock stored exchange⟩ =>
      match answer with
      | none =>
        some ((s.setPhase i subject (.done none)).setExchange exchange
          { stored, outcome := .failed })
      | some response =>
        some ((s.setPhase i subject
          (afterResponse crates s.now lock stored exchange subject response)).setExchange exchange
            { stored, outcome := .succeeded response })
    | _ => none
  | .write i ok =>
    match s.calls i with
    | some ⟨subject, .writing lock cached⟩ =>
      if ok then
        some { s.setPhase i subject (.inserting lock cached) with
          database := writeTokenToDatabase s.database cached.refreshTokenInfo s.now }
      else some (s.setPhase i subject (.done none))
    | _ => none
  | .insert i =>
    match s.calls i with
    | some ⟨subject, .inserting _ cached⟩ =>
      -- the guard is dropped when the call returns, so after the insert
      some { s.setPhase i subject (.done (some cached.accessToken)) with
        tokenCache := Function.update s.tokenCache subject (some cached) }
    | _ => none
  | .evict subject =>
    some { s with tokenCache := Function.update s.tokenCache subject none }
  | .wake =>
    match s.cleanup with
    | .sleeping => some { s with cleanup := .scanning [] }
    | _ => none
  | .inspect subject =>
    match s.cleanup with
    | .scanning stale =>
      if (s.refreshLocks subject).isSome then
        -- only the token cache is asked; the mutex may be held or awaited
        if (s.tokenCache subject).isNone then
          some { s with cleanup := .scanning (stale ++ [subject]) }
        else some s
      else none
    | _ => none
  | .endScan =>
    match s.cleanup with
    | .scanning stale => some { s with cleanup := .removing stale }
    | _ => none
  | .removeLock =>
    match s.cleanup with
    | .removing (subject :: stale) =>
      some { s with
        refreshLocks := Function.update s.refreshLocks subject none
        cleanup := .removing stale }
    | .removing [] => some { s with cleanup := .sleeping }
    | _ => none

end Step

end Workflows.AuthBroker
