import Workflows.AuthCore.Oidc

/-!
# The token-injecting middleware

`inject_token_with` as the sequence of its await points, for the gateway, whose store is the
session of the request, and for the daemon, whose store is its memory.
-/

namespace Workflows.AuthCore

inductive Service where
  | gateway
  | daemon
  deriving DecidableEq

/-- An upstream response, with the number of GraphQL errors where its body lists any. -/
structure Response where
  status : Nat
  errors : Option Nat
  deriving DecidableEq

namespace Service

def isExpired : Service → TokenData → Int → Bool
  | .gateway, token, now => token.accessTokenExpiresAt ≤ now
  | .daemon, token, now => token.accessTokenExpiresAt ≤ now || token.accessToken.isNone

def shouldRetry : Service → Response → Bool
  | .gateway, response => response.status == 401
  | .daemon, response =>
    if 200 ≤ response.status ∧ response.status < 300 then
      match response.errors with
      | some n => n != 0
      | none => false
    else true

end Service

/-- Where a request stands: `retry` is false before the first answer, `refreshed` tells whether the
token was saved in this request, and a response carries the token to keep in the session. -/
inductive RequestPhase where
  | loading
  | exchanging (token : TokenData) (retry : Bool)
  | writing (token : TokenData) (retry : Bool)
  | saving (token : TokenData) (retry : Bool)
  | forwarding (token : TokenData) (refreshed retry : Bool)
  | responded (status : Nat) (saved : Option TokenData)
  deriving DecidableEq

inductive Event where
  | load (ok : Bool)
  | exchange (answer : Option TokenResponse)
  | write (ok : Bool)
  | save (ok : Bool)
  /-- The upstream answers, with a body that can be read to its end or not. -/
  | respond (response : Response) (complete : Bool)
  deriving DecidableEq

namespace RequestPhase

def error : RequestPhase := .responded 500 none

section Next

variable (crates : Crates) (service : Service) (now : Int)

def afterLoad : Option TokenData → RequestPhase
  | none => .responded 401 none
  | some token =>
    if service.isExpired token now then .exchanging token false else .forwarding token false false

def afterExchange (token : TokenData) (retry : Bool) : Option TokenResponse → RequestPhase
  | none => error
  | some response =>
    match token.updateTokens crates response now with
    | some new => .writing new retry
    | none => error

/-- Only the first answer is read before it is passed on. -/
def afterForward (token : TokenData) (refreshed retry : Bool) (response : Response)
    (complete : Bool) : RequestPhase :=
  if !retry && !complete then error
  else if !retry && service.shouldRetry response then .exchanging token true
  else .responded response.status (if refreshed then some token else none)

def next (loadToken : Bool → Option TokenData) : RequestPhase → Event → Option RequestPhase
  | .loading, .load ok => some (afterLoad service now (loadToken ok))
  | .exchanging token retry, .exchange answer => some (afterExchange crates now token retry answer)
  | .writing token retry, .write ok => some (if ok then .saving token retry else error)
  | .saving token retry, .save ok => some (if ok then .forwarding token true retry else error)
  | .forwarding token refreshed retry, .respond response complete =>
    some (afterForward service token refreshed retry response complete)
  | _, _ => none

end Next

def written : RequestPhase → Event → Option TokenData
  | .writing token _, .write true => some token
  | _, _ => none

def stored : RequestPhase → Event → Option TokenData
  | .saving token _, .save true => some token
  | _, _ => none

end RequestPhase

end Workflows.AuthCore
