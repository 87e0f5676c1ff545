import Workflows.Foundations.Decimal
import Workflows.Foundations.Execution
import Workflows.Foundations.Regex
import Mathlib.Logic.Function.Basic

/-!
# Login and callback of the gateway

`login` keeps in the session where the browser asked to go after the login, if one of the patterns
of `cors_allow` finds itself in it; `callback` sends the browser there, or to the default URL. What
the callback does in between (the exchange of the code, the checks of the ID token, the database
write and the save of the session) is an input that succeeds or fails.
-/

namespace Workflows.Auth

section Patterns

open Regex

def isLabelChar (c : Char) : Bool := c.isAlphanum || c = '-'

/-- `([a-zA-Z0-9\-]+\.)*diamond\.ac\.uk` -/
def diamondHost : Regex Char :=
  .seq (.star (.seq (plus (.cls isLabelChar)) (.cls (· = '.')))) (word "diamond.ac.uk".toList)

/-- `^https:\/\/([a-zA-Z0-9\-]+\.)*diamond\.ac\.uk\/?` -/
def diamondPattern : Regex Char :=
  .seq (word "https://".toList) (.seq diamondHost (opt (.cls (· = '/'))))

/-- `^https?:\/\/localhost(:\d+)?\/?` -/
def localhostPattern (decimal : Decimal.DecimalNumber) : Regex Char :=
  .seq (word "http".toList) <| .seq (opt (.cls (· = 's'))) <| .seq (word "://localhost".toList) <|
    .seq (opt (.seq (.cls (· = ':')) (plus (.cls decimal.isDecimal)))) (opt (.cls (· = '/')))

def corsAllow (decimal : Decimal.DecimalNumber) : List (Regex Char) :=
  [diamondPattern, localhostPattern decimal]

end Patterns

structure GatewayConfig where
  callbackDefaultReturnToUrl : String
  corsAllow : Option (List (Regex Char))

structure LoginSessionData where
  csrfToken : String
  pkceVerifier : String
  nonce : String
  returnToUrl : Option String
  deriving DecidableEq

def validateReturnTo (corsAllow : Option (List (Regex Char))) (returnTo : Option String) :
    Option String :=
  match returnTo, corsAllow with
  | none, _ => none
  | some _, none => none
  | some returnTo, some corsAllow =>
    if corsAllow.any (·.matchesPrefix returnTo.toList) then some returnTo else none

/-- The random values of one login. -/
structure Challenge where
  csrfToken : String
  pkceVerifier : String
  nonce : String
  deriving DecidableEq

def login (config : GatewayConfig) (challenge : Challenge) (returnTo : Option String) :
    LoginSessionData where
  csrfToken := challenge.csrfToken
  pkceVerifier := challenge.pkceVerifier
  nonce := challenge.nonce
  returnToUrl := validateReturnTo config.corsAllow returnTo

def callback (config : GatewayConfig) (authSessionData : Option LoginSessionData) (state : String)
    (completed : Except String Unit) : Except String String :=
  match authSessionData with
  | none => .error "session expired"
  | some data =>
    if data.csrfToken ≠ state then .error "invalid state"
    else completed.map fun _ => data.returnToUrl.getD config.callbackDefaultReturnToUrl

/-- The login data of the sessions, and the URLs to which callbacks have redirected so far. -/
structure Logins where
  pending : Nat → Option LoginSessionData
  redirects : List String

def Logins.init : Logins where
  pending := fun _ => none
  redirects := []

inductive LoginAction where
  | login (session : Nat) (challenge : Challenge) (returnTo : Option String)
  | callback (session : Nat) (state : String) (completed : Except String Unit)
  | expire (session : Nat)

section Step

variable (config : GatewayConfig) (headerValue : String → Bool)

/-- `Redirect::temporary` answers with an error where the URL is no header value. A callback that
fails leaves the stored session as it is. -/
def loginStep (s : Logins) : LoginAction → Option Logins
  | .login n challenge returnTo =>
    some { s with
      pending := Function.update s.pending n (some (login config challenge returnTo)) }
  | .callback n state completed =>
    match callback config (s.pending n) state completed with
    | .error _ => some s
    | .ok url =>
      some
        { pending := Function.update s.pending n none
          redirects := if headerValue url then s.redirects ++ [url] else s.redirects }
  | .expire n => some { s with pending := Function.update s.pending n none }

end Step

end Workflows.Auth
