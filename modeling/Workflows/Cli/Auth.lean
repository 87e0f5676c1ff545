import Workflows.AuthCore.Oidc

/-!
# The cached tokens of the command line

`get_auth_token` takes the tokens that a login has left in a file and refreshes them where the id
token has expired. A refresh writes the file anew.
-/

namespace Workflows.Cli

open AuthCore

inductive AuthError where
  | jwtDecode (message : String)
  | missingExpiry
  | noRefreshToken
  | refreshFailed (message : String)
  deriving DecidableEq

structure CachedTokens where
  idToken : String
  refreshToken : Option String
  deriving DecidableEq

/-- The tokens written to the file. -/
def useRefreshToken (exchange : String → Except String TokenResponse) (refreshToken : String) :
    Except AuthError CachedTokens :=
  match exchange refreshToken with
  | .error e => .error (.refreshFailed e)
  | .ok refreshedTokens =>
    .ok { idToken := refreshedTokens.accessToken, refreshToken := refreshedTokens.refreshToken }

def refreshTokens (exchange : String → Except String TokenResponse) (tokens : CachedTokens) :
    Except AuthError CachedTokens :=
  match tokens.refreshToken with
  | none => .error .noRefreshToken
  | some refreshToken => useRefreshToken exchange refreshToken

/-- The file after the call, whose id token is returned; `decode` gives the expiry in a token. -/
def getAuthToken (decode : String → Except String (Option Nat))
    (exchange : String → Except String TokenResponse) (now : Nat) (tokens : CachedTokens) :
    Except AuthError CachedTokens :=
  match decode tokens.idToken with
  | .error e => .error (.jwtDecode e)
  | .ok none => .error .missingExpiry
  | .ok (some expiry) => if now ≤ expiry then .ok tokens else refreshTokens exchange tokens

end Workflows.Cli
