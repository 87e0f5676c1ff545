import Workflows.AuthCore.Database

/-!
# Tokens of the identity provider

The token response and the token data that the gateway keeps in a session and the daemon in memory.
-/

namespace Workflows.AuthCore

/-- Conversions of the `chrono` and `openidconnect` crates: adding a duration to a time, which can
be out of range, and whether an issuer parses as a URL. -/
structure Crates where
  addDuration : Int → Nat → Option Int
  issuerUrl : String → Bool
  addDuration_zero : ∀ now, addDuration now 0 = some now

def exampleCrates : Crates where
  addDuration now seconds := some (now + seconds)
  issuerUrl _ := true
  addDuration_zero _ := by simp

def defaultTokenExpirySecs : Nat := 60

structure TokenResponse where
  accessToken : String
  expiresIn : Option Nat
  refreshToken : Option String
  deriving DecidableEq

/-- `TokenSessionData` of the gateway, whose access token is always present, and `TokenData` of the
daemon. -/
structure TokenData where
  issuer : String
  subject : String
  accessToken : Option String
  accessTokenExpiresAt : Int
  refreshToken : String
  deriving DecidableEq

namespace TokenData

/-- The addition panics where the expiry is out of range. -/
def updateTokens (crates : Crates) (token : TokenData) (response : TokenResponse) (now : Int) :
    Option TokenData :=
  (crates.addDuration now (response.expiresIn.getD defaultTokenExpirySecs)).map fun expiresAt =>
    { token with
      refreshToken := response.refreshToken.getD token.refreshToken
      accessToken := some response.accessToken
      accessTokenExpiresAt := expiresAt }

def refreshTokenInfo (token : TokenData) : RefreshTokenInfo where
  refreshTokenSecret := token.refreshToken
  issuer := token.issuer
  subject := token.subject

theorem updateTokens_subject {crates : Crates} {token new : TokenData} {response : TokenResponse}
    {now : Int} (h : token.updateTokens crates response now = some new) :
    new.subject = token.subject := by
  obtain ⟨expiresAt, -, rfl⟩ := Option.map_eq_some_iff.mp h
  rfl

end TokenData

end Workflows.AuthCore
