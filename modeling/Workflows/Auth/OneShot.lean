import Workflows.Auth.Login
import Workflows.AuthCore.Oidc

/-!
# Logins are used once

The callback with what it does between taking the login data out of the session and redirecting:
the exchange of the code, the checks of the ID token and the two places where the tokens are stored.
-/

namespace Workflows.Auth.OneShot

open AuthCore

structure IdTokenClaims where
  issuer : String
  subject : String
  accessTokenHash : Option String
  name : Option String
  preferredUsername : Option String
  fedid : Option String

structure OidcTokenResponse extends TokenResponse where
  idToken : Option String

structure TokenSessionData extends TokenData where
  name : Option String
  preferredUsername : Option String
  fedid : Option String

/-- What the provider and the `openidconnect` crate answer while one callback is handled: to a code
with a PKCE verifier, to an ID token with a nonce, and to an access token with its ID token. -/
structure Oidc where
  exchangeCode (code pkceVerifier : String) : Except String OidcTokenResponse
  claims (idToken nonce : String) : Except String IdTokenClaims
  accessTokenHash (accessToken idToken : String) : Except String String

/-- An answer that is an error has status 500. Whether the session layer saves the session all the
same is left open, and so is whether the database can be written. -/
structure Attempt where
  oidc : Oidc
  write : Except String Unit
  savesError : Bool
  now : Int

section Callback

variable (crates : Crates)

/-- The addition panics where the expiry is out of range, which ends the request like an error. -/
def fromTokenResponse (tokenResponse : OidcTokenResponse) (claims : IdTokenClaims) (now : Int) :
    Except String TokenSessionData :=
  match tokenResponse.refreshToken with
  | none => .error "Token Response did not return a refresh token"
  | some refreshToken =>
    match crates.addDuration now (tokenResponse.expiresIn.getD defaultTokenExpirySecs) with
    | none => .error "out of range"
    | some accessTokenExpiresAt =>
      .ok
        { issuer := claims.issuer
          subject := claims.subject
          accessToken := some tokenResponse.accessToken
          accessTokenExpiresAt
          refreshToken
          name := claims.name
          preferredUsername := claims.preferredUsername
          fedid := claims.fedid }

def checkAccessTokenHash (oidc : Oidc) (accessToken idToken : String) (claims : IdTokenClaims) :
    Except String Unit :=
  match claims.accessTokenHash with
  | none => .ok ()
  | some expected => do
    let actual ← oidc.accessTokenHash accessToken idToken
    if actual ≠ expected then .error "Invalid access token" else .ok ()

def exchange (attempt : Attempt) (code pkceVerifier nonce : String) :
    Except String TokenSessionData := do
  let tokenResponse ← attempt.oidc.exchangeCode code pkceVerifier
  match tokenResponse.idToken with
  | none => .error "Server did not return an ID token"
  | some idToken =>
    let claims ← attempt.oidc.claims idToken nonce
    checkAccessTokenHash attempt.oidc tokenResponse.accessToken idToken claims
    fromTokenResponse crates tokenResponse claims attempt.now

/-- The session in the memory store, which cannot fail, and the database. -/
structure Stores where
  authSessionData : Option LoginSessionData
  tokenSessionData : Option TokenSessionData
  database : Database

/-- The answer and the tokens that are written and inserted on the way to it. -/
structure Answer where
  response : Except String String
  stored : Option TokenSessionData

def callback (config : GatewayConfig) (authSessionData : Option LoginSessionData)
    (attempt : Attempt) (code state : String) : Answer :=
  match authSessionData with
  | none => { response := .error "session expired", stored := none }
  | some data =>
    if data.csrfToken ≠ state then { response := .error "invalid state", stored := none }
    else
      match exchange crates attempt code data.pkceVerifier data.nonce with
      | .error e => { response := .error e, stored := none }
      | .ok token =>
        match attempt.write with
        | .error e => { response := .error e, stored := none }
        | .ok () =>
          { response := .ok (data.returnToUrl.getD config.callbackDefaultReturnToUrl)
            stored := some token }

inductive Request where
  | login (challenge : Challenge) (returnTo : Option String)
  | callback (attempt : Attempt) (code state : String)
  | expire

variable (config : GatewayConfig)

def stored (s : Stores) : Request → Option TokenSessionData
  | .callback attempt code state =>
    (callback crates config s.authSessionData attempt code state).stored
  | .login .. | .expire => none

/-- The callback takes the login data out of the session and saves it when the tokens are in. -/
def step (s : Stores) : Request → Stores
  | .login challenge returnTo =>
    { s with authSessionData := some (login config challenge returnTo) }
  | .callback attempt code state =>
    match (callback crates config s.authSessionData attempt code state).stored with
    | some token =>
      { authSessionData := none
        tokenSessionData := some token
        database := writeTokenToDatabase s.database token.refreshTokenInfo attempt.now }
    | none => if attempt.savesError then { s with authSessionData := none } else s
  | .expire => { s with authSessionData := none, tokenSessionData := none }

def after (database : Database) (requests : List Request) : Stores :=
  requests.foldl (step crates config)
    { authSessionData := none, tokenSessionData := none, database }

end Callback

section Runs

variable {crates : Crates} {config : GatewayConfig} {s : Stores} {database : Database}
  {request : Request} {token : TokenSessionData} {front middle : List Request}

/-- What happens between taking out the login data and redirecting. -/
def completed (crates : Crates) (authSessionData : Option LoginSessionData) (attempt : Attempt)
    (code : String) : Except String Unit :=
  match authSessionData with
  | none => .ok ()
  | some data =>
    (exchange crates attempt code data.pkceVerifier data.nonce).bind fun _ => attempt.write

theorem callback_response (authSessionData : Option LoginSessionData) (attempt : Attempt)
    (code state : String) :
    (callback crates config authSessionData attempt code state).response =
      Auth.callback config authSessionData state
        (completed crates authSessionData attempt code) := by
  cases authSessionData with
  | none => rfl
  | some data =>
    simp only [callback, Auth.callback, completed]
    split_ifs
    · rfl
    · cases exchange crates attempt code data.pkceVerifier data.nonce with
      | error e => rfl
      | ok token => cases attempt.write <;> rfl

theorem after_append_singleton (requests : List Request) (request : Request) :
    after crates config database (requests ++ [request]) =
      step crates config (after crates config database requests) request := by
  rw [after, List.foldl_append]
  rfl

/-- What it takes for tokens to be stored. -/
theorem stored_eq_some (h : stored crates config s request = some token) :
    ∃ data attempt code, s.authSessionData = some data ∧
      request = .callback attempt code data.csrfToken ∧
      exchange crates attempt code data.pkceVerifier data.nonce = .ok token := by
  cases request with
  | login challenge returnTo => cases h
  | expire => cases h
  | callback attempt code state =>
    rw [stored] at h
    cases hdata : s.authSessionData with
    | none =>
      rw [hdata] at h
      cases h
    | some data =>
      simp only [hdata, callback] at h
      split_ifs at h with hstate
      obtain rfl := not_not.mp hstate
      cases hexchange : exchange crates attempt code data.pkceVerifier data.nonce with
      | error e =>
        rw [hexchange] at h
        cases h
      | ok token' =>
        rw [hexchange] at h
        dsimp only at h
        cases hwrite : attempt.write with
        | error e =>
          rw [hwrite] at h
          cases h
        | ok done =>
          rw [hwrite] at h
          obtain rfl := Option.some.inj h
          exact ⟨data, attempt, code, rfl, rfl, hexchange⟩

theorem step_of_stored (h : stored crates config s request = some token) :
    (step crates config s request).authSessionData = none := by
  obtain ⟨data, attempt, code, -, rfl, -⟩ := stored_eq_some h
  rw [stored] at h
  rw [step, h]

/-- Without a new login there is no login data that was not there before. -/
theorem authSessionData_step {data : LoginSessionData}
    (h : (step crates config s request).authSessionData = some data) :
    s.authSessionData = some data ∨
      ∃ challenge returnTo, request = .login challenge returnTo ∧
        data = login config challenge returnTo := by
  cases request with
  | login challenge returnTo => exact .inr ⟨challenge, returnTo, rfl, (Option.some.inj h).symm⟩
  | expire => cases h
  | callback attempt code state =>
    rw [step] at h
    cases hstored : (callback crates config s.authSessionData attempt code state).stored with
    | some token =>
      rw [hstored] at h
      cases h
    | none =>
      rw [hstored] at h
      dsimp only at h
      split_ifs at h
      exact .inl h

theorem step_of_not_stored (h : stored crates config s request = none) :
    (step crates config s request).database = s.database ∧
      ((step crates config s request).tokenSessionData = s.tokenSessionData ∨
        (step crates config s request).tokenSessionData = none) := by
  cases request with
  | login challenge returnTo => exact ⟨rfl, .inl rfl⟩
  | expire => exact ⟨rfl, .inr rfl⟩
  | callback attempt code state =>
    rw [stored] at h
    rw [step, h]
    dsimp only
    split_ifs
    · exact ⟨rfl, .inl rfl⟩
    · exact ⟨rfl, .inl rfl⟩

def lastLogin (requests : List Request) : Option Challenge :=
  requests.foldl (fun last request =>
    match request with
    | .login challenge _ => some challenge
    | .callback .. | .expire => last) none

theorem lastLogin_append_singleton (requests : List Request) (request : Request) :
    lastLogin (requests ++ [request]) =
      match request with
      | .login challenge _ => some challenge
      | .callback .. | .expire => lastLogin requests := by
  rw [lastLogin, List.foldl_append]
  rfl

/-- The login data of the session are those of the last login. -/
theorem authSessionData_after {data : LoginSessionData}
    (h : (after crates config database front).authSessionData = some data) :
    ∃ challenge, lastLogin front = some challenge ∧ data.csrfToken = challenge.csrfToken ∧
      data.pkceVerifier = challenge.pkceVerifier ∧ data.nonce = challenge.nonce := by
  induction front using List.reverseRecOn with
  | nil => cases h
  | append_singleton front request ih =>
    rw [after_append_singleton] at h
    rw [lastLogin_append_singleton]
    cases request with
    | login challenge returnTo =>
      obtain rfl := Option.some.inj h
      exact ⟨challenge, rfl, rfl, rfl, rfl⟩
    | callback attempt code state =>
      rcases authSessionData_step h with hbefore | ⟨_, _, hlogin, -⟩
      · exact ih hbefore
      · cases hlogin
    | expire => cases h

/-- Once they are used up the login data stay away until the next login. -/
theorem authSessionData_after_of_stored
    (h : stored crates config (after crates config database front) request = some token)
    (hnone : ∀ challenge returnTo, .login challenge returnTo ∉ middle) :
    (after crates config database (front ++ request :: middle)).authSessionData = none := by
  induction middle using List.reverseRecOn with
  | nil =>
    rw [after_append_singleton]
    exact step_of_stored h
  | append_singleton middle next ih =>
    rw [← List.cons_append, ← List.append_assoc, after_append_singleton]
    have hbefore := ih fun challenge returnTo hmem =>
      hnone challenge returnTo (List.mem_append_left _ hmem)
    rw [Option.eq_none_iff_forall_ne_some]
    intro data hdata
    rcases authSessionData_step hdata with hsome | ⟨challenge, returnTo, rfl, -⟩
    · cases hbefore.symm.trans hsome
    · exact hnone challenge returnTo (List.mem_append_right _ (List.mem_singleton_self _))

/-- Tokens are stored by a callback with the state, the verifier and the nonce of the last login,
between two callbacks that store tokens there is a login, and nothing else stores tokens. -/
structure SingleUse (crates : Crates) (config : GatewayConfig) (database : Database)
    (requests : List Request) : Prop where
  own : ∀ front request back token, requests = front ++ request :: back →
    stored crates config (after crates config database front) request = some token →
    ∃ challenge attempt code, lastLogin front = some challenge ∧
      request = .callback attempt code challenge.csrfToken ∧
      exchange crates attempt code challenge.pkceVerifier challenge.nonce = .ok token
  once : ∀ front request middle request' back token token',
    requests = front ++ request :: middle ++ request' :: back →
    stored crates config (after crates config database front) request = some token →
    stored crates config (after crates config database (front ++ request :: middle)) request' =
      some token' →
    ∃ challenge returnTo, .login challenge returnTo ∈ middle
  frame : ∀ front request back, requests = front ++ request :: back →
    stored crates config (after crates config database front) request = none →
    (after crates config database (front ++ [request])).database =
        (after crates config database front).database ∧
      ((after crates config database (front ++ [request])).tokenSessionData =
          (after crates config database front).tokenSessionData ∨
        (after crates config database (front ++ [request])).tokenSessionData = none)

theorem login_singleUse (crates : Crates) (config : GatewayConfig) (database : Database)
    (requests : List Request) : SingleUse crates config database requests where
  own front request back token _ h := by
    obtain ⟨data, attempt, code, hdata, rfl, hexchange⟩ := stored_eq_some h
    obtain ⟨challenge, hlast, hcsrf, hverifier, hnonce⟩ := authSessionData_after hdata
    refine ⟨challenge, attempt, code, hlast, ?_, ?_⟩
    · rw [hcsrf]
    · rw [← hverifier, ← hnonce]
      exact hexchange
  once front request middle request' back token token' _ h h' := by
    obtain ⟨data, -, -, hdata, -⟩ := stored_eq_some h'
    by_contra hlogin
    have hnone : ∀ challenge returnTo, .login challenge returnTo ∉ middle :=
      fun challenge returnTo hmem => hlogin ⟨challenge, returnTo, hmem⟩
    cases (authSessionData_after_of_stored h hnone).symm.trans hdata
  frame front request back _ h := by
    rw [after_append_singleton]
    exact step_of_not_stored h

end Runs

end Workflows.Auth.OneShot
