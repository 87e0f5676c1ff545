import Workflows.Auth.Services

/-!
# The tokens that sessions, daemons and requests hold

A request gets its token from its store or from a refresh, and a store gets it from a login, from
the row that a daemon starts with or from a request of its own. What all of these keep holds of
every token in every state.
-/

namespace Workflows.Auth

open AuthCore

/-- The token of a request, from its load on. -/
def Request.token : Request → Option TokenData
  | ⟨_, .loading⟩ => none
  | ⟨_, .exchanging token _⟩ => some token
  | ⟨_, .writing token _⟩ => some token
  | ⟨_, .saving token _⟩ => some token
  | ⟨_, .forwarding token _ _⟩ => some token
  | ⟨_, .responded _ saved⟩ => saved

/-- Sessions, daemons and requests hold tokens with the property, each for its store. -/
structure AllTokens (P : Store → TokenData → Prop) (s : State) : Prop where
  session : ∀ n token, s.sessions n = some token → P (.session n) token
  daemon : ∀ d token, s.daemons d = some token → P (.daemon d) token
  request : ∀ i request token, s.requests i = some request → request.token = some token →
    P request.store token

/-- What a login, a new daemon or a refresh brings in has the property. -/
def Supplies (crates : Crates) (P : Store → TokenData → Prop) (s : State) : Action → Prop
  | .callback n token saved => saved = true → P (.session n) token
  | .startDaemon subject =>
    ∀ row, readTokenFromDatabase s.database subject none s.broker.now = .ok row →
      P (.daemon s.nextDaemon)
        { issuer := row.issuer, subject := row.subject, accessToken := none,
          accessTokenExpiresAt := s.broker.now, refreshToken := row.refreshTokenSecret }
  | .request i (.exchange (some response)) =>
    ∀ store token retry new, s.requests i = some ⟨store, .exchanging token retry⟩ →
      token.updateTokens crates response s.broker.now = some new → P store token → P store new
  | _ => True

variable {crates : Crates} {s t : State} {P Q : Store → TokenData → Prop}

/-- Only a load and a refresh bring in a token. -/
theorem token_next {store : Store} {phase next : RequestPhase} {now : Int}
    {loadToken : Bool → Option TokenData} {event : Event} {token : TokenData}
    (hnext : phase.next crates store.service now loadToken event = some next)
    (htoken : Request.token ⟨store, next⟩ = some token) :
    (∃ ok, loadToken ok = some token) ∨ Request.token ⟨store, phase⟩ = some token ∨
      ∃ old retry response, phase = .exchanging old retry ∧ event = .exchange (some response) ∧
        old.updateTokens crates response now = some token := by
  cases phase <;> cases event <;> cases hnext
  case loading.load ok =>
    left
    refine ⟨ok, ?_⟩
    cases hload : loadToken ok with
    | none =>
      rw [hload] at htoken
      cases htoken
    | some loaded =>
      simp only [hload, RequestPhase.afterLoad] at htoken
      split_ifs at htoken <;> exact htoken
  case exchanging.exchange old retry answer =>
    right
    right
    cases answer with
    | none => cases htoken
    | some response =>
      simp only [RequestPhase.afterExchange] at htoken
      split at htoken
      next new hnew =>
        cases htoken
        exact ⟨old, retry, response, rfl, rfl, hnew⟩
      next => cases htoken
  case writing.write old retry ok =>
    right
    left
    cases ok with
    | false => cases htoken
    | true => exact htoken
  case saving.save old retry ok =>
    right
    left
    cases ok with
    | false => cases htoken
    | true => exact htoken
  case forwarding.respond old refreshed retry response complete =>
    right
    left
    simp only [RequestPhase.afterForward] at htoken
    split_ifs at htoken with hbody hretry hrefreshed
    · cases htoken
    · exact htoken
    · exact htoken
    · cases htoken

theorem token_of_written {store : Store} {phase : RequestPhase} {event : Event}
    {token : TokenData} (h : phase.written event = some token) :
    Request.token ⟨store, phase⟩ = some token := by
  unfold RequestPhase.written at h
  split at h
  · exact h
  · cases h

theorem token_of_stored {store : Store} {phase : RequestPhase} {event : Event}
    {token : TokenData} (h : phase.stored event = some token) :
    Request.token ⟨store, phase⟩ = some token := by
  unfold RequestPhase.stored at h
  split at h
  · exact h
  · cases h

namespace AllTokens

theorem mono (h : AllTokens P s) (hPQ : ∀ store token, P store token → Q store token) :
    AllTokens Q s where
  session n token hn := hPQ _ _ (h.session n token hn)
  daemon d token hd := hPQ _ _ (h.daemon d token hd)
  request i request token hi htoken := hPQ _ _ (h.request i request token hi htoken)

theorem init (database : Database) (now : Int) : AllTokens P (.init database now) where
  session _ _ hn := nomatch hn
  daemon _ _ hd := nomatch hd
  request _ _ _ hi := nomatch hi

/-- What the three tables do not show is of no account. -/
theorem congr (h : AllTokens P s) (hsessions : t.sessions = s.sessions)
    (hdaemons : t.daemons = s.daemons) (hrequests : t.requests = s.requests) : AllTokens P t where
  session := hsessions ▸ h.session
  daemon := hdaemons ▸ h.daemon
  request := hrequests ▸ h.request

theorem setRequest (h : AllTokens P s) (i : Nat) (request : Request)
    (hrequest : ∀ token, request.token = some token → P request.store token) :
    AllTokens P (s.setRequest i request) where
  session := h.session
  daemon := h.daemon
  request j other token hj htoken := by
    rcases eq_or_ne j i with rfl | hji
    · rw [State.requests_setRequest_self, Option.some.injEq] at hj
      subst hj
      exact hrequest token htoken
    · rw [State.requests_setRequest_of_ne s i request hji] at hj
      exact h.request j other token hj htoken

theorem setSession (h : AllTokens P s) (n : Nat) (token : Option TokenData)
    (htoken : ∀ t ∈ token, P (.session n) t) :
    AllTokens P { s with sessions := Function.update s.sessions n token } where
  session m token' hm := by
    rcases eq_or_ne m n with rfl | hmn
    · simp only [Function.update_self] at hm
      exact htoken token' hm
    · simp only [Function.update_of_ne hmn] at hm
      exact h.session m token' hm
  daemon := h.daemon
  request := h.request

theorem setDaemon (h : AllTokens P s) (d : Nat) (token : Option TokenData)
    (htoken : ∀ t ∈ token, P (.daemon d) t) :
    AllTokens P { s with daemons := Function.update s.daemons d token } where
  session := h.session
  daemon m token' hm := by
    rcases eq_or_ne m d with rfl | hmd
    · simp only [Function.update_self] at hm
      exact htoken token' hm
    · simp only [Function.update_of_ne hmd] at hm
      exact h.daemon m token' hm
  request := h.request

theorem store (h : AllTokens P s) {store : Store} {token : Option TokenData}
    (htoken : ∀ t ∈ token, P store t) : AllTokens P (s.store store token) := by
  cases token with
  | none => exact h
  | some token =>
    cases store with
    | session n => exact h
    | daemon d => exact h.setDaemon d (some token) htoken

theorem write (h : AllTokens P s) (token : Option TokenData) : AllTokens P (s.write token) :=
  h.congr (s.sessions_write token) (s.daemons_write token) (s.requests_write token)

theorem loadToken (h : AllTokens P s) {store : Store} {ok : Bool} {token : TokenData}
    (hload : s.loadToken store ok = some token) : P store token := by
  cases store with
  | session n =>
    cases ok with
    | false => cases hload
    | true => exact h.session n token hload
  | daemon d => exact h.daemon d token hload

theorem requestStep (h : AllTokens P s) {i : Nat} {event : Event}
    (hs : Supplies crates P s (.request i event))
    (hstep : step crates s (.request i event) = some t) : AllTokens P t := by
  simp only [Auth.step] at hstep
  split at hstep
  next store phase hi =>
    obtain ⟨next, hnext, rfl⟩ := Option.map_eq_some_iff.mp hstep
    have hstored : ∀ token ∈ phase.stored event, P store token := fun token htoken =>
      h.request i _ token hi (token_of_stored htoken)
    refine ((h.write _).store hstored).setRequest i ⟨store, next⟩ fun token htoken => ?_
    obtain ⟨ok, hload⟩ | hold | ⟨old, retry, response, rfl, rfl, hnew⟩ := token_next hnext htoken
    · exact h.loadToken hload
    · exact h.request i ⟨store, phase⟩ token hi hold
    · exact hs store old retry token hi hnew (h.request i _ old hi rfl)
  next => cases hstep

theorem step {a : Action} (h : AllTokens P s) (hs : Supplies crates P s a)
    (hstep : step crates s a = some t) : AllTokens P t := by
  cases a with
  | broker action =>
    obtain ⟨broker, -, rfl⟩ := Option.map_eq_some_iff.mp hstep
    exact h.congr rfl rfl rfl
  | callback n token saved =>
    cases hstep
    cases saved with
    | false => exact h.write (some token)
    | true => exact (h.write (some token)).setSession n _ fun t ht => Option.some.inj ht ▸ hs rfl
  | expireSession n =>
    cases hstep
    exact h.setSession n none fun t ht => nomatch ht
  | startDaemon subject =>
    simp only [Auth.step] at hstep
    split at hstep
    next => cases hstep
    next row hread =>
      split_ifs at hstep
      cases hstep
      exact (h.setDaemon s.nextDaemon _ fun t ht =>
        Option.some.inj ht ▸ hs row hread).congr rfl rfl rfl
  | stopDaemon d =>
    cases hstep
    have hset := h.setDaemon d none fun t ht => nomatch ht
    refine ⟨hset.session, hset.daemon, fun i request token hi => ?_⟩
    exact h.request i request token (Option.filter_eq_some_iff.mp hi).1
  | arrive store =>
    cases hstep
    exact (h.setRequest s.nextRequest ⟨store, .loading⟩ fun token htoken =>
      nomatch htoken).congr rfl rfl rfl
  | request i event => exact h.requestStep hs hstep
  | saveSession i =>
    simp only [Auth.step] at hstep
    split at hstep
    next n status token hi =>
      split_ifs at hstep
      cases hstep
      have hset := h.setRequest i ⟨.session n, .responded status none⟩ fun token htoken =>
        nomatch htoken
      exact hset.setSession n _ fun t ht => Option.some.inj ht ▸ h.request i _ token hi rfl
    next => cases hstep
  | logout n =>
    cases hstep
    exact h.congr rfl rfl rfl
  | findToken i ok =>
    simp only [Auth.step] at hstep
    split at hstep
    next n hi =>
      split_ifs at hstep
      · split at hstep <;> cases hstep <;> exact h.congr rfl rfl rfl
      · cases hstep
        exact h.congr rfl rfl rfl
    next => cases hstep
  | deleteRow i ok =>
    simp only [Auth.step] at hstep
    split at hstep
    next n subject hi =>
      split_ifs at hstep <;> cases hstep <;> exact h.congr rfl rfl rfl
    next => cases hstep
  | flush i =>
    simp only [Auth.step] at hstep
    split at hstep
    next n hi =>
      cases hstep
      exact (h.setSession n none fun t ht => nomatch ht).congr rfl rfl rfl
    next => cases hstep

end AllTokens

end Workflows.Auth
