import Workflows.AuthCore.InjectToken
import Workflows.Foundations.Execution
import Workflows.Foundations.Json

/-!
# What the token-injecting middleware forwards

`inject_token_with` from the side of the request: what is forwarded, with which headers, and how
often. A call that answers with a response is a run of the phases of `InjectToken`.
-/

namespace Workflows.AuthCore

open Execution

structure Header where
  name : String
  value : List UInt8
  deriving DecidableEq

/-- Names are in lower case. The order of headers with different names has no meaning. -/
abbrev HeaderMap := List Header

namespace HeaderMap

def remove (headers : HeaderMap) (name : String) : HeaderMap :=
  headers.filter (·.name ≠ name)

def insert (headers : HeaderMap) (name : String) (value : List UInt8) : HeaderMap :=
  headers.remove name ++ [⟨name, value⟩]

def getAll (headers : HeaderMap) (name : String) : List (List UInt8) :=
  (headers.filter (·.name = name)).map (·.value)

end HeaderMap

structure HttpRequest where
  method : String
  uri : String
  headers : HeaderMap
  body : List UInt8
  deriving DecidableEq

/-- A request whose body can be read to its end or not. -/
structure IncomingRequest extends HttpRequest where
  complete : Bool

structure HttpResponse where
  status : Nat
  headers : HeaderMap
  body : List UInt8
  complete : Bool
  deriving DecidableEq

/-- `HeaderValue::from_str`. -/
def headerValue (s : String) : Option (List UInt8) :=
  if s.toList.all fun c => c = '\t' || (32 ≤ c.toNat && c.toNat < 127) then some s.toUTF8.toList
  else none

/-- A token that is no header value panics. -/
def prepareHeaders (req : HttpRequest) (bearerToken : String) : Option HttpRequest :=
  (headerValue ("Bearer " ++ bearerToken)).map fun value =>
    { req with headers := (req.headers.insert "authorization" value).remove "cookie" }

/-- The entries under `errors` where the body is JSON that holds a list there. -/
def graphqlErrors (fromSlice : List UInt8 → Option Json) (body : List UInt8) : Option (List Json) :=
  match (fromSlice body).bind (·.child "errors") with
  | some (.array errors) => some errors
  | _ => none

def HttpResponse.view (fromSlice : List UInt8 → Option Json) (response : HttpResponse) : Response where
  status := response.status
  errors := (graphqlErrors fromSlice response.body).map (·.length)

/-- How the steps of one refresh end. -/
structure RefreshOutcome where
  now : Int
  answer : Option TokenResponse
  written : Bool
  saved : Bool

/-- The memory of a daemon always takes the token. -/
def refreshAndPersist (crates : Crates) (service : Service) (outcome : RefreshOutcome)
    (token : TokenData) : Option TokenData :=
  outcome.answer.bind fun response =>
    (token.updateTokens crates response outcome.now).bind fun new =>
      if outcome.written && (service = .daemon || outcome.saved) then some new else none

/-- What one request meets: the stored token, the time, and how its refreshes and attempts end. -/
structure Handling (service : Service) where
  loaded : Option TokenData
  now : Int
  refresh : RefreshOutcome
  response : HttpResponse
  retryRefresh : RefreshOutcome
  retryResponse : HttpResponse
  present : service = .gateway → ∀ token ∈ loaded, token.accessToken.isSome

inductive Reply where
  | response (response : HttpResponse)
  | unauthorized
  | error
  | panic

structure Handled where
  forwarded : List HttpRequest
  reply : Reply

section Handle

variable (crates : Crates) (fromSlice : List UInt8 → Option Json) {service : Service}
  (env : Handling service)

def currentToken (token : TokenData) : Option TokenData :=
  if service.isExpired token env.now then refreshAndPersist crates service env.refresh token
  else some token

def withBearer (token : TokenData) (req : HttpRequest) : Option HttpRequest :=
  match token.accessToken with
  | some bearer => prepareHeaders req bearer
  | none => some req

/-- The body is read before either request is built from it. -/
def injectTokenWith (req : IncomingRequest) : Handled :=
  match env.loaded with
  | none => ⟨[], .unauthorized⟩
  | some token =>
    match currentToken crates env token with
    | none => ⟨[], .error⟩
    | some token =>
      if req.complete then
        match withBearer token req.toHttpRequest with
        | none => ⟨[], .panic⟩
        | some primary =>
          if env.response.complete then
            if service.shouldRetry (env.response.view fromSlice) then
              match refreshAndPersist crates service env.retryRefresh token with
              | none => ⟨[primary], .error⟩
              | some token =>
                match withBearer token req.toHttpRequest with
                | none => ⟨[primary], .panic⟩
                | some retry => ⟨[primary, retry], .response env.retryResponse⟩
            else ⟨[primary], .response env.response⟩
          else ⟨[primary], .error⟩
      else ⟨[], .error⟩

/-- The token that the load, or the latest refresh made for the request, returned before the first
attempt and before the second. -/
def latestToken : Nat → Option TokenData
  | 0 => env.loaded.bind (currentToken crates env)
  | _ + 1 => (env.loaded.bind (currentToken crates env)).bind
      (refreshAndPersist crates service env.retryRefresh)

end Handle

/-- The request that is forwarded for an incoming one with an access token. -/
structure Carries (req : HttpRequest) (accessToken : String) (forwarded : HttpRequest) : Prop where
  method : forwarded.method = req.method
  uri : forwarded.uri = req.uri
  body : forwarded.body = req.body
  authorization : forwarded.headers.getAll "authorization" =
    [("Bearer " ++ accessToken).toUTF8.toList]
  cookie : forwarded.headers.getAll "cookie" = []
  others : ∀ name, name ≠ "authorization" → name ≠ "cookie" →
    forwarded.headers.getAll name = req.headers.getAll name

section Headers

variable {headers : HeaderMap} {name other : String} {value : List UInt8}

namespace HeaderMap

@[simp] theorem getAll_remove_self : (headers.remove name).getAll name = [] := by
  rw [getAll, remove, List.filter_filter]
  simp

theorem getAll_remove_of_ne (h : other ≠ name) :
    (headers.remove name).getAll other = headers.getAll other := by
  rw [getAll, getAll, remove, List.filter_filter]
  congr 1
  apply List.filter_congr
  intro header _
  rcases eq_or_ne header.name other with heq | hne
  · simp [heq, h]
  · simp [hne]

theorem getAll_insert_self : (headers.insert name value).getAll name = [value] := by
  have hnone : (headers.remove name).getAll name = [] := getAll_remove_self
  rw [getAll] at hnone
  rw [getAll, insert, List.filter_append, List.map_append, hnone]
  simp

theorem getAll_insert_of_ne (h : other ≠ name) :
    (headers.insert name value).getAll other = headers.getAll other := by
  have hsame : (headers.remove name).getAll other = headers.getAll other := getAll_remove_of_ne h
  rw [getAll] at hsame
  rw [getAll, insert, List.filter_append, List.map_append, hsame]
  simp [h.symm]

end HeaderMap

theorem carries_of_prepareHeaders {req forwarded : HttpRequest} {bearerToken : String}
    (h : prepareHeaders req bearerToken = some forwarded) : Carries req bearerToken forwarded := by
  obtain ⟨value, hvalue, rfl⟩ := Option.map_eq_some_iff.mp h
  rw [headerValue] at hvalue
  split_ifs at hvalue
  obtain rfl := Option.some.inj hvalue
  have hne : ("authorization" : String) ≠ "cookie" := by decide
  exact
    { method := rfl
      uri := rfl
      body := rfl
      authorization :=
        (HeaderMap.getAll_remove_of_ne hne).trans HeaderMap.getAll_insert_self
      cookie := HeaderMap.getAll_remove_self
      others := fun name hauthorization hcookie =>
        (HeaderMap.getAll_remove_of_ne hcookie).trans
          (HeaderMap.getAll_insert_of_ne hauthorization) }

end Headers

section Handling

variable {crates : Crates} {fromSlice : List UInt8 → Option Json} {service : Service}
  {env : Handling service} {req : IncomingRequest}

theorem refreshAndPersist_eq_some {outcome : RefreshOutcome} {token new : TokenData}
    (h : refreshAndPersist crates service outcome token = some new) :
    ∃ response, outcome.answer = some response ∧
      token.updateTokens crates response outcome.now = some new := by
  obtain ⟨response, hresponse, hrest⟩ := Option.bind_eq_some_iff.mp h
  obtain ⟨updated, hupdated, hkept⟩ := Option.bind_eq_some_iff.mp hrest
  split_ifs at hkept
  exact ⟨response, hresponse, hupdated.trans hkept⟩

theorem accessToken_of_refresh {outcome : RefreshOutcome} {token new : TokenData}
    (h : refreshAndPersist crates service outcome token = some new) : new.accessToken.isSome := by
  obtain ⟨response, -, hupdated⟩ := refreshAndPersist_eq_some h
  obtain ⟨expiresAt, -, rfl⟩ := Option.map_eq_some_iff.mp hupdated
  rfl

theorem accessToken_of_not_expired {token : TokenData} (hloaded : env.loaded = some token)
    (h : service.isExpired token env.now = false) : token.accessToken.isSome := by
  cases service with
  | gateway => exact env.present rfl token hloaded
  | daemon =>
    rw [Service.isExpired, Bool.or_eq_false_iff] at h
    exact Option.isSome_iff_ne_none.mpr fun hnone => by simp [hnone] at h

theorem accessToken_of_current {token new : TokenData} (hloaded : env.loaded = some token)
    (h : currentToken crates env token = some new) : new.accessToken.isSome := by
  rw [currentToken] at h
  split_ifs at h with hexpired
  · exact accessToken_of_refresh h
  · cases h
    exact accessToken_of_not_expired hloaded (Bool.eq_false_iff.mpr hexpired)

theorem carries_of_withBearer {token : TokenData} {request forwarded : HttpRequest}
    (hpresent : token.accessToken.isSome) (h : withBearer token request = some forwarded) :
    ∃ accessToken, token.accessToken = some accessToken ∧ Carries request accessToken forwarded := by
  obtain ⟨accessToken, haccess⟩ := Option.isSome_iff_exists.mp hpresent
  rw [withBearer, haccess] at h
  exact ⟨accessToken, haccess, carries_of_prepareHeaders h⟩

theorem accessToken_of_latest {i : Nat} {token : TokenData}
    (h : latestToken crates env i = some token) : token.accessToken.isSome := by
  cases i with
  | zero =>
    obtain ⟨stored, hloaded, hcurrent⟩ := Option.bind_eq_some_iff.mp h
    exact accessToken_of_current hloaded hcurrent
  | succ i =>
    obtain ⟨first, -, hrefresh⟩ := Option.bind_eq_some_iff.mp h
    exact accessToken_of_refresh hrefresh

/-- One attempt, with the token that is the latest for it. -/
def Attempt (crates : Crates) (env : Handling service) (req : IncomingRequest) (i : Nat)
    (forwarded : HttpRequest) : Prop :=
  ∃ token, latestToken crates env i = some token ∧
    withBearer token req.toHttpRequest = some forwarded

/-- The ways in which a call ends: nothing is forwarded, one attempt, or two with a retry between
them. -/
theorem forwarded_cases (crates : Crates) (fromSlice : List UInt8 → Option Json)
    (env : Handling service) (req : IncomingRequest) :
    (injectTokenWith crates fromSlice env req).forwarded = [] ∨
      ∃ primary, Attempt crates env req 0 primary ∧
        ((injectTokenWith crates fromSlice env req).forwarded = [primary] ∨
          ∃ retry, Attempt crates env req 1 retry ∧ env.response.complete ∧
            service.shouldRetry (env.response.view fromSlice) ∧
            (injectTokenWith crates fromSlice env req).forwarded = [primary, retry]) := by
  unfold injectTokenWith
  split
  next => exact .inl rfl
  next stored hloaded =>
    split
    next => exact .inl rfl
    next token hcurrent =>
      have hlatest : latestToken crates env 0 = some token := by
        rw [latestToken, hloaded]
        exact hcurrent
      split_ifs with hcomplete hresponse hretry
      · split
        next => exact .inl rfl
        next primary hprimary =>
          refine .inr ⟨primary, ⟨token, hlatest, hprimary⟩, ?_⟩
          split
          next => exact .inl rfl
          next new hrefresh =>
            split
            next => exact .inl rfl
            next retry hbearer =>
              refine .inr ⟨retry, ⟨new, ?_, hbearer⟩, hresponse, hretry, rfl⟩
              rw [latestToken, hloaded]
              exact (congrArg (Option.bind · _) hcurrent).trans hrefresh
      · split
        next => exact .inl rfl
        next primary hprimary => exact .inr ⟨primary, ⟨token, hlatest, hprimary⟩, .inl rfl⟩
      · split
        next => exact .inl rfl
        next primary hprimary => exact .inr ⟨primary, ⟨token, hlatest, hprimary⟩, .inl rfl⟩
      · exact .inl rfl

theorem attempt_of_forwarded {i : Nat} {forwarded : HttpRequest}
    (h : (injectTokenWith crates fromSlice env req).forwarded[i]? = some forwarded) :
    Attempt crates env req i forwarded := by
  obtain hnone | ⟨primary, hprimary, hone | ⟨retry, hretry, -, -, htwo⟩⟩ :=
    forwarded_cases crates fromSlice env req
  · rw [hnone] at h
    cases h
  · rw [hone] at h
    cases i with
    | zero =>
      cases h
      exact hprimary
    | succ i => cases h
  · rw [htwo] at h
    match i with
    | 0 =>
      cases h
      exact hprimary
    | 1 =>
      cases h
      exact hretry
    | i + 2 => cases h

/-- Every attempt is made with the latest token of its request. -/
theorem forwarded_carries (crates : Crates) (fromSlice : List UInt8 → Option Json)
    (env : Handling service) (req : IncomingRequest) :
    (env.loaded = none → (injectTokenWith crates fromSlice env req).forwarded = []) ∧
      ∀ i forwarded, (injectTokenWith crates fromSlice env req).forwarded[i]? = some forwarded →
        ∃ token accessToken, latestToken crates env i = some token ∧
          token.accessToken = some accessToken ∧
          Carries req.toHttpRequest accessToken forwarded := by
  constructor
  · intro hloaded
    rw [injectTokenWith, hloaded]
  · intro i forwarded h
    obtain ⟨token, hlatest, hbearer⟩ := attempt_of_forwarded h
    obtain ⟨accessToken, haccess, hcarries⟩ :=
      carries_of_withBearer (accessToken_of_latest hlatest) hbearer
    exact ⟨token, accessToken, hlatest, haccess, hcarries⟩

def exampleHandling : Handling .daemon where
  loaded := some ⟨"https://issuer", "ulid1", none, 0, "r0"⟩
  now := 0
  refresh := ⟨0, some ⟨"a1", none, none⟩, true, true⟩
  response := ⟨500, [], [], true⟩
  retryRefresh := ⟨1, some ⟨"a2", none, some "r1"⟩, true, true⟩
  retryResponse := ⟨200, [], [], true⟩
  present := by decide

def exampleRequest : IncomingRequest where
  method := "POST"
  uri := "/"
  headers := [⟨"authorization", [98]⟩, ⟨"accept", [42]⟩, ⟨"cookie", [99]⟩, ⟨"authorization", []⟩]
  body := [1, 2]
  complete := true

theorem forwarded_carries_example :
    ∃ forwarded, (injectTokenWith exampleCrates (fun _ => none) exampleHandling
        exampleRequest).forwarded[1]? = some forwarded ∧
      Carries exampleRequest.toHttpRequest "a2" forwarded := by
  obtain ⟨forwarded, h⟩ : ∃ forwarded, (injectTokenWith exampleCrates (fun _ => none)
      exampleHandling exampleRequest).forwarded[1]? = some forwarded := ⟨_, rfl⟩
  obtain ⟨token, accessToken, hlatest, haccess, hcarries⟩ :=
    (forwarded_carries exampleCrates (fun _ => none) exampleHandling exampleRequest).2 1 forwarded h
  cases hlatest
  cases haccess
  exact ⟨forwarded, h, hcarries⟩

/-- A step of the request at the time it is taken. -/
def phaseStep (crates : Crates) (service : Service) (loaded : Option TokenData)
    (phase : RequestPhase) (event : Int × Event) : Option RequestPhase :=
  phase.next crates service event.1 (fun ok => if ok then loaded else none) event.2

def refreshEvents (outcome : RefreshOutcome) : List (Int × Event) :=
  [(outcome.now, .exchange outcome.answer), (outcome.now, .write true), (outcome.now, .save true)]

theorem exec_refreshEvents {loaded : Option TokenData} {outcome : RefreshOutcome}
    {token new : TokenData} (h : refreshAndPersist crates service outcome token = some new)
    (retry : Bool) :
    exec (phaseStep crates service loaded) (.exchanging token retry) (refreshEvents outcome) =
      some (.forwarding new true retry) := by
  obtain ⟨response, hanswer, hupdated⟩ := refreshAndPersist_eq_some h
  simp only [refreshEvents, exec_cons, phaseStep, RequestPhase.next, RequestPhase.afterExchange,
    hanswer, hupdated]
  rfl

def firstEvents (env : Handling service) (token : TokenData) : List (Int × Event) :=
  (env.now, .load true) ::
    if service.isExpired token env.now then refreshEvents env.refresh else []

theorem exec_firstEvents {stored token : TokenData} (hloaded : env.loaded = some stored)
    (hcurrent : currentToken crates env stored = some token) :
    ∃ refreshed, exec (phaseStep crates service env.loaded) .loading (firstEvents env stored) =
      some (.forwarding token refreshed false) := by
  rw [currentToken] at hcurrent
  rw [firstEvents, exec_cons]
  simp only [phaseStep, RequestPhase.next, RequestPhase.afterLoad, hloaded, if_true]
  split_ifs at hcurrent ⊢ with hexpired
  · exact ⟨true, exec_refreshEvents hcurrent false⟩
  · cases hcurrent
    exact ⟨false, rfl⟩

/-- A call that answers with the upstream's response is a run of the phases to that response. -/
theorem exec_of_response {response : HttpResponse}
    (h : (injectTokenWith crates fromSlice env req).reply = .response response) :
    ∃ events saved, exec (phaseStep crates service env.loaded) .loading events =
      some (.responded response.status saved) := by
  unfold injectTokenWith at h
  split at h
  next => cases h
  next stored hloaded =>
    split at h
    next => cases h
    next token hcurrent =>
      obtain ⟨refreshed, hfirst⟩ := exec_firstEvents hloaded hcurrent
      split_ifs at h with hcomplete hresponse hretry
      · split at h
        next => cases h
        next primary hprimary =>
          split at h
          next => cases h
          next new hrefresh =>
            split at h
            next => cases h
            next retry hbearer =>
              cases h
              refine ⟨firstEvents env stored ++ (env.now, .respond (env.response.view fromSlice) true)
                :: (refreshEvents env.retryRefresh ++
                  [(env.now, .respond (env.retryResponse.view fromSlice) true)]), some new, ?_⟩
              rw [exec_append, hfirst, Option.bind_some, exec_cons]
              simp only [phaseStep, RequestPhase.next, RequestPhase.afterForward, hretry]
              exact exec_append_eq_some.mpr ⟨_, exec_refreshEvents hrefresh true, rfl⟩
      · split at h
        next => cases h
        next primary hprimary =>
          cases h
          refine ⟨firstEvents env stored ++ [(env.now, .respond (env.response.view fromSlice) true)],
            if refreshed then some token else none, ?_⟩
          rw [exec_append, hfirst, Option.bind_some, exec_cons]
          simp only [phaseStep, RequestPhase.next, RequestPhase.afterForward, hretry]
          rfl
      · split at h <;> cases h

end Handling

end Workflows.AuthCore
