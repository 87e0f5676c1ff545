import Workflows.Foundations.Execution
import Workflows.Foundations.Json
import Workflows.GraphProxy.Logs
import Mathlib.Logic.Function.Basic

/-!
# Whose token goes to the server behind the proxy

A token is checked when an HTTP request comes in, and for a WebSocket when its connection is
initialised. What is asked for later is asked for with that token, however long this takes and
whatever keys the issuer has by then.
-/

namespace Workflows.GraphProxy.Authentication

open Execution

inductive Algorithm where
  | hs256 | hs384 | hs512 | es256 | es384 | rs256 | rs384 | rs512 | ps256 | ps384 | ps512 | edDsa
  deriving DecidableEq

structure Validation where
  algorithms : List Algorithm
  issuer : List String
  audience : List String
  leeway : Nat
  deriving DecidableEq

structure Jwk where
  keyId : Option String
  parameters : String
  deriving DecidableEq

/-- The crate that reads tokens. A token is decoded at a time. -/
structure JsonWebToken (Key : Type) where
  decodeHeader : String → Option (Option String)
  fromJwk : Jwk → Except String Key
  decode : String → Key → Validation → Nat → Bool

inductive ValidatedAuthToken where
  | valid (token : String)
  | invalid
  | missing
  | failed (reason : String)
  deriving DecidableEq

def ValidatedAuthToken.asToken : ValidatedAuthToken → Option String
  | valid token => some token
  | invalid | missing | failed _ => none

structure TokenValidator where
  jsonWebKeySet : List Jwk
  jwtValidation : Validation
  deriving DecidableEq

def TokenValidator.new (issuer : String) (keys : List Jwk) (audiences : List String) :
    TokenValidator where
  jsonWebKeySet := keys
  jwtValidation :=
    { algorithms := [.rs256]
      issuer := [issuer]
      audience := (audiences.map fun s => String.ofList (trim s.toList)).filter (· ≠ "")
      leeway := 60 }

section Validate

variable {Key : Type} (jwt : JsonWebToken Key) (validator : TokenValidator) (now : Nat)

def TokenValidator.validateTokenWithJwt (token : String) : ValidatedAuthToken :=
  match jwt.decodeHeader token with
  | none | some none => .invalid
  | some (some keyId) =>
    match validator.jsonWebKeySet.find? (·.keyId = some keyId) with
    | none => .invalid
    | some jwk =>
      match jwt.fromJwk jwk with
      | .error e => .failed ("Unsupported JWK: " ++ e)
      | .ok key =>
        if jwt.decode token key validator.jwtValidation now then .valid token else .invalid

/-- With the method `Jwt`. -/
def TokenValidator.validateToken : Option String → ValidatedAuthToken
  | some token => validator.validateTokenWithJwt jwt now token
  | none => .missing

/-- The token names a key of the issuer and was signed with it, for what the validator asks. -/
structure Accepts (token : String) : Prop where
  signed : ∃ keyId jwk key, jwt.decodeHeader token = some (some keyId) ∧
    validator.jsonWebKeySet.find? (·.keyId = some keyId) = some jwk ∧
    jwt.fromJwk jwk = .ok key ∧ jwt.decode token key validator.jwtValidation now = true

end Validate

/-- What a field resolves to when it is not data; each of the guard's has a code. -/
structure FieldError where
  message : String
  code : Option String
  deriving DecidableEq

def unauthenticated (message : String) : FieldError where
  message := message
  code := some "UNAUTHENTICATED"

/-- `AuthGuard`. -/
def check : Option ValidatedAuthToken → Except FieldError Unit
  | none => .error (unauthenticated "Authentication context missing")
  | some (.valid _) => .ok ()
  | some .invalid => .error (unauthenticated "Authentication error: Invalid token")
  | some .missing => .error (unauthenticated "Authentication error: Missing Bearer token")
  | some (.failed reason) => .error (unauthenticated ("Authentication failed: " ++ reason))

def getAuthToken (data : ValidatedAuthToken) : Except FieldError String :=
  match data.asToken with
  | some token => .ok token
  | none => .error { message := "No authorisation token was provided", code := none }

structure UpstreamRequest where
  url : String
  bearerAuth : String
  deriving DecidableEq

/-- A field behind the guard, up to the request that its resolver sends. -/
def resolve (data : ValidatedAuthToken) (url : String) : Except FieldError UpstreamRequest :=
  match check (some data) with
  | .error e => .error e
  | .ok () =>
    match getAuthToken data with
    | .error e => .error e
    | .ok token => .ok { url := url, bearerAuth := token }

section Header

/-- What `TypedHeader` makes of the `Authorization` header of a request. -/
inductive AuthorizationHeader where
  | missing
  | malformed
  | bearer (token : String)
  deriving DecidableEq

def AuthorizationHeader.ok : AuthorizationHeader → Option String
  | bearer token => some token
  | missing | malformed => none

def isHeaderChar (c : Char) : Bool := c = '\t' || (32 ≤ c.toNat && c.toNat ≠ 127)

/-- `Authorization::bearer`, and the token as it is read back from it. -/
def bearer (text : List Char) : Option String :=
  if text.all isHeaderChar then some (String.ofList (text.dropWhile isWhitespace)) else none

def connInitAuthHeader (payload : Json) : Option String :=
  match payload.child "Authorization" with
  | some (.string text) =>
    if "Bearer ".toList <+: text.toList then bearer (text.toList.drop 7) else none
  | _ => none

end Header

inductive Stage where
  | upgraded (httpAuthHeader : Option String)
  | ready (data : ValidatedAuthToken)
  deriving DecidableEq

structure GraphQLWebSocket where
  caller : Nat
  stage : Stage
  deriving DecidableEq

/-- A request whose fields are being resolved, and the connection it came on. -/
structure Operation where
  caller : Nat
  socket : Option Nat
  data : ValidatedAuthToken
  deriving DecidableEq

/-- A field that was resolved, when, and by which process. -/
structure Resolved where
  caller : Nat
  socket : Option Nat
  process : Nat
  time : Nat
  url : String
  outcome : Except FieldError UpstreamRequest

structure State where
  now : Nat
  issuerKeys : List Jwk
  process : Nat
  validator : TokenValidator
  sockets : Nat → Option GraphQLWebSocket
  nextSocket : Nat
  operations : Nat → Option Operation
  nextOperation : Nat
  resolved : List Resolved

inductive Action where
  | post (caller : Nat) (header : AuthorizationHeader)
  | upgrade (caller : Nat) (header : AuthorizationHeader)
  | connectionInit (i : Nat) (payload : Json)
  | subscribe (i : Nat)
  | resolve (j : Nat) (url : String)
  | finish (j : Nat)
  | close (i : Nat)
  | advance (seconds : Nat)
  | rotate (keys : List Jwk)
  | restart

section Step

variable {Key : Type} (jwt : JsonWebToken Key) (issuer : String) (audiences : List String)

def start (keys : List Jwk) (now : Nat) : State where
  now := now
  issuerKeys := keys
  process := 0
  validator := .new issuer keys audiences
  sockets := fun _ => none
  nextSocket := 0
  operations := fun _ => none
  nextOperation := 0
  resolved := []

namespace State

variable (s : State)

def begin (operation : Operation) : State :=
  { s with
    operations := Function.update s.operations s.nextOperation (some operation)
    nextOperation := s.nextOperation + 1 }

/-- The connection is closed, and what it has subscribed to is dropped with it. -/
def closeSocket (i : Nat) : State :=
  { s with
    sockets := Function.update s.sockets i none
    operations := fun j => (s.operations j).filter (·.socket ≠ some i) }

end State

/-- A header that is malformed is rejected on a request, and is no header on an upgrade. A message
that comes too early or twice closes the connection. -/
def step (s : State) : Action → Option State
  | .post caller header =>
    match header with
    | .malformed => some s
    | _ =>
      some (s.begin
        { caller, socket := none, data := s.validator.validateToken jwt s.now header.ok })
  | .upgrade caller header =>
    some { s with
      sockets := Function.update s.sockets s.nextSocket (some ⟨caller, .upgraded header.ok⟩)
      nextSocket := s.nextSocket + 1 }
  | .connectionInit i payload =>
    match s.sockets i with
    | some ⟨caller, .upgraded httpAuthHeader⟩ =>
      match (connInitAuthHeader payload).or httpAuthHeader with
      | some token =>
        let data := s.validator.validateToken jwt s.now (some token)
        some { s with sockets := Function.update s.sockets i (some ⟨caller, .ready data⟩) }
      | none => some (s.closeSocket i)
    | some ⟨_, .ready _⟩ => some (s.closeSocket i)
    | none => none
  | .subscribe i =>
    match s.sockets i with
    | some ⟨caller, .ready data⟩ => some (s.begin { caller, socket := some i, data })
    | some ⟨_, .upgraded _⟩ => some (s.closeSocket i)
    | none => none
  | .resolve j url =>
    match s.operations j with
    | some operation =>
      some { s with
        resolved := s.resolved ++
          [{ caller := operation.caller, socket := operation.socket, process := s.process
             time := s.now, url, outcome := Authentication.resolve operation.data url }] }
    | none => none
  | .finish j =>
    match s.operations j with
    | some _ => some { s with operations := Function.update s.operations j none }
    | none => none
  | .close i =>
    match s.sockets i with
    | some _ => some (s.closeSocket i)
    | none => none
  | .advance seconds => some { s with now := s.now + seconds }
  | .rotate keys => some { s with issuerKeys := keys }
  | .restart =>
    some { s with
      process := s.process + 1
      validator := .new issuer s.issuerKeys audiences
      sockets := fun _ => none
      operations := fun _ => none }

end Step

section History

variable {Key : Type} (jwt : JsonWebToken Key) (issuer : String) (audiences : List String)
variable (first : State)

/-- The validator has the keys that the issuer had when the process was started. -/
def Booted (front : List Action) (m : State) : Prop :=
  ∃ earlier later u, exec (step jwt issuer audiences) first earlier = some u ∧
    m.validator = .new issuer u.issuerKeys audiences ∧ .restart ∉ later ∧
    (earlier = [] ∧ front = later ∨ front = earlier ++ .restart :: later)

/-- The caller presents the token with the action, and on a connection either with the message
that initialises it or, where that has none, with the upgrade before. -/
inductive Presents (front : List Action) (m : State) :
    Action → Nat → Option Nat → Option String → Prop
  | post {caller : Nat} {header : AuthorizationHeader} (hheader : header ≠ .malformed) :
    Presents front m (.post caller header) caller none header.ok
  | payload {i caller : Nat} {header : AuthorizationHeader} {payload : Json} {token : String}
    (hupgrade : .upgrade caller header ∈ front)
    (hsocket : m.sockets i = some ⟨caller, .upgraded header.ok⟩)
    (hpayload : connInitAuthHeader payload = some token) :
    Presents front m (.connectionInit i payload) caller (some i) (some token)
  | header {i caller : Nat} {payload : Json} {token : String}
    (hupgrade : .upgrade caller (.bearer token) ∈ front)
    (hsocket : m.sockets i = some ⟨caller, .upgraded (some token)⟩)
    (hpayload : connInitAuthHeader payload = none) :
    Presents front m (.connectionInit i payload) caller (some i) (some token)

/-- The caller presented the token in the state `m` of the run, to the process and not after the
time. -/
structure PresentedIn (actions : List Action) (process time caller : Nat) (socket : Option Nat)
    (m : State) (token : Option String) : Prop where
  presents : ∃ front a back, actions = front ++ a :: back ∧
    exec (step jwt issuer audiences) first front = some m ∧ Presents front m a caller socket token ∧
    Booted jwt issuer audiences first front m
  process_eq : m.process = process
  now_le : m.now ≤ time

def Authenticated (actions : List Action) (process time caller : Nat) (socket : Option Nat)
    (data : ValidatedAuthToken) : Prop :=
  ∃ m token, PresentedIn jwt issuer audiences first actions process time caller socket m token ∧
    data = m.validator.validateToken jwt m.now token

def SocketTraced (actions : List Action) (s : State) (i : Nat) : GraphQLWebSocket → Prop
  | ⟨caller, .upgraded httpAuthHeader⟩ =>
    ∃ header, .upgrade caller header ∈ actions ∧ header.ok = httpAuthHeader
  | ⟨caller, .ready data⟩ =>
    Authenticated jwt issuer audiences first actions s.process s.now caller (some i) data

def OperationTraced (actions : List Action) (s : State) (o : Operation) : Prop :=
  Authenticated jwt issuer audiences first actions s.process s.now o.caller o.socket o.data

def ResolvedTraced (actions : List Action) (e : Resolved) : Prop :=
  ∃ data, e.outcome = resolve data e.url ∧
    Authenticated jwt issuer audiences first actions e.process e.time e.caller e.socket data

/-- What is held for a caller is what the validator said of a token of that caller. -/
structure Traced (actions : List Action) (s : State) : Prop where
  run : exec (step jwt issuer audiences) first actions = some s
  booted : Booted jwt issuer audiences first actions s
  socket : ∀ i socket, s.sockets i = some socket →
    SocketTraced jwt issuer audiences first actions s i socket
  operation : ∀ j o, s.operations j = some o → OperationTraced jwt issuer audiences first actions s o
  resolved : ∀ e ∈ s.resolved, ResolvedTraced jwt issuer audiences first actions e

/-- What the outcome of a field has to do with the token that was presented. -/
structure DecidedBy (m : State) (token : Option String) (e : Resolved) : Prop where
  sent_iff : ∀ request, e.outcome = .ok request ↔
    ∃ t, token = some t ∧ Accepts jwt m.validator m.now t ∧ request = ⟨e.url, t⟩
  refused : ∀ error, e.outcome = .error error → error.code = some "UNAUTHENTICATED"
  missing : token = none →
    e.outcome = .error (unauthenticated "Authentication error: Missing Bearer token")

end History

section Run

variable {Key : Type} {jwt : JsonWebToken Key} {issuer : String} {audiences : List String}
variable {first s t m : State} {actions front : List Action} {a : Action}

section Outcome

variable {validator : TokenValidator} {now : Nat}

theorem validateTokenWithJwt_eq_valid_iff {token t : String} :
    validator.validateTokenWithJwt jwt now token = .valid t ↔
      t = token ∧ Accepts jwt validator now token := by
  unfold TokenValidator.validateTokenWithJwt
  constructor
  · intro h
    split at h
    · cases h
    · cases h
    next keyId hheader =>
    split at h
    · cases h
    next jwk hjwk =>
    split at h
    · cases h
    next key hkey =>
    split_ifs at h with hdecode
    cases h
    exact ⟨rfl, ⟨keyId, jwk, key, hheader, hjwk, hkey, hdecode⟩⟩
  · rintro ⟨rfl, keyId, jwk, key, hheader, hjwk, hkey, hdecode⟩
    simp only [hheader, hjwk, hkey, hdecode, if_true]

theorem validateToken_eq_valid_iff {token : Option String} {t : String} :
    validator.validateToken jwt now token = .valid t ↔
      token = some t ∧ Accepts jwt validator now t := by
  cases token with
  | none => simp [TokenValidator.validateToken]
  | some token =>
    rw [TokenValidator.validateToken, validateTokenWithJwt_eq_valid_iff, Option.some.injEq]
    constructor
    · rintro ⟨rfl, h⟩
      exact ⟨rfl, h⟩
    · rintro ⟨rfl, h⟩
      exact ⟨rfl, h⟩

/-- The guard lets through only what a token can be read from. -/
theorem resolve_eq_ok_iff {data : ValidatedAuthToken} {url : String} {request : UpstreamRequest} :
    resolve data url = .ok request ↔ ∃ t, data = .valid t ∧ request = ⟨url, t⟩ := by
  cases data with
  | valid token => simp [resolve, check, getAuthToken, ValidatedAuthToken.asToken, eq_comm]
  | invalid => simp [resolve, check]
  | missing => simp [resolve, check]
  | failed reason => simp [resolve, check]

theorem code_of_resolve {data : ValidatedAuthToken} {url : String} {error : FieldError}
    (h : resolve data url = .error error) : error.code = some "UNAUTHENTICATED" := by
  cases data with
  | valid token => cases h
  | invalid =>
    cases h
    rfl
  | missing =>
    cases h
    rfl
  | failed reason =>
    cases h
    rfl

theorem decidedBy {token : Option String} {e : Resolved}
    (h : e.outcome = resolve (m.validator.validateToken jwt m.now token) e.url) :
    DecidedBy jwt m token e where
  sent_iff request := by
    rw [h, resolve_eq_ok_iff]
    simp only [validateToken_eq_valid_iff, and_assoc]
  refused error herror := code_of_resolve (h.symm.trans herror)
  missing htoken := by
    rw [h, htoken]
    rfl

end Outcome

theorem Authenticated.mono {process time time' caller : Nat} {socket : Option Nat}
    {data : ValidatedAuthToken}
    (h : Authenticated jwt issuer audiences first actions process time caller socket data)
    (htime : time ≤ time') (rest : List Action) :
    Authenticated jwt issuer audiences first (actions ++ rest) process time' caller socket data := by
  obtain ⟨m, token, ⟨⟨front, a, back, rfl, hrun, hpresents, hbooted⟩, hprocess, hnow⟩, hdata⟩ := h
  refine ⟨m, token, ⟨⟨front, a, back ++ rest, ?_, hrun, hpresents, hbooted⟩, hprocess, ?_⟩, hdata⟩
  · rw [List.append_assoc, List.cons_append]
  · omega

theorem SocketTraced.mono {i : Nat} {socket : GraphQLWebSocket}
    (h : SocketTraced jwt issuer audiences first actions s i socket)
    (hprocess : t.process = s.process) (hnow : s.now ≤ t.now) (rest : List Action) :
    SocketTraced jwt issuer audiences first (actions ++ rest) t i socket := by
  obtain ⟨caller, _ | data⟩ := socket
  · obtain ⟨header, hmem, hok⟩ := h
    exact ⟨header, List.mem_append_left _ hmem, hok⟩
  · have hdata : Authenticated jwt issuer audiences first actions s.process s.now caller (some i)
        data := h
    have hmono := hdata.mono hnow rest
    rw [← hprocess] at hmono
    exact hmono

theorem OperationTraced.mono {o : Operation}
    (h : OperationTraced jwt issuer audiences first actions s o) (hprocess : t.process = s.process)
    (hnow : s.now ≤ t.now) (rest : List Action) :
    OperationTraced jwt issuer audiences first (actions ++ rest) t o := by
  have hmono := Authenticated.mono h hnow rest
  rw [← hprocess] at hmono
  exact hmono

theorem ResolvedTraced.mono {e : Resolved}
    (h : ResolvedTraced jwt issuer audiences first actions e) (rest : List Action) :
    ResolvedTraced jwt issuer audiences first (actions ++ rest) e := by
  obtain ⟨data, houtcome, hdata⟩ := h
  exact ⟨data, houtcome, hdata.mono le_rfl rest⟩

theorem Booted.concat (h : Booted jwt issuer audiences first actions s) (ha : a ≠ .restart)
    (hvalidator : t.validator = s.validator) :
    Booted jwt issuer audiences first (actions ++ [a]) t := by
  obtain ⟨earlier, later, u, hrun, heq, hlater, hactions⟩ := h
  refine ⟨earlier, later ++ [a], u, hrun, hvalidator.trans heq, ?_, ?_⟩
  · simp only [List.mem_append, List.mem_singleton, not_or]
    exact ⟨hlater, fun h => ha h.symm⟩
  · obtain ⟨hearlier, rfl⟩ | rfl := hactions
    · exact .inl ⟨hearlier, rfl⟩
    · exact .inr (by simp)

/-- What is new after a step other than a restart has to be traced; what was there before is. -/
theorem Traced.next (h : Traced jwt issuer audiences first actions s)
    (hstep : step jwt issuer audiences s a = some t) (ha : a ≠ .restart)
    (hvalidator : t.validator = s.validator) (hprocess : t.process = s.process)
    (hnow : s.now ≤ t.now)
    (hsocket : ∀ i socket, t.sockets i = some socket → s.sockets i = some socket ∨
      SocketTraced jwt issuer audiences first (actions ++ [a]) t i socket)
    (hoperation : ∀ j o, t.operations j = some o → s.operations j = some o ∨
      OperationTraced jwt issuer audiences first (actions ++ [a]) t o)
    (hresolved : ∀ e ∈ t.resolved, e ∈ s.resolved ∨
      ResolvedTraced jwt issuer audiences first (actions ++ [a]) e) :
    Traced jwt issuer audiences first (actions ++ [a]) t where
  run := exec_append_eq_some.mpr ⟨s, h.run, exec_cons_eq_some.mpr ⟨t, hstep, rfl⟩⟩
  booted := h.booted.concat ha hvalidator
  socket i socket hi :=
    (hsocket i socket hi).elim (fun hs => (h.socket i socket hs).mono hprocess hnow [a]) id
  operation j o hj :=
    (hoperation j o hj).elim (fun hs => (h.operation j o hs).mono hprocess hnow [a]) id
  resolved e he := (hresolved e he).elim (fun hs => (h.resolved e hs).mono [a]) id

theorem Traced.closeSocket (h : Traced jwt issuer audiences first actions s) {i : Nat}
    (hstep : step jwt issuer audiences s a = some (s.closeSocket i)) (ha : a ≠ .restart) :
    Traced jwt issuer audiences first (actions ++ [a]) (s.closeSocket i) := by
  refine h.next hstep ha rfl rfl le_rfl (fun j socket hj => ?_) (fun j o hj => ?_)
    fun e he => .inl he
  · rcases eq_or_ne j i with rfl | hne
    · simp [State.closeSocket] at hj
    · exact .inl (by simpa [State.closeSocket, Function.update_of_ne hne] using hj)
  · exact .inl (Option.filter_eq_some_iff.mp hj).1

theorem Traced.begin (h : Traced jwt issuer audiences first actions s) {operation : Operation}
    (hstep : step jwt issuer audiences s a = some (s.begin operation)) (ha : a ≠ .restart)
    (hoperation : OperationTraced jwt issuer audiences first (actions ++ [a]) s operation) :
    Traced jwt issuer audiences first (actions ++ [a]) (s.begin operation) := by
  refine h.next hstep ha rfl rfl le_rfl (fun i socket hi => .inl hi) (fun j o hj => ?_)
    fun e he => .inl he
  rcases eq_or_ne j s.nextOperation with rfl | hne
  · simp only [State.begin, Function.update_self, Option.some.injEq] at hj
    subst hj
    exact .inr hoperation
  · exact .inl (by simpa [State.begin, Function.update_of_ne hne] using hj)

/-- What the validator says of a token that is presented now. -/
theorem Traced.authenticated (h : Traced jwt issuer audiences first actions s) {caller : Nat}
    {socket : Option Nat} {token : Option String}
    (hpresents : Presents actions s a caller socket token) :
    Authenticated jwt issuer audiences first (actions ++ [a]) s.process s.now caller socket
      (s.validator.validateToken jwt s.now token) :=
  ⟨s, token, ⟨⟨actions, a, [], rfl, h.run, hpresents, h.booted⟩, rfl, le_rfl⟩, rfl⟩

theorem Traced.post (h : Traced jwt issuer audiences first actions s) {caller : Nat}
    {header : AuthorizationHeader}
    (hstep : step jwt issuer audiences s (.post caller header) = some t) :
    Traced jwt issuer audiences first (actions ++ [.post caller header]) t := by
  have hbegin : ∀ hheader : header ≠ .malformed,
      t = s.begin ⟨caller, none, s.validator.validateToken jwt s.now header.ok⟩ →
      Traced jwt issuer audiences first (actions ++ [.post caller header]) t := by
    rintro hheader rfl
    exact h.begin hstep (by simp) (h.authenticated (.post hheader))
  cases header with
  | malformed =>
    cases hstep
    exact h.next rfl (by simp) rfl rfl le_rfl (fun i socket hi => .inl hi) (fun j o hj => .inl hj)
      fun e he => .inl he
  | missing => exact hbegin (by simp) (Option.some.inj hstep).symm
  | bearer token => exact hbegin (by simp) (Option.some.inj hstep).symm

theorem Traced.upgrade (h : Traced jwt issuer audiences first actions s) {caller : Nat}
    {header : AuthorizationHeader}
    (hstep : step jwt issuer audiences s (.upgrade caller header) = some t) :
    Traced jwt issuer audiences first (actions ++ [.upgrade caller header]) t := by
  obtain rfl := (Option.some.inj hstep).symm
  refine h.next hstep (by simp) rfl rfl le_rfl (fun i socket hi => ?_) (fun j o hj => .inl hj)
    fun e he => .inl he
  rcases eq_or_ne i s.nextSocket with rfl | hne
  · simp only [Function.update_self, Option.some.injEq] at hi
    subst hi
    exact .inr ⟨header, by simp, rfl⟩
  · simp only [Function.update_of_ne hne] at hi
    exact .inl hi

/-- The message has precedence over the upgrade. -/
theorem Traced.presents (h : Traced jwt issuer audiences first actions s) {i caller : Nat}
    {httpAuthHeader : Option String} {payload : Json} {token : String}
    (hsocket : s.sockets i = some ⟨caller, .upgraded httpAuthHeader⟩)
    (htoken : (connInitAuthHeader payload).or httpAuthHeader = some token) :
    Presents actions s (.connectionInit i payload) caller (some i) (some token) := by
  obtain ⟨header, hupgrade, rfl⟩ := h.socket i _ hsocket
  cases hpayload : connInitAuthHeader payload with
  | some inPayload =>
    rw [hpayload] at htoken
    cases htoken
    exact .payload hupgrade hsocket hpayload
  | none =>
    rw [hpayload, Option.none_or] at htoken
    cases header with
    | missing => cases htoken
    | malformed => cases htoken
    | bearer inHeader =>
      cases htoken
      exact .header hupgrade hsocket hpayload

theorem Traced.connectionInit (h : Traced jwt issuer audiences first actions s) {i : Nat}
    {payload : Json} (hstep : step jwt issuer audiences s (.connectionInit i payload) = some t) :
    Traced jwt issuer audiences first (actions ++ [.connectionInit i payload]) t := by
  have hnext := hstep
  rw [step] at hnext
  split at hnext
  next caller httpAuthHeader hsocket =>
    split at hnext
    next token htoken =>
      obtain rfl := (Option.some.inj hnext).symm
      refine h.next hstep (by simp) rfl rfl le_rfl (fun j socket hj => ?_) (fun j o hj => .inl hj)
        fun e he => .inl he
      rcases eq_or_ne j i with rfl | hne
      · simp only [Function.update_self, Option.some.injEq] at hj
        subst hj
        exact .inr (h.authenticated (h.presents hsocket htoken))
      · simp only [Function.update_of_ne hne] at hj
        exact .inl hj
    next =>
      obtain rfl := (Option.some.inj hnext).symm
      exact h.closeSocket hstep (by simp)
  next =>
    obtain rfl := (Option.some.inj hnext).symm
    exact h.closeSocket hstep (by simp)
  next => cases hnext

theorem Traced.subscribe (h : Traced jwt issuer audiences first actions s) {i : Nat}
    (hstep : step jwt issuer audiences s (.subscribe i) = some t) :
    Traced jwt issuer audiences first (actions ++ [.subscribe i]) t := by
  have hnext := hstep
  rw [step] at hnext
  split at hnext
  next caller data hsocket =>
    obtain rfl := (Option.some.inj hnext).symm
    have hdata : Authenticated jwt issuer audiences first actions s.process s.now caller (some i)
        data := h.socket i _ hsocket
    exact h.begin hstep (by simp) (hdata.mono le_rfl _)
  next =>
    obtain rfl := (Option.some.inj hnext).symm
    exact h.closeSocket hstep (by simp)
  next => cases hnext

theorem Traced.resolve (h : Traced jwt issuer audiences first actions s) {j : Nat} {url : String}
    (hstep : step jwt issuer audiences s (.resolve j url) = some t) :
    Traced jwt issuer audiences first (actions ++ [.resolve j url]) t := by
  have hnext := hstep
  rw [step] at hnext
  split at hnext
  next operation hoperation =>
    obtain rfl := (Option.some.inj hnext).symm
    refine h.next hstep (by simp) rfl rfl le_rfl (fun i socket hi => .inl hi)
      (fun j o hj => .inl hj) fun e he => ?_
    obtain he | he := List.mem_append.mp he
    · exact .inl he
    · rw [List.mem_singleton.mp he]
      have hdata : OperationTraced jwt issuer audiences first actions s operation :=
        h.operation j operation hoperation
      exact .inr ⟨operation.data, rfl, Authenticated.mono hdata le_rfl _⟩
  next => cases hnext

theorem Traced.finish (h : Traced jwt issuer audiences first actions s) {j : Nat}
    (hstep : step jwt issuer audiences s (.finish j) = some t) :
    Traced jwt issuer audiences first (actions ++ [.finish j]) t := by
  have hnext := hstep
  rw [step] at hnext
  split at hnext
  next operation hoperation =>
    obtain rfl := (Option.some.inj hnext).symm
    refine h.next hstep (by simp) rfl rfl le_rfl (fun i socket hi => .inl hi) (fun k o hk => ?_)
      fun e he => .inl he
    rcases eq_or_ne k j with rfl | hne
    · simp at hk
    · simp only [Function.update_of_ne hne] at hk
      exact .inl hk
  next => cases hnext

theorem Traced.restart (h : Traced jwt issuer audiences first actions s)
    (hstep : step jwt issuer audiences s .restart = some t) :
    Traced jwt issuer audiences first (actions ++ [.restart]) t := by
  obtain rfl := (Option.some.inj hstep).symm
  exact
    { run := exec_append_eq_some.mpr ⟨s, h.run, exec_cons_eq_some.mpr ⟨_, hstep, rfl⟩⟩
      booted := ⟨actions, [], s, h.run, rfl, by simp, .inr rfl⟩
      socket := fun i socket hi => by cases hi
      operation := fun j o hj => by cases hj
      resolved := fun e he => (h.resolved e he).mono [.restart] }

theorem traced_step (h : Traced jwt issuer audiences first actions s)
    (hstep : step jwt issuer audiences s a = some t) :
    Traced jwt issuer audiences first (actions ++ [a]) t := by
  cases a with
  | post caller header => exact h.post hstep
  | upgrade caller header => exact h.upgrade hstep
  | connectionInit i payload => exact h.connectionInit hstep
  | subscribe i => exact h.subscribe hstep
  | resolve j url => exact h.resolve hstep
  | finish j => exact h.finish hstep
  | close i =>
    have hnext := hstep
    rw [step] at hnext
    split at hnext
    next =>
      obtain rfl := (Option.some.inj hnext).symm
      exact h.closeSocket hstep (by simp)
    next => cases hnext
  | advance seconds =>
    obtain rfl := (Option.some.inj hstep).symm
    exact h.next hstep (by simp) rfl rfl (Nat.le_add_right _ _) (fun i socket hi => .inl hi)
      (fun j o hj => .inl hj) fun e he => .inl he
  | rotate keys =>
    obtain rfl := (Option.some.inj hstep).symm
    exact h.next hstep (by simp) rfl rfl le_rfl (fun i socket hi => .inl hi)
      (fun j o hj => .inl hj) fun e he => .inl he
  | restart => exact h.restart hstep

theorem traced_start (keys : List Jwk) (now : Nat) :
    Traced jwt issuer audiences (start issuer audiences keys now) []
      (start issuer audiences keys now) where
  run := rfl
  booted := ⟨[], [], _, rfl, rfl, by simp, .inl ⟨rfl, rfl⟩⟩
  socket i socket hi := by cases hi
  operation j o hj := by cases hj
  resolved e he := by cases he

end Run

section Examples

/-- Tokens of one key, which expire at time 100. -/
def exampleTokens : JsonWebToken Unit where
  decodeHeader _ := some (some "k")
  fromJwk _ := .ok ()
  decode _ _ validation now := now ≤ 100 + validation.leeway

def exampleKeys : List Jwk := [⟨some "k", ""⟩]

/-- One caller subscribes long after the connection was initialised, another posts by then. -/
def exampleActions : List Action :=
  [.upgrade 1 (.bearer "t"), .connectionInit 0 .null, .advance 1000, .rotate [], .subscribe 0,
    .resolve 0 "workflow-events", .post 2 (.bearer "u"), .resolve 1 "workflows"]

end Examples

end Workflows.GraphProxy.Authentication
