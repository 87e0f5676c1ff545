import Workflows.Auth.Services
import Mathlib.Data.Finset.Option

/-!
# Refreshes that fail after their exchange

An identity provider may withdraw a refresh token as soon as it is exchanged. Each of the services
stores the new token by steps that can fail, and none of them keeps it when one does: the place
that it reads its token from next is left as it was, with the token that was withdrawn.
-/

namespace Workflows.Auth

open AuthCore AuthBroker Execution

/-- Who refreshes: a call of the broker for a subject, or a request to a store. -/
inductive Refresher where
  | broker (subject : String)
  | store (store : Store)
  deriving DecidableEq

/-- The refresh token that the refresher reads next. -/
def State.place (s : State) : Refresher → Option String
  | .broker subject => (s.database subject).map (·.refreshToken)
  | .store (.session n) => (s.sessions n).map (·.refreshToken)
  | .store (.daemon d) => (s.daemons d).map (·.refreshToken)

/-- The refresh tokens that the provider takes. -/
structure Provider where
  valid : Finset String

/-- The refresh token that the provider issues in an action. -/
def Action.issued : Action → Option String
  | .broker (.respond _ (some response)) => response.refreshToken
  | .request _ (.exchange (some response)) => response.refreshToken
  | .callback _ token _ => some token.refreshToken
  | _ => none

/-- The refresh token that is exchanged in an action. -/
def Action.presented (s : State) : Action → Option String
  | .broker (.respond i (some _)) =>
    match s.broker.calls i with
    | some ⟨_, .exchanging _ stored _⟩ => some stored.refreshTokenSecret
    | _ => none
  | .request i (.exchange (some _)) =>
    match s.requests i with
    | some ⟨_, .exchanging token _⟩ => some token.refreshToken
    | _ => none
  | _ => none

/-- A token is withdrawn when it is exchanged. -/
def Provider.after (provider : Provider) (s : State) (a : Action) : Provider where
  valid := a.issued.toFinset ∪ provider.valid \ (a.presented s).toFinset

/-- The services with the provider they use. -/
structure Served where
  state : State
  provider : Provider

def serve (crates : Crates) (x : Served) (a : Action) : Option Served :=
  (step crates x.state a).map fun state => { state, provider := x.provider.after x.state a }

/-- The refresher can still read a token that the provider takes. -/
def Served.Usable (x : Served) (r : Refresher) : Prop :=
  ∃ token, x.state.place r = some token ∧ token ∈ x.provider.valid

def Served.Withdrawn (old : String) (x : Served) : Prop := old ∉ x.provider.valid

def Served.Reaches (crates : Crates) (old : String) : Served → Served → Prop :=
  Execution.Reaches (serve crates) fun a => a.issued ≠ some old

/-- A refresh exchanges `old` in `x` and fails by the step from `u` to `t`. In between everything may
happen, but `old` is not issued again. -/
inductive FailsAfterExchange (crates : Crates) (response : TokenResponse) (x : Served) :
    Refresher → String → Served → Served → Prop where
  /-- The expiry is out of range or the issuer is no URL. -/
  | brokerConversion {i subject lock stored exchange t}
      (hcall : x.state.broker.calls i = some ⟨subject, .exchanging lock stored exchange⟩)
      (hexchange : serve crates x (.broker (.respond i (some response))) = some t)
      (hfailed : t.state.broker.calls i = some ⟨subject, .done none⟩) :
      FailsAfterExchange crates response x (.broker subject) stored.refreshTokenSecret x t
  | brokerWrite {i subject lock stored exchange y u t}
      (hcall : x.state.broker.calls i = some ⟨subject, .exchanging lock stored exchange⟩)
      (hexchange : serve crates x (.broker (.respond i (some response))) = some y)
      (hbetween : Served.Reaches crates stored.refreshTokenSecret y u)
      (hfails : serve crates u (.broker (.write i false)) = some t) :
      FailsAfterExchange crates response x (.broker subject) stored.refreshTokenSecret u t
  /-- The expiry is out of range. -/
  | conversion {i store token retry t}
      (hrequest : x.state.requests i = some ⟨store, .exchanging token retry⟩)
      (hexchange : serve crates x (.request i (.exchange (some response))) = some t)
      (hfailed : t.state.requests i = some ⟨store, .error⟩) :
      FailsAfterExchange crates response x (.store store) token.refreshToken x t
  | write {i store token retry y u t}
      (hrequest : x.state.requests i = some ⟨store, .exchanging token retry⟩)
      (hexchange : serve crates x (.request i (.exchange (some response))) = some y)
      (hbetween : Served.Reaches crates token.refreshToken y u)
      (hfails : serve crates u (.request i (.write false)) = some t) :
      FailsAfterExchange crates response x (.store store) token.refreshToken u t
  /-- A daemon saves to its memory, which cannot fail. -/
  | save {i n token retry y u t}
      (hrequest : x.state.requests i = some ⟨.session n, .exchanging token retry⟩)
      (hexchange : serve crates x (.request i (.exchange (some response))) = some y)
      (hbetween : Served.Reaches crates token.refreshToken y u)
      (hfails : serve crates u (.request i (.save false)) = some t) :
      FailsAfterExchange crates response x (.store (.session n)) token.refreshToken u t

section Steps

variable {crates : Crates} {response : TokenResponse} {s t : State}

theorem step_broker {a : AuthBroker.Action} (h : step crates s (.broker a) = some t) :
    ∃ broker, AuthBroker.step crates s.broker a = some broker ∧ t = { s with broker } := by
  obtain ⟨broker, hstep, heq⟩ := Option.map_eq_some_iff.mp h
  exact ⟨broker, hstep, heq.symm⟩

theorem database_respond {i : Nat} {answer : Option TokenResponse}
    (h : step crates s (.broker (.respond i answer)) = some t) : t.database = s.database := by
  obtain ⟨broker, hstep, rfl⟩ := step_broker h
  obtain ⟨subject, lock, stored, exchange, -, ⟨-, rfl⟩ | ⟨response, -, rfl⟩⟩ := step_respond hstep
  · rfl
  · rfl

theorem database_write_false {i : Nat} (h : step crates s (.broker (.write i false)) = some t) :
    t.database = s.database := by
  obtain ⟨broker, hstep, rfl⟩ := step_broker h
  obtain ⟨subject, lock, cached, -, ⟨hok, -⟩ | ⟨-, rfl⟩⟩ := step_write hstep
  · cases hok
  · rfl

theorem step_request {i : Nat} {event : Event} (h : step crates s (.request i event) = some t) :
    ∃ store phase next, s.requests i = some ⟨store, phase⟩ ∧
      phase.next crates store.service s.broker.now (s.loadToken store) event = some next ∧
      t = ((s.write (phase.written event)).store store (phase.stored event)).setRequest i
        ⟨store, next⟩ := by
  simp only [step] at h
  split at h
  next store phase hi =>
    obtain ⟨next, hnext, heq⟩ := Option.map_eq_some_iff.mp h
    exact ⟨store, phase, next, hi, hnext, heq.symm⟩
  next => cases h

/-- Where no token is stored, the sessions and the daemons keep theirs. -/
theorem place_request {i : Nat} {event : Event} (h : step crates s (.request i event) = some t)
    (hstored : ∀ phase : RequestPhase, phase.stored event = none) (store : Store) :
    t.place (.store store) = s.place (.store store) := by
  obtain ⟨own, phase, next, -, -, rfl⟩ := step_request h
  rw [hstored phase, State.store_none]
  cases store with
  | session n =>
    simp only [State.place, State.sessions_setRequest, State.sessions_write]
  | daemon d =>
    simp only [State.place, State.daemons_setRequest, State.daemons_write]

theorem place_exchange {i : Nat} {answer : Option TokenResponse}
    (h : step crates s (.request i (.exchange answer)) = some t) (store : Store) :
    t.place (.store store) = s.place (.store store) :=
  place_request h (fun phase => by cases phase <;> rfl) store

theorem place_write {i : Nat} {ok : Bool}
    (h : step crates s (.request i (.write ok)) = some t) (store : Store) :
    t.place (.store store) = s.place (.store store) :=
  place_request h (fun phase => by cases phase <;> rfl) store

theorem place_save_false {i : Nat} (h : step crates s (.request i (.save false)) = some t)
    (store : Store) : t.place (.store store) = s.place (.store store) :=
  place_request h (fun phase => by cases phase <;> rfl) store

end Steps

section Provider

variable {crates : Crates} {response : TokenResponse} {x u t : Served} {r : Refresher}
  {old : String}

theorem serve_eq_some {a : Action} :
    serve crates x a = some t ↔
      step crates x.state a = some t.state ∧ t.provider = x.provider.after x.state a := by
  rw [serve, Option.map_eq_some_iff]
  constructor
  · rintro ⟨state, hstep, rfl⟩
    exact ⟨hstep, rfl⟩
  · rintro ⟨hstep, hprovider⟩
    obtain ⟨state, provider⟩ := t
    obtain rfl : provider = _ := hprovider
    exact ⟨state, hstep, rfl⟩

theorem mem_valid_serve {a : Action} (h : serve crates x a = some t) :
    old ∈ t.provider.valid ↔
      a.issued = some old ∨ old ∈ x.provider.valid ∧ a.presented x.state ≠ some old := by
  rw [(serve_eq_some.mp h).2, Provider.after, Finset.mem_union, Finset.mem_sdiff,
    Option.mem_toFinset, Option.mem_toFinset, Option.mem_def, Option.mem_def]

/-- What is not issued again stays withdrawn. -/
theorem withdrawn_serve {a : Action} (hold : x.Withdrawn old) (hnew : a.issued ≠ some old)
    (h : serve crates x a = some t) : t.Withdrawn old := by
  rw [Served.Withdrawn, mem_valid_serve h]
  rintro (hissued | ⟨hvalid, -⟩)
  · exact hnew hissued
  · exact hold hvalid

theorem withdrawn_exchange {a : Action} (hpresented : a.presented x.state = some old)
    (hnew : a.issued ≠ some old) (h : serve crates x a = some t) : t.Withdrawn old := by
  rw [Served.Withdrawn, mem_valid_serve h]
  rintro (hissued | ⟨-, hkept⟩)
  · exact hnew hissued
  · exact hkept hpresented

theorem withdrawn_reaches (hold : x.Withdrawn old) (h : Served.Reaches crates old x u) :
    u.Withdrawn old :=
  Execution.Reaches.invariant (fun _ _ _ => withdrawn_serve) hold h

/-- The step that fails leaves the place as it was. -/
theorem place_of_fails (h : FailsAfterExchange crates response x r old u t) :
    t.state.place r = u.state.place r := by
  cases h with
  | brokerConversion hcall hexchange hfailed =>
    rw [State.place, State.place, database_respond (serve_eq_some.mp hexchange).1]
  | brokerWrite hcall hexchange hbetween hfails =>
    rw [State.place, State.place, database_write_false (serve_eq_some.mp hfails).1]
  | conversion hrequest hexchange hfailed => exact place_exchange (serve_eq_some.mp hexchange).1 _
  | write hrequest hexchange hbetween hfails => exact place_write (serve_eq_some.mp hfails).1 _
  | save hrequest hexchange hbetween hfails => exact place_save_false (serve_eq_some.mp hfails).1 _

theorem presented_respond {i : Nat} {subject : String} {lock exchange : Nat} {stored : StoredToken}
    {s : State} (hcall : s.broker.calls i = some ⟨subject, .exchanging lock stored exchange⟩) :
    (Action.broker (.respond i (some response))).presented s = some stored.refreshTokenSecret := by
  simp only [Action.presented, hcall]

theorem presented_exchange {i : Nat} {store : Store} {token : TokenData} {retry : Bool} {s : State}
    (hrequest : s.requests i = some ⟨store, .exchanging token retry⟩) :
    (Action.request i (.exchange (some response))).presented s = some token.refreshToken := by
  simp only [Action.presented, hrequest]

theorem withdrawn_of_fails (h : FailsAfterExchange crates response x r old u t)
    (hnew : response.refreshToken ≠ some old) : t.Withdrawn old := by
  cases h with
  | brokerConversion hcall hexchange hfailed =>
    exact withdrawn_exchange (presented_respond hcall) hnew hexchange
  | brokerWrite hcall hexchange hbetween hfails =>
    have hgone := withdrawn_exchange (presented_respond hcall) hnew hexchange
    refine withdrawn_serve (withdrawn_reaches hgone hbetween) ?_ hfails
    exact nofun
  | conversion hrequest hexchange hfailed =>
    exact withdrawn_exchange (presented_exchange hrequest) hnew hexchange
  | write hrequest hexchange hbetween hfails =>
    have hgone := withdrawn_exchange (presented_exchange hrequest) hnew hexchange
    refine withdrawn_serve (withdrawn_reaches hgone hbetween) ?_ hfails
    exact nofun
  | save hrequest hexchange hbetween hfails =>
    have hgone := withdrawn_exchange (presented_exchange hrequest) hnew hexchange
    refine withdrawn_serve (withdrawn_reaches hgone hbetween) ?_ hfails
    exact nofun

end Provider

section Examples

def rotatedResponse : TokenResponse where
  accessToken := "a1"
  expiresIn := some 300
  refreshToken := some "r1"

def exchangedToken : TokenData where
  issuer := "https://issuer"
  subject := "ulid1"
  accessToken := none
  accessTokenExpiresAt := 0
  refreshToken := "r0"

/-- The row, a session and a daemon hold `r0`, which a request and the broker have exchanged. -/
def exchanged (store : Store) : State where
  __ := State.init (Function.update (fun _ => none) "ulid1" (some ⟨"https://issuer", "r0", none⟩)) 0
  broker :=
    { AuthBroker.State.init
        (Function.update (fun _ => none) "ulid1" (some ⟨"https://issuer", "r0", none⟩)) 0 with
      calls := Function.update (fun _ => none) 0
        (some ⟨"ulid1", .exchanging 0 ⟨"https://issuer", "ulid1", "r0"⟩ 0⟩)
      nextCall := 1 }
  sessions := Function.update (fun _ => none) 0 (some exchangedToken)
  daemons := Function.update (fun _ => none) 0 (some exchangedToken)
  nextDaemon := 1
  requests := Function.update (fun _ => none) 0 (some ⟨store, .exchanging exchangedToken false⟩)
  nextRequest := 1

def withoutUrls : Crates where
  __ := exampleCrates
  issuerUrl _ := false

/-- The provider takes `r0`. -/
def servedExchanged (store : Store) : Served := ⟨exchanged store, ⟨{"r0"}⟩⟩

def loggedInToken : TokenData where
  issuer := "https://issuer"
  subject := "ulid1"
  accessToken := some "a2"
  accessTokenExpiresAt := 300
  refreshToken := "r2"

theorem broker_fails :
    ∃ t, FailsAfterExchange withoutUrls rotatedResponse (servedExchanged (.daemon 0))
      (.broker "ulid1") (StoredToken.mk "https://issuer" "ulid1" "r0").refreshTokenSecret
      (servedExchanged (.daemon 0)) t := by
  obtain ⟨t, ht⟩ : ∃ t, serve withoutUrls (servedExchanged (.daemon 0))
      (.broker (.respond 0 (some rotatedResponse))) = some t := ⟨_, rfl⟩
  refine ⟨t, .brokerConversion rfl ht ?_⟩
  cases ht
  rfl

theorem daemon_fails :
    ∃ u t, FailsAfterExchange exampleCrates rotatedResponse (servedExchanged (.daemon 0))
      (.store (.daemon 0)) exchangedToken.refreshToken u t ∧
        u.state.place (.store (.daemon 0)) = some "r0" := by
  obtain ⟨u, hu⟩ : ∃ u, serve exampleCrates (servedExchanged (.daemon 0))
      (.request 0 (.exchange (some rotatedResponse))) = some u := ⟨_, rfl⟩
  obtain ⟨t, ht⟩ : ∃ t, serve exampleCrates u (.request 0 (.write false)) = some t := by
    cases hu
    exact ⟨_, rfl⟩
  refine ⟨u, t, .write rfl hu (.refl u) ht, ?_⟩
  cases hu
  rfl

/-- A login takes place before the write that fails. -/
theorem session_fails :
    ∃ u t, FailsAfterExchange exampleCrates rotatedResponse (servedExchanged (.session 0))
      (.store (.session 0)) exchangedToken.refreshToken u t ∧
        u.state.place (.store (.session 0)) = some "r2" ∧ "r2" ∈ t.provider.valid := by
  obtain ⟨y, hy⟩ : ∃ y, serve exampleCrates (servedExchanged (.session 0))
      (.request 0 (.exchange (some rotatedResponse))) = some y := ⟨_, rfl⟩
  obtain ⟨u, hu⟩ : ∃ u, serve exampleCrates y (.callback 0 loggedInToken true) = some u :=
    ⟨_, rfl⟩
  obtain ⟨t, ht⟩ : ∃ t, serve exampleCrates u (.request 0 (.write false)) = some t := by
    cases hy
    cases hu
    exact ⟨_, rfl⟩
  refine ⟨u, t, .write rfl hy (.single (by decide) hu) ht, ?_⟩
  cases hy
  cases hu
  cases ht
  exact ⟨rfl, by decide⟩

end Examples

end Workflows.Auth
