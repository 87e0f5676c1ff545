import Workflows.Auth.Logout
import Workflows.Auth.Tokens
import Mathlib.Data.List.Induction

/-!
# Whose tokens the services hold

A session holds tokens of those who logged in with it, a daemon those of the subject it was started
for, and the row and the cache entry of a subject are of its own tokens. A refresh keeps all of
this as long as the provider answers with tokens of the subject that the refresh token is of.
-/

namespace Workflows.Auth

open AuthCore Execution

/-- The provider's answer is for the subject that the refresh token is of. -/
def Issues (owns : String → String → Prop) (refreshToken : String) (response : TokenResponse) :
    Prop :=
  ∀ subject, owns subject refreshToken → owns subject response.accessToken ∧
    ∀ new ∈ response.refreshToken, owns subject new

structure TokenOwned (owns : String → String → Prop) (token : TokenData) : Prop where
  access : ∀ accessToken ∈ token.accessToken, owns token.subject accessToken
  refresh : owns token.subject token.refreshToken

/-- The provider logs in and refreshes with tokens of the subject. -/
def Honest (owns : String → String → Prop) (s : State) : Action → Prop
  | .callback _ token _ => TokenOwned owns token
  | .request i (.exchange (some response)) =>
    ∀ store token retry, s.requests i = some ⟨store, .exchanging token retry⟩ →
      Issues owns token.refreshToken response
  | .broker (.respond i (some response)) =>
    ∀ caller lock stored e, s.broker.calls i = some ⟨caller, .exchanging lock stored e⟩ →
      Issues owns stored.refreshTokenSecret response
  | _ => True

structure CachedOwned (owns : String → String → Prop) (subject : String)
    (cached : AuthBroker.CachedToken) : Prop where
  subject_eq : cached.subject = subject
  access : owns subject cached.accessToken.secret
  refresh : owns subject cached.refreshToken

def CallOwned (owns : String → String → Prop) : AuthBroker.Call → Prop
  | ⟨subject, .exchanging _ stored _⟩ => owns subject stored.refreshTokenSecret
  | ⟨subject, .writing _ cached⟩ => CachedOwned owns subject cached
  | ⟨subject, .inserting _ cached⟩ => CachedOwned owns subject cached
  | ⟨subject, .done (some token)⟩ => owns subject token.secret
  | _ => True

structure BrokerOwned (owns : String → String → Prop) (b : AuthBroker.State) : Prop where
  row : ∀ subject row, b.database subject = some row → owns subject row.refreshToken
  cache : ∀ subject cached, b.tokenCache subject = some cached → CachedOwned owns subject cached
  call : ∀ i c, b.calls i = some c → CallOwned owns c

/-- Each token is held under the subject it belongs to. -/
structure Owned (owns : String → String → Prop) (s : State) : Prop where
  broker : BrokerOwned owns s.broker
  tokens : AllTokens (fun _ => TokenOwned owns) s

/-- The subject whose login the action saves in the session. -/
def loggedIn (n : Nat) : Action → Option String
  | .callback m token true => if m = n then some token.subject else none
  | _ => none

def started : Action → Option String
  | .startDaemon subject => some subject
  | _ => none

/-- A session has tokens of those who logged in with it, the `d`-th daemon to be started of the
subject it was started for. -/
def Origin (actions : List Action) : Store → TokenData → Prop
  | .session n, token => token.subject ∈ actions.filterMap (loggedIn n)
  | .daemon d, token => (actions.filterMap started)[d]? = some token.subject

variable {crates : Crates} {s t : State}

section Ownership

variable {owns : String → String → Prop} {b b' : AuthBroker.State}

theorem TokenOwned.updateTokens {token new : TokenData} {response : TokenResponse} {now : Int}
    (h : TokenOwned owns token) (hissues : Issues owns token.refreshToken response)
    (hnew : token.updateTokens crates response now = some new) : TokenOwned owns new := by
  obtain ⟨haccess, hrefresh⟩ := hissues token.subject h.refresh
  obtain ⟨expiresAt, -, rfl⟩ := Option.map_eq_some_iff.mp hnew
  refine ⟨fun accessToken hget => ?_, ?_⟩
  · cases hget
    exact haccess
  · cases hresponse : response.refreshToken with
    | none => exact h.refresh
    | some refreshToken => exact hrefresh refreshToken hresponse

theorem CallOwned.afterResponse {now : Int} {lock e : Nat} {stored : StoredToken}
    {caller : String} {response : TokenResponse} (h : owns caller stored.refreshTokenSecret)
    (hissues : Issues owns stored.refreshTokenSecret response) :
    CallOwned owns
      ⟨caller, AuthBroker.afterResponse crates now lock stored e caller response⟩ := by
  obtain ⟨haccess, hrefresh⟩ := hissues caller h
  have howns : owns caller (response.refreshToken.getD stored.refreshTokenSecret) := by
    cases hresponse : response.refreshToken with
    | none => exact h
    | some refreshToken => exact hrefresh refreshToken hresponse
  unfold AuthBroker.afterResponse
  split
  · exact trivial
  · split_ifs
    · exact ⟨rfl, haccess, howns⟩
    · exact ⟨rfl, haccess, howns⟩
    · exact trivial

namespace BrokerOwned

theorem setPhase (h : BrokerOwned owns b) {i : Nat} {caller : String} {q : AuthBroker.Phase}
    (hq : CallOwned owns ⟨caller, q⟩) : BrokerOwned owns (b.setPhase i caller q) where
  row := h.row
  cache := h.cache
  call j c hj := by
    obtain ⟨-, rfl⟩ | ⟨-, hj⟩ := AuthBroker.calls_setPhase hj
    · exact hq
    · exact h.call j c hj

theorem congr (h : BrokerOwned owns b) (hrow : b'.database = b.database)
    (hcache : b'.tokenCache = b.tokenCache) (hcalls : b'.calls = b.calls) : BrokerOwned owns b' where
  row := hrow ▸ h.row
  cache := hcache ▸ h.cache
  call := hcalls ▸ h.call

theorem writeRow (h : BrokerOwned owns b) {token : RefreshTokenInfo} {now : Int}
    (htoken : owns token.subject token.refreshTokenSecret) :
    BrokerOwned owns { b with database := writeTokenToDatabase b.database token now } where
  row subject row hrow := by
    rcases eq_or_ne subject token.subject with rfl | hne
    · simp only [writeTokenToDatabase, Function.update_self, Option.some.injEq] at hrow
      subst hrow
      exact htoken
    · simp only [writeTokenToDatabase, Function.update_of_ne hne] at hrow
      exact h.row subject row hrow
  cache := h.cache
  call := h.call

theorem deleteRow (h : BrokerOwned owns b) (subject : String) :
    BrokerOwned owns { b with database := deleteTokenFromDatabase b.database subject } where
  row other row hrow := by
    rcases eq_or_ne other subject with rfl | hne
    · cases (deleteTokenFromDatabase_self b.database other).symm.trans hrow
    · simp only [deleteTokenFromDatabase, Function.update_of_ne hne] at hrow
      exact h.row other row hrow
  cache := h.cache
  call := h.call

theorem setCache (h : BrokerOwned owns b) {subject : String}
    {cached : Option AuthBroker.CachedToken} (hcached : ∀ c ∈ cached, CachedOwned owns subject c) :
    BrokerOwned owns { b with tokenCache := Function.update b.tokenCache subject cached } where
  row := h.row
  cache other c hc := by
    rcases eq_or_ne other subject with rfl | hne
    · simp only [Function.update_self] at hc
      exact hcached c hc
    · simp only [Function.update_of_ne hne] at hc
      exact h.cache other c hc
  call := h.call

theorem cachedToken (h : BrokerOwned owns b) {subject : String} {token : AuthBroker.AccessToken}
    (htoken : b.cachedToken subject = some token) : owns subject token.secret := by
  obtain ⟨cached, hcached, hget⟩ := Option.bind_eq_some_iff.mp htoken
  split_ifs at hget
  cases hget
  exact (h.cache subject cached hcached).access

theorem read (h : BrokerOwned owns b) {subject : String} {stored : StoredToken}
    (hread : readTokenFromDatabase b.database subject none b.now = .ok stored) :
    stored.subject = subject ∧ owns subject stored.refreshTokenSecret := by
  obtain ⟨hsubject, row, hrow, hsecret⟩ := readTokenFromDatabase_eq_ok hread
  exact ⟨hsubject, hsecret ▸ h.row subject row hrow⟩

theorem step {a : AuthBroker.Action} (h : BrokerOwned owns b)
    (hhonest : ∀ i response, a = .respond i (some response) → ∀ caller lock stored e,
      b.calls i = some ⟨caller, .exchanging lock stored e⟩ →
        Issues owns stored.refreshTokenSecret response)
    (hstep : AuthBroker.step crates b a = some b') : BrokerOwned owns b' := by
  cases a with
  | advance seconds =>
    cases hstep
    exact h.congr rfl rfl rfl
  | start caller =>
    cases hstep
    exact (h.setPhase (q := .lookup) trivial).congr rfl rfl rfl
  | lookup i =>
    obtain ⟨caller, -, ⟨token, htoken, rfl⟩ | rfl⟩ := AuthBroker.step_lookup hstep
    · exact h.setPhase (h.cachedToken htoken)
    · exact h.setPhase trivial
  | takeEntry i =>
    obtain ⟨caller, -, ⟨lock, -, rfl⟩ | ⟨-, rfl⟩⟩ := AuthBroker.step_takeEntry hstep
    · exact h.setPhase trivial
    · exact (h.setPhase (q := .waiting b.nextLock) trivial).congr rfl rfl rfl
  | acquire i =>
    obtain ⟨caller, lock, -, -, rfl⟩ := AuthBroker.step_acquire hstep
    exact h.setPhase trivial
  | relookup i =>
    obtain ⟨caller, lock, -, ⟨token, htoken, rfl⟩ | rfl⟩ := AuthBroker.step_relookup hstep
    · exact h.setPhase (h.cachedToken htoken)
    · exact h.setPhase trivial
  | read i ok =>
    obtain ⟨caller, lock, -, ⟨stored, hread, rfl⟩ | rfl⟩ := AuthBroker.step_read hstep
    · exact (h.setPhase (q := .exchanging lock stored b.nextExchange) (h.read hread).2).congr
        rfl rfl rfl
    · exact h.setPhase trivial
  | respond i answer =>
    obtain ⟨caller, lock, stored, e, hi, ⟨-, rfl⟩ | ⟨response, rfl, rfl⟩⟩ :=
      AuthBroker.step_respond hstep
    · exact (h.setPhase (q := .done none) trivial).congr rfl rfl rfl
    · have howns : owns caller stored.refreshTokenSecret := h.call i _ hi
      have hissues := hhonest i response rfl caller lock stored e hi
      exact (h.setPhase (CallOwned.afterResponse howns hissues)).congr rfl rfl rfl
  | write i ok =>
    obtain ⟨caller, lock, cached, hi, ⟨-, rfl⟩ | ⟨-, rfl⟩⟩ := AuthBroker.step_write hstep
    · have hcached : CachedOwned owns caller cached := h.call i _ hi
      have htoken : owns cached.refreshTokenInfo.subject
          cached.refreshTokenInfo.refreshTokenSecret := by
        simp only [AuthBroker.CachedToken.refreshTokenInfo, hcached.subject_eq]
        exact hcached.refresh
      exact ((h.setPhase (q := .inserting lock cached) hcached).writeRow htoken).congr rfl rfl rfl
    · exact h.setPhase trivial
  | insert i =>
    obtain ⟨caller, lock, cached, hi, rfl⟩ := AuthBroker.step_insert hstep
    have hcached : CachedOwned owns caller cached := h.call i _ hi
    have hset := h.setPhase (i := i) (q := .done (some cached.accessToken)) hcached.access
    refine hset.setCache fun c hc => ?_
    cases hc
    exact hcached
  | evict caller =>
    cases hstep
    refine h.setCache fun c hc => ?_
    cases hc
  | wake =>
    obtain ⟨cleanup, rfl⟩ := AuthBroker.step_scan (.inl rfl) hstep
    exact h.congr rfl rfl rfl
  | inspect caller =>
    obtain ⟨cleanup, rfl⟩ := AuthBroker.step_scan (.inr (.inl ⟨caller, rfl⟩)) hstep
    exact h.congr rfl rfl rfl
  | endScan =>
    obtain ⟨cleanup, rfl⟩ := AuthBroker.step_scan (.inr (.inr rfl)) hstep
    exact h.congr rfl rfl rfl
  | removeLock =>
    obtain ⟨caller, stale, -, rfl⟩ | ⟨-, rfl⟩ := AuthBroker.step_removeLock hstep
    · exact h.congr rfl rfl rfl
    · exact h.congr rfl rfl rfl

end BrokerOwned

theorem Owned.supplies {a : Action} (h : Owned owns s) (hhonest : Honest owns s a) :
    Supplies crates (fun _ => TokenOwned owns) s a := by
  unfold Supplies
  split
  next n token saved => exact fun _ => hhonest
  next subject =>
    intro row hread
    obtain ⟨rfl, howns⟩ := h.broker.read hread
    exact ⟨fun _ haccess => (nomatch haccess), howns⟩
  next i response =>
    intro store token retry new hi hnew htoken
    exact htoken.updateTokens (hhonest store token retry hi) hnew
  next => exact trivial

theorem BrokerOwned.write (h : BrokerOwned owns s.broker) {token : Option TokenData}
    (htoken : ∀ t ∈ token, TokenOwned owns t) : BrokerOwned owns (s.write token).broker := by
  cases token with
  | none => exact h
  | some token =>
    have howns : owns token.refreshTokenInfo.subject token.refreshTokenInfo.refreshTokenSecret :=
      (htoken token rfl).refresh
    exact h.writeRow howns

/-- Besides the broker, logins, refreshes and logouts change rows. -/
theorem BrokerOwned.services {a : Action} (h : Owned owns s) (hhonest : Honest owns s a)
    (hstep : Auth.step crates s a = some t) : BrokerOwned owns t.broker := by
  cases a with
  | broker action =>
    obtain ⟨broker, hbroker, rfl⟩ := Option.map_eq_some_iff.mp hstep
    refine h.broker.step (fun i response ha => ?_) hbroker
    subst ha
    exact hhonest
  | callback n token saved =>
    have hwrite : BrokerOwned owns (s.write (some token)).broker :=
      h.broker.write fun t ht => Option.some.inj ht ▸ hhonest
    cases hstep
    cases saved <;> exact hwrite
  | request i event =>
    simp only [Auth.step] at hstep
    split at hstep
    next store phase hi =>
      obtain ⟨next, -, rfl⟩ := Option.map_eq_some_iff.mp hstep
      simp only [State.broker_setRequest, State.broker_store]
      exact h.broker.write fun token htoken =>
        h.tokens.request i _ token hi (token_of_written htoken)
    next => cases hstep
  | deleteRow i ok =>
    simp only [Auth.step] at hstep
    split at hstep
    next n subject hi =>
      split_ifs at hstep
      · cases hstep
        exact h.broker.deleteRow subject
      · cases hstep
        exact h.broker
    next => cases hstep
  | startDaemon subject =>
    simp only [Auth.step] at hstep
    split at hstep
    next => cases hstep
    next =>
      split_ifs at hstep
      cases hstep
      exact h.broker
  | saveSession i =>
    simp only [Auth.step] at hstep
    split at hstep
    next =>
      split_ifs at hstep
      cases hstep
      exact h.broker
    next => cases hstep
  | findToken i ok =>
    simp only [Auth.step] at hstep
    split at hstep
    next =>
      split_ifs at hstep
      · split at hstep <;> cases hstep <;> exact h.broker
      · cases hstep
        exact h.broker
    next => cases hstep
  | flush i =>
    simp only [Auth.step] at hstep
    split at hstep
    next =>
      cases hstep
      exact h.broker
    next => cases hstep
  | expireSession _ | stopDaemon _ | arrive _ | logout _ =>
    cases hstep
    exact h.broker

theorem Owned.step {a : Action} (h : Owned owns s) (hhonest : Honest owns s a)
    (hstep : Auth.step crates s a = some t) : Owned owns t where
  broker := BrokerOwned.services h hhonest hstep
  tokens := h.tokens.step (h.supplies hhonest) hstep

/-- No interleaving of logins, requests, daemons and the broker puts a token under a subject it
does not belong to. -/
theorem tokens_owned {database : Database} {now : Int} {actions : List Action}
    (hrows : ∀ subject row, database subject = some row → owns subject row.refreshToken)
    (hhonest : AllSteps (Auth.step crates) (Honest owns) (.init database now) actions)
    (h : exec (Auth.step crates) (.init database now) actions = some s) : Owned owns s := by
  refine invariant_of_allSteps (fun _ _ _ hs ha => hs.step ha) ⟨⟨hrows, ?_, ?_⟩, .init ..⟩ hhonest h
  · exact fun _ _ hcached => nomatch hcached
  · exact fun _ _ hcall => nomatch hcall

def exampleOwns (subject token : String) : Prop :=
  (subject = "ulid1" ∧ token ∈ ["a0", "r0", "a1", "r1"]) ∨ (subject = "ulid2" ∧ token = "r2")

def exampleRow : Row where
  issuer := "https://issuer"
  refreshToken := "r2"
  expiresAt := none

def exampleDatabase : Database := Function.update (fun _ => none) "ulid2" (some exampleRow)

/-- A login whose request is refused and refreshes, and a daemon of someone else. -/
def exampleServices : List Action :=
  [.callback 0 exampleToken true, .arrive (.session 0), .request 0 (.load true),
    .startDaemon "ulid2", .request 0 (.respond ⟨401, none⟩ true),
    .request 0 (.exchange (some ⟨"a1", some 300, some "r1"⟩)), .request 0 (.write true)]

theorem exampleOwns_database (subject : String) (row : Row)
    (hrow : exampleDatabase subject = some row) : exampleOwns subject row.refreshToken := by
  rcases eq_or_ne subject "ulid2" with rfl | hne
  · cases hrow
    exact .inr ⟨rfl, rfl⟩
  · simp [exampleDatabase, hne] at hrow

theorem exampleOwns_issues : Issues exampleOwns "r0" ⟨"a1", some 300, some "r1"⟩ := by
  rintro subject (⟨rfl, -⟩ | ⟨-, hr⟩)
  · refine ⟨.inl ⟨rfl, by decide⟩, fun new hnew => ?_⟩
    cases hnew
    exact .inl ⟨rfl, by decide⟩
  · exact absurd hr (by decide)

theorem exampleOwns_login : TokenOwned exampleOwns exampleToken where
  access accessToken haccess := by
    cases haccess
    exact .inl ⟨rfl, by decide⟩
  refresh := .inl ⟨rfl, by decide⟩

theorem tokens_owned_example :
    ∃ s, exec (Auth.step exampleCrates) (.init exampleDatabase 0) exampleServices = some s ∧
      Owned exampleOwns s := by
  obtain ⟨s, hs⟩ : ∃ s, exec (Auth.step exampleCrates) (.init exampleDatabase 0) exampleServices =
      some s := ⟨_, rfl⟩
  refine ⟨s, hs, tokens_owned exampleOwns_database ?_ hs⟩
  refine .cons exampleOwns_login rfl ?_
  refine .cons trivial rfl (.cons trivial rfl (.cons trivial rfl (.cons trivial rfl ?_)))
  refine .cons (fun store token retry hi => ?_) rfl (.cons trivial rfl trivial)
  cases hi
  exact exampleOwns_issues

end Ownership

section Confinement

variable {database : Database} {now : Int}

theorem Origin.append {actions : List Action} {a : Action} {store : Store} {token : TokenData}
    (h : Origin actions store token) : Origin (actions ++ [a]) store token := by
  cases store with
  | session n =>
    simp only [Origin, List.filterMap_append, List.mem_append] at h ⊢
    exact .inl h
  | daemon d =>
    simp only [Origin, List.filterMap_append] at h ⊢
    rw [List.getElem?_append_left (List.getElem?_eq_some_iff.mp h).1]
    exact h

theorem Origin.of_subject_eq {actions : List Action} {store : Store} {token new : TokenData}
    (h : Origin actions store token) (hsubject : new.subject = token.subject) :
    Origin actions store new := by
  cases store with
  | session n =>
    rw [Origin, hsubject]
    exact h
  | daemon d =>
    rw [Origin, hsubject]
    exact h

theorem nextDaemon_step {a : Action} (hstep : step crates s a = some t) :
    t.nextDaemon = s.nextDaemon + ([a].filterMap started).length := by
  cases a with
  | broker action =>
    obtain ⟨broker, -, rfl⟩ := Option.map_eq_some_iff.mp hstep
    rfl
  | startDaemon subject =>
    simp only [step] at hstep
    split at hstep
    next => cases hstep
    next =>
      split_ifs at hstep
      cases hstep
      rfl
  | callback n token saved =>
    cases hstep
    cases saved <;> rfl
  | request i event =>
    simp only [step] at hstep
    split at hstep
    next store phase hi =>
      obtain ⟨next, -, rfl⟩ := Option.map_eq_some_iff.mp hstep
      cases phase.written event <;> cases phase.stored event <;> cases store <;> rfl
    next => cases hstep
  | saveSession i =>
    simp only [step] at hstep
    split at hstep
    next =>
      split_ifs at hstep
      cases hstep
      rfl
    next => cases hstep
  | findToken i ok =>
    simp only [step] at hstep
    split at hstep
    next =>
      split_ifs at hstep
      · split at hstep <;> cases hstep <;> rfl
      · cases hstep
        rfl
    next => cases hstep
  | deleteRow i ok =>
    simp only [step] at hstep
    split at hstep
    next => split_ifs at hstep <;> cases hstep <;> rfl
    next => cases hstep
  | flush i =>
    simp only [step] at hstep
    split at hstep
    next =>
      cases hstep
      rfl
    next => cases hstep
  | expireSession _ | stopDaemon _ | arrive _ | logout _ =>
    cases hstep
    rfl

/-- The action that brings a token into a store is the one its origin names. -/
theorem supplies_origin {actions : List Action} {a : Action}
    (hnext : s.nextDaemon = (actions.filterMap started).length) :
    Supplies crates (Origin (actions ++ [a])) s a := by
  unfold Supplies
  split
  next n token saved =>
    rintro rfl
    simp [Origin, loggedIn]
  next subject =>
    intro row hread
    have hsubject := (readTokenFromDatabase_eq_ok hread).1
    simp only [Origin, List.filterMap_append, hnext]
    rw [List.getElem?_append_right (Nat.le_refl _), Nat.sub_self, hsubject]
    rfl
  next i response =>
    intro store token retry new hi hnew horigin
    exact horigin.of_subject_eq (TokenData.updateTokens_subject hnew)
  next => exact trivial

theorem nextDaemon_eq {actions : List Action}
    (h : exec (step crates) (.init database now) actions = some s) :
    s.nextDaemon = (actions.filterMap started).length := by
  induction actions using List.reverseRecOn generalizing s with
  | nil =>
    cases h
    rfl
  | append_singleton actions a ih =>
    obtain ⟨m, hm, hlast⟩ := exec_append_eq_some.mp h
    obtain ⟨t, ht, hnil⟩ := exec_cons_eq_some.mp hlast
    cases hnil
    rw [nextDaemon_step ht, ih hm, List.filterMap_append, List.length_append]

/-- Sessions and daemons never get at each other's tokens. -/
theorem tokens_confined {actions : List Action}
    (h : exec (step crates) (.init database now) actions = some s) :
    AllTokens (Origin actions) s := by
  induction actions using List.reverseRecOn generalizing s with
  | nil =>
    cases h
    exact .init database now
  | append_singleton actions a ih =>
    obtain ⟨m, hm, hlast⟩ := exec_append_eq_some.mp h
    obtain ⟨t, ht, hnil⟩ := exec_cons_eq_some.mp hlast
    cases hnil
    exact ((ih hm).mono fun _ _ => Origin.append).step (supplies_origin (nextDaemon_eq hm)) ht

theorem tokens_confined_example :
    ∃ s, exec (step exampleCrates) (.init exampleDatabase 0) exampleServices = some s ∧
      AllTokens (Origin exampleServices) s := by
  obtain ⟨s, hs⟩ : ∃ s, exec (step exampleCrates) (.init exampleDatabase 0) exampleServices =
      some s := ⟨_, rfl⟩
  exact ⟨s, hs, tokens_confined hs⟩

end Confinement

end Workflows.Auth
