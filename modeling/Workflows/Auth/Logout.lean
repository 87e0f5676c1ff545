import Workflows.Auth.Services

/-!
# Whether a logout is final

Deleting a row does not reach the copies of its token: other sessions and the one being logged out,
requests on their way, daemons, and broker calls between their read and their write. Each of them
can write the row again, and once none of them is left nothing does until the next login.
-/

namespace Workflows.Auth

open AuthCore Execution

def NoCallback (subject : String) : Action → Prop
  | .callback _ token _ => token.subject ≠ subject
  | _ => True

/-- Without a login the subject has no row from here on. -/
def Final (crates : Crates) (s : State) (subject : String) : Prop :=
  ∀ t, Reaches (step crates) (NoCallback subject) s t → t.database subject = none

/-- The token with which a request can still refresh, or which its session will keep. -/
def Request.held : Request → Option TokenData
  | ⟨_, .exchanging token _⟩ => some token
  | ⟨_, .writing token _⟩ => some token
  | ⟨_, .saving token _⟩ => some token
  | ⟨_, .forwarding token _ false⟩ => some token
  | ⟨.session _, .forwarding token true true⟩ => some token
  | ⟨.session _, .responded status saved⟩ => if status < 500 then saved else none
  | _ => none

/-- No service has a token of the subject that it could still refresh and store. -/
structure Released (crates : Crates) (s : State) (subject : String) : Prop where
  session : ∀ n token, s.sessions n = some token → token.subject ≠ subject
  daemon : ∀ d token, s.daemons d = some token → token.subject ≠ subject
  request : ∀ i request token, s.requests i = some request →
    request.held = some token → token.subject ≠ subject
  exchange : ∀ i lock stored e, s.broker.calls i = some ⟨subject, .exchanging lock stored e⟩ →
    crates.issuerUrl stored.issuer = false
  write : ∀ i caller lock cached, s.broker.calls i = some ⟨caller, .writing lock cached⟩ →
    cached.subject ≠ subject

variable {crates : Crates} {s t : State} {subject : String}

section Resurrection

theorem Final.step {a : Action} (h : Final crates s subject) (ha : NoCallback subject a)
    (hstep : step crates s a = some t) : Final crates t subject :=
  fun u hu => h u (.head ha hstep hu)

theorem Final.row (h : Final crates s subject) : s.database subject = none :=
  h s (.refl s)

theorem Final.request {i : Nat} {store : Store} {phase next : RequestPhase}
    (h : Final crates s subject) (event : Event) (hi : s.requests i = some ⟨store, phase⟩)
    (hnext : phase.next crates store.service s.broker.now (s.loadToken store) event = some next) :
    Final crates (((s.write (phase.written event)).store store (phase.stored event)).setRequest i
      ⟨store, next⟩) subject := by
  refine h.step (a := .request i event) trivial ?_
  simp [Auth.step, hi, hnext]

theorem Final.writing {i : Nat} {store : Store} {token : TokenData} {retry : Bool}
    (h : Final crates s subject) (hi : s.requests i = some ⟨store, .writing token retry⟩)
    : token.subject ≠ subject := by
  rintro rfl
  have hrow := (h.request (.write true) hi rfl).row
  simp only [State.database, State.broker_setRequest, State.broker_store] at hrow
  exact s.database_write_self token hrow

theorem Final.exchanging {i : Nat} {store : Store} {token : TokenData} {retry : Bool}
    (h : Final crates s subject) (hi : s.requests i = some ⟨store, .exchanging token retry⟩)
    : token.subject ≠ subject := by
  have hnext : (RequestPhase.exchanging token retry).next crates store.service s.broker.now
      (s.loadToken store) (.exchange (some ⟨"", some 0, none⟩)) =
      some (.writing { token with accessToken := some "", accessTokenExpiresAt := s.broker.now }
        retry) := by
    simp [RequestPhase.next, RequestPhase.afterExchange, TokenData.updateTokens,
      crates.addDuration_zero]
  have hwriting := (h.request _ hi hnext).writing (State.requests_setRequest_self ..)
  exact hwriting

theorem Final.forwarding {i : Nat} {store : Store} {token : TokenData} {refreshed : Bool}
    (h : Final crates s subject)
    (hi : s.requests i = some ⟨store, .forwarding token refreshed false⟩)
    : token.subject ≠ subject := by
  have hnext : (RequestPhase.forwarding token refreshed false).next crates store.service
      s.broker.now (s.loadToken store) (.respond ⟨401, none⟩ true) =
      some (.exchanging token true) := by
    cases store <;> rfl
  exact (h.request _ hi hnext).exchanging (State.requests_setRequest_self ..)

/-- A new request loads the token and refreshes it, at once or when it is refused. -/
theorem Final.loaded {token : TokenData} (h : Final crates s subject) (store : Store)
    (hload : s.loadToken store true = some token) :
    token.subject ≠ subject := by
  have harrived := h.step (a := .arrive store) trivial rfl
  have hself := State.requests_setRequest_self s s.nextRequest ⟨store, .loading⟩
  by_cases hexpired : store.service.isExpired token s.broker.now
  · have hnext : RequestPhase.loading.next crates store.service s.broker.now (s.loadToken store)
        (.load true) = some (.exchanging token false) := by
      simp [RequestPhase.next, RequestPhase.afterLoad, hload, hexpired]
    exact (harrived.request _ hself hnext).exchanging (State.requests_setRequest_self ..)
  · have hnext : RequestPhase.loading.next crates store.service s.broker.now (s.loadToken store)
        (.load true) = some (.forwarding token false false) := by
      simp [RequestPhase.next, RequestPhase.afterLoad, hload, hexpired]
    exact (harrived.request _ hself hnext).forwarding (State.requests_setRequest_self ..)

theorem Final.session {n : Nat} {token : TokenData} (h : Final crates s subject)
    (hn : s.sessions n = some token) : token.subject ≠ subject :=
  h.loaded (.session n) hn

theorem Final.daemon {d : Nat} {token : TokenData} (h : Final crates s subject)
    (hd : s.daemons d = some token) : token.subject ≠ subject :=
  h.loaded (.daemon d) hd

theorem Final.responded {i n status : Nat} {token : TokenData} (h : Final crates s subject)
    (hi : s.requests i = some ⟨.session n, .responded status (some token)⟩)
    (hstatus : status < 500) :
    token.subject ≠ subject := by
  have hsaved := h.step (a := .saveSession i) trivial (by simp only [Auth.step, hi, hstatus]; rfl)
  exact hsaved.session (n := n) (Function.update_self ..)

theorem Final.refreshed {i n : Nat} {token : TokenData} (h : Final crates s subject)
    (hi : s.requests i = some ⟨.session n, .forwarding token true true⟩) :
    token.subject ≠ subject := by
  have hnext : (RequestPhase.forwarding token true true).next crates .gateway s.broker.now
      (s.loadToken (.session n)) (.respond ⟨200, none⟩ true) =
      some (.responded 200 (some token)) := rfl
  exact (h.request _ hi hnext).responded (State.requests_setRequest_self ..) (by decide)

theorem Final.saving {i : Nat} {store : Store} {token : TokenData} {retry : Bool}
    (h : Final crates s subject) (hi : s.requests i = some ⟨store, .saving token retry⟩)
    : token.subject ≠ subject := by
  have hsaved := h.request (.save true) hi rfl
  have hself := State.requests_setRequest_self (s.store store (some token)) i
    ⟨store, .forwarding token true retry⟩
  cases store with
  | session n =>
    cases retry with
    | false => exact hsaved.forwarding hself
    | true => exact hsaved.refreshed hself
  | daemon d => exact hsaved.daemon (d := d) (Function.update_self ..)

theorem Final.held {i : Nat} {request : Request} {token : TokenData} (h : Final crates s subject)
    (hi : s.requests i = some request)
    (hheld : request.held = some token) : token.subject ≠ subject := by
  unfold Request.held at hheld
  split at hheld
  · cases hheld
    exact h.exchanging hi
  · cases hheld
    exact h.writing hi
  · cases hheld
    exact h.saving hi
  · cases hheld
    exact h.forwarding hi
  · cases hheld
    exact h.refreshed hi
  · split_ifs at hheld with hstatus
    subst hheld
    exact h.responded hi hstatus
  · cases hheld

theorem Final.brokerWriting (h : Final crates s subject) (i : Nat) (caller : String) (lock : Nat)
    (cached : AuthBroker.CachedToken)
    (hi : s.broker.calls i = some ⟨caller, .writing lock cached⟩) : cached.subject ≠ subject := by
  rintro rfl
  have hwritten := h.step (a := .broker (.write i true)) trivial
    (by simp only [Auth.step, AuthBroker.step, hi]; rfl)
  have hrow := hwritten.row
  simp [State.database, writeTokenToDatabase, AuthBroker.CachedToken.refreshTokenInfo] at hrow

theorem Final.brokerExchanging {i lock e : Nat} {stored : StoredToken}
    (h : Final crates s subject)
    (hi : s.broker.calls i = some ⟨subject, .exchanging lock stored e⟩) :
    crates.issuerUrl stored.issuer = false := by
  -- an issuer that is no URL fails the call after the exchange and before its write
  by_contra hissuer
  have hanswered := h.step (a := .broker (.respond i (some ⟨"", some 0, some ""⟩))) trivial
    (by simp only [Auth.step, AuthBroker.step, hi]; rfl)
  have hwriting := hanswered.brokerWriting i subject lock
    ⟨⟨"", e⟩, s.broker.now, "", stored.issuer, subject⟩
    (by simp [AuthBroker.State.setExchange, AuthBroker.afterResponse, crates.addDuration_zero,
      hissuer])
  exact hwriting rfl

theorem Final.released (h : Final crates s subject) : Released crates s subject where
  session _ _ hn := h.session hn
  daemon _ _ hd := h.daemon hd
  request _ _ _ hi hheld := h.held hi hheld
  exchange _ _ _ _ hi := h.brokerExchanging hi
  write i caller lock cached hi := h.brokerWriting i caller lock cached hi

end Resurrection

section Preservation

/-- The part of `Released` that is about the broker, with the row it cannot read. -/
structure BrokerReleased (crates : Crates) (b : AuthBroker.State) (subject : String) : Prop where
  row : b.database subject = none
  exchange : ∀ i lock stored e, b.calls i = some ⟨subject, .exchanging lock stored e⟩ →
    crates.issuerUrl stored.issuer = false
  write : ∀ i caller lock cached, b.calls i = some ⟨caller, .writing lock cached⟩ →
    cached.subject ≠ subject

variable {b b' : AuthBroker.State}

theorem BrokerReleased.congr (h : BrokerReleased crates b subject)
    (hrow : b'.database subject = b.database subject)
    (hcalls : ∀ i c, b'.calls i = some c → b.calls i = some c ∨ c.phase.exchange = none) :
    BrokerReleased crates b' subject where
  row := hrow.trans h.row
  exchange i lock stored e hi :=
    (hcalls i _ hi).elim (h.exchange i lock stored e) fun hnone => nomatch hnone
  write i caller lock cached hi :=
    (hcalls i _ hi).elim (h.write i caller lock cached) fun hnone => nomatch hnone

theorem BrokerReleased.setPhase (h : BrokerReleased crates b subject) {i : Nat} {caller : String}
    {q : AuthBroker.Phase} (hq : q.exchange = none) :
    BrokerReleased crates (b.setPhase i caller q) subject := by
  refine h.congr rfl fun j c hj => ?_
  obtain ⟨-, rfl⟩ | ⟨-, hj⟩ := AuthBroker.calls_setPhase hj
  · exact .inr hq
  · exact .inl hj

theorem afterResponse_eq_writing {now : Int} {lock lock' e : Nat} {stored : StoredToken}
    {caller : String} {response : TokenResponse} {cached : AuthBroker.CachedToken}
    (h : AuthBroker.afterResponse crates now lock stored e caller response =
      .writing lock' cached) :
    crates.issuerUrl stored.issuer = true ∧ cached.subject = caller := by
  unfold AuthBroker.afterResponse at h
  split at h
  · cases h
  · split_ifs at h with hissuer
    cases h
    exact ⟨hissuer, rfl⟩

theorem BrokerReleased.step {a : AuthBroker.Action} (h : BrokerReleased crates b subject)
    (hstep : AuthBroker.step crates b a = some b') : BrokerReleased crates b' subject := by
  cases a with
  | advance seconds =>
    cases hstep
    exact h.congr rfl fun _ _ => .inl
  | start caller =>
    cases hstep
    exact (h.setPhase (q := .lookup) rfl).congr rfl fun _ _ => .inl
  | lookup i =>
    obtain ⟨caller, -, ⟨token, -, rfl⟩ | rfl⟩ := AuthBroker.step_lookup hstep
    · exact h.setPhase rfl
    · exact h.setPhase rfl
  | takeEntry i =>
    obtain ⟨caller, -, ⟨lock, -, rfl⟩ | ⟨-, rfl⟩⟩ := AuthBroker.step_takeEntry hstep
    · exact h.setPhase rfl
    · exact (h.setPhase (q := .waiting b.nextLock) rfl).congr rfl fun _ _ => .inl
  | acquire i =>
    obtain ⟨caller, lock, -, -, rfl⟩ := AuthBroker.step_acquire hstep
    exact h.setPhase rfl
  | relookup i =>
    obtain ⟨caller, lock, -, ⟨token, -, rfl⟩ | rfl⟩ := AuthBroker.step_relookup hstep
    · exact h.setPhase rfl
    · exact h.setPhase rfl
  | read i ok =>
    obtain ⟨caller, lock, -, ⟨stored, hread, rfl⟩ | rfl⟩ := AuthBroker.step_read hstep
    · obtain ⟨-, row, hrow, -⟩ := readTokenFromDatabase_eq_ok hread
      refine ⟨h.row, fun j lock' stored' e hj => ?_, fun j caller' lock' cached hj => ?_⟩
      · obtain ⟨-, heq⟩ | ⟨-, hj⟩ := AuthBroker.calls_setPhase hj
        · cases heq
          cases h.row.symm.trans hrow
        · exact h.exchange j lock' stored' e hj
      · obtain ⟨-, heq⟩ | ⟨-, hj⟩ := AuthBroker.calls_setPhase hj
        · cases heq
        · exact h.write j caller' lock' cached hj
    · exact h.setPhase rfl
  | respond i answer =>
    obtain ⟨caller, lock, stored, e, hi, ⟨-, rfl⟩ | ⟨response, -, rfl⟩⟩ :=
      AuthBroker.step_respond hstep
    · exact (h.setPhase (q := .done none) rfl).congr rfl fun _ _ => .inl
    · refine ⟨h.row, fun j lock' stored' e' hj => ?_, fun j caller' lock' cached hj => ?_⟩
      · obtain ⟨-, heq⟩ | ⟨-, hj⟩ := AuthBroker.calls_setPhase hj
        · have hphase := congrArg AuthBroker.Call.phase heq
          exact absurd hphase.symm AuthBroker.afterResponse_ne_exchanging
        · exact h.exchange j lock' stored' e' hj
      · obtain ⟨-, heq⟩ | ⟨-, hj⟩ := AuthBroker.calls_setPhase hj
        · obtain ⟨hissuer, hsubject⟩ :=
            afterResponse_eq_writing (congrArg AuthBroker.Call.phase heq).symm
          rintro rfl
          subst hsubject
          cases hissuer.symm.trans (h.exchange i lock stored e hi)
        · exact h.write j caller' lock' cached hj
  | write i ok =>
    obtain ⟨caller, lock, cached, hi, ⟨-, rfl⟩ | ⟨-, rfl⟩⟩ := AuthBroker.step_write hstep
    · have hne : subject ≠ cached.subject := (h.write i caller lock cached hi).symm
      exact (h.setPhase (q := .inserting lock cached) rfl).congr (Function.update_of_ne hne ..)
        fun _ _ => .inl
    · exact h.setPhase rfl
  | insert i =>
    obtain ⟨caller, lock, cached, -, rfl⟩ := AuthBroker.step_insert hstep
    exact (h.setPhase (q := .done (some cached.accessToken)) rfl).congr rfl fun _ _ => .inl
  | evict caller =>
    cases hstep
    exact h.congr rfl fun _ _ => .inl
  | wake =>
    obtain ⟨cleanup, rfl⟩ := AuthBroker.step_scan (.inl rfl) hstep
    exact h.congr rfl fun _ _ => .inl
  | inspect caller =>
    obtain ⟨cleanup, rfl⟩ := AuthBroker.step_scan (.inr (.inl ⟨caller, rfl⟩)) hstep
    exact h.congr rfl fun _ _ => .inl
  | endScan =>
    obtain ⟨cleanup, rfl⟩ := AuthBroker.step_scan (.inr (.inr rfl)) hstep
    exact h.congr rfl fun _ _ => .inl
  | removeLock =>
    obtain ⟨caller, stale, -, rfl⟩ | ⟨-, rfl⟩ := AuthBroker.step_removeLock hstep
    · exact h.congr rfl fun _ _ => .inl
    · exact h.congr rfl fun _ _ => .inl

theorem Released.broker (h : Released crates s subject) (hrow : s.database subject = none) :
    BrokerReleased crates s.broker subject :=
  ⟨hrow, h.exchange, h.write⟩

/-- A request gets the token it holds from its store or keeps the subject of the one it had. -/
theorem held_next {store : Store} {phase next : RequestPhase} {now : Int}
    {loadToken : Bool → Option TokenData} {event : Event} {token : TokenData}
    (hnext : phase.next crates store.service now loadToken event = some next)
    (hheld : Request.held ⟨store, next⟩ = some token) :
    (∃ ok, loadToken ok = some token) ∨
      ∃ old, Request.held ⟨store, phase⟩ = some old ∧ token.subject = old.subject := by
  -- only a load brings in a token: a refresh keeps the subject of the one it had
  cases phase <;> cases event <;> cases hnext
  case loading.load ok =>
    left
    refine ⟨ok, ?_⟩
    cases hload : loadToken ok with
    | none =>
      rw [hload] at hheld
      cases store <;> cases hheld
    | some loaded =>
      simp only [hload, RequestPhase.afterLoad] at hheld
      split_ifs at hheld <;> exact hheld
  case exchanging.exchange old retry answer =>
    right
    refine ⟨old, rfl, ?_⟩
    cases answer with
    | none => cases store <;> cases hheld
    | some response =>
      simp only [RequestPhase.afterExchange] at hheld
      split at hheld
      next new hnew =>
        cases hheld
        exact TokenData.updateTokens_subject hnew
      next => cases store <;> cases hheld
  case writing.write old retry ok =>
    right
    refine ⟨old, rfl, ?_⟩
    cases ok with
    | false => cases store <;> cases hheld
    | true =>
      cases hheld
      rfl
  case saving.save old retry ok =>
    right
    refine ⟨old, rfl, ?_⟩
    cases ok with
    | false => cases store <;> cases hheld
    | true => cases retry <;> cases store <;> cases hheld <;> rfl
  case forwarding.respond old refreshed retry response complete =>
    right
    simp only [RequestPhase.afterForward] at hheld
    split_ifs at hheld with hbody hretry hrefreshed
    · cases store <;> cases hheld
    · cases retry with
      | false =>
        cases hheld
        exact ⟨token, rfl, rfl⟩
      | true => simp at hretry
    · subst hrefreshed
      cases store with
      | session n =>
        simp only [Request.held] at hheld
        split_ifs at hheld
        cases hheld
        cases retry <;> exact ⟨token, rfl, rfl⟩
      | daemon d => cases hheld
    · cases store with
      | session n =>
        simp only [Request.held] at hheld
        split_ifs at hheld
      | daemon d => cases hheld

theorem Released.setRequest (h : Released crates s subject) (i : Nat) (request : Request)
    (hrequest : ∀ token, request.held = some token → token.subject ≠ subject) :
    Released crates (s.setRequest i request) subject where
  session := h.session
  daemon := h.daemon
  request j other token hj hheld := by
    rcases eq_or_ne j i with rfl | hji
    · rw [State.requests_setRequest_self, Option.some.injEq] at hj
      exact hrequest token (hj ▸ hheld)
    · rw [State.requests_setRequest_of_ne s i request hji] at hj
      exact h.request j other token hj hheld
  exchange := h.exchange
  write := h.write

theorem Released.setSession (h : Released crates s subject) (n : Nat) (token : Option TokenData)
    (htoken : ∀ t ∈ token, t.subject ≠ subject) :
    Released crates { s with sessions := Function.update s.sessions n token } subject where
  session m token' hm := by
    rcases eq_or_ne m n with rfl | hmn
    · simp only [Function.update_self] at hm
      exact htoken token' hm
    · simp only [Function.update_of_ne hmn] at hm
      exact h.session m token' hm
  daemon := h.daemon
  request := h.request
  exchange := h.exchange
  write := h.write

theorem Released.setDaemon (h : Released crates s subject) (d : Nat) (token : Option TokenData)
    (htoken : ∀ t ∈ token, t.subject ≠ subject) :
    Released crates { s with daemons := Function.update s.daemons d token } subject where
  session := h.session
  daemon m token' hm := by
    rcases eq_or_ne m d with rfl | hmd
    · simp only [Function.update_self] at hm
      exact htoken token' hm
    · simp only [Function.update_of_ne hmd] at hm
      exact h.daemon m token' hm
  request := h.request
  exchange := h.exchange
  write := h.write

theorem Released.store (h : Released crates s subject) {store : Store} {token : Option TokenData}
    (htoken : ∀ t ∈ token, t.subject ≠ subject) :
    Released crates (s.store store token) subject := by
  cases token with
  | none => exact h
  | some token =>
    cases store with
    | session n => exact h
    | daemon d => exact h.setDaemon d (some token) htoken

theorem Released.writeRow (h : Released crates s subject) (token : Option TokenData) :
    Released crates (s.write token) subject := by
  cases token with
  | none => exact h
  | some token => exact ⟨h.session, h.daemon, h.request, h.exchange, h.write⟩

theorem row_write (hrow : s.database subject = none) {token : Option TokenData}
    (htoken : ∀ t ∈ token, t.subject ≠ subject) : (s.write token).database subject = none := by
  cases token with
  | none => exact hrow
  | some token => exact (s.database_write_of_ne (htoken token rfl)).trans hrow

theorem RequestPhase.held_of_written {store : Store} {phase : RequestPhase} {event : Event}
    {token : TokenData} (h : phase.written event = some token) :
    Request.held ⟨store, phase⟩ = some token := by
  unfold RequestPhase.written at h
  split at h
  · exact h
  · cases h

theorem RequestPhase.held_of_stored {store : Store} {phase : RequestPhase} {event : Event}
    {token : TokenData} (h : phase.stored event = some token) :
    Request.held ⟨store, phase⟩ = some token := by
  unfold RequestPhase.stored at h
  split at h
  · exact h
  · cases h

theorem Released.loadToken (h : Released crates s subject) {store : Store} {ok : Bool}
    {token : TokenData} (hload : s.loadToken store ok = some token) : token.subject ≠ subject := by
  cases store with
  | session n =>
    cases ok with
    | false => cases hload
    | true => exact h.session n token hload
  | daemon d => exact h.daemon d token hload

theorem Released.requestStep (h : Released crates s subject) (hrow : s.database subject = none)
    {i : Nat} {event : Event} (hstep : step crates s (.request i event) = some t) :
    Released crates t subject ∧ t.database subject = none := by
  simp only [Auth.step] at hstep
  split at hstep
  next store phase hi =>
    obtain ⟨next, hnext, rfl⟩ := Option.map_eq_some_iff.mp hstep
    have hwritten : ∀ token ∈ phase.written event, token.subject ≠ subject := fun token htoken =>
      h.request i _ token hi (RequestPhase.held_of_written htoken)
    have hstored : ∀ token ∈ phase.stored event, token.subject ≠ subject := fun token htoken =>
      h.request i _ token hi (RequestPhase.held_of_stored htoken)
    refine ⟨((h.writeRow _).store hstored).setRequest i ⟨store, next⟩ fun token hheld => ?_, ?_⟩
    · obtain ⟨ok, hload⟩ | ⟨old, hold, hsubject⟩ := held_next hnext hheld
      · exact h.loadToken hload
      · rw [hsubject]
        exact h.request i _ old hi hold
    · simp only [State.database, State.broker_setRequest, State.broker_store]
      exact row_write hrow hwritten
  next => cases hstep

theorem released_step {a : Action} (h : Released crates s subject ∧ s.database subject = none)
    (ha : NoCallback subject a) (hstep : step crates s a = some t) :
    Released crates t subject ∧ t.database subject = none := by
  obtain ⟨h, hrow⟩ := h
  cases a with
  | broker action =>
    obtain ⟨broker, hbroker, rfl⟩ := Option.map_eq_some_iff.mp hstep
    have hb := (h.broker hrow).step hbroker
    exact ⟨⟨h.session, h.daemon, h.request, hb.exchange, hb.write⟩, hb.row⟩
  | callback n token saved =>
    have htoken : ∀ t ∈ some token, t.subject ≠ subject := fun t ht => Option.some.inj ht ▸ ha
    cases hstep
    cases saved with
    | false => exact ⟨h.writeRow (some token), row_write hrow htoken⟩
    | true => exact ⟨(h.writeRow (some token)).setSession n _ htoken, row_write hrow htoken⟩
  | expireSession n =>
    cases hstep
    exact ⟨h.setSession n none (fun t ht => nomatch ht), hrow⟩
  | startDaemon caller =>
    simp only [step] at hstep
    split at hstep
    next => cases hstep
    next row hread =>
      split_ifs at hstep
      cases hstep
      obtain ⟨hcaller, r, hr, -⟩ := readTokenFromDatabase_eq_ok hread
      have hne : row.subject ≠ subject := by
        rintro rfl
        rw [hcaller] at hrow
        cases hrow.symm.trans hr
      have hset := h.setDaemon s.nextDaemon
        (some ⟨row.issuer, row.subject, none, s.broker.now, row.refreshTokenSecret⟩)
        fun t ht => Option.some.inj ht ▸ hne
      exact ⟨⟨hset.session, hset.daemon, hset.request, hset.exchange, hset.write⟩, hrow⟩
  | stopDaemon d =>
    cases hstep
    have hset := h.setDaemon d none fun t ht => nomatch ht
    refine ⟨⟨hset.session, hset.daemon, fun i request token hi => ?_, h.exchange, h.write⟩, hrow⟩
    exact h.request i request token (Option.filter_eq_some_iff.mp hi).1
  | arrive store =>
    cases hstep
    have hset := h.setRequest s.nextRequest ⟨store, .loading⟩ fun token hheld => by
      cases store <;> cases hheld
    exact ⟨⟨hset.session, hset.daemon, hset.request, hset.exchange, hset.write⟩, hrow⟩
  | request i event => exact h.requestStep hrow hstep
  | saveSession i =>
    simp only [step] at hstep
    split at hstep
    next n status token hi =>
      split_ifs at hstep with hstatus
      cases hstep
      have htoken : token.subject ≠ subject :=
        h.request i _ token hi (by simp [Request.held, hstatus])
      have hset := h.setRequest i ⟨.session n, .responded status none⟩ fun token hheld => by
        simp [Request.held] at hheld
      exact ⟨hset.setSession n _ fun t ht => Option.some.inj ht ▸ htoken, hrow⟩
    next => cases hstep
  | logout n =>
    cases hstep
    exact ⟨⟨h.session, h.daemon, h.request, h.exchange, h.write⟩, hrow⟩
  | findToken i ok =>
    simp only [step] at hstep
    split at hstep
    next n hi =>
      split_ifs at hstep
      · split at hstep <;> cases hstep <;>
          exact ⟨⟨h.session, h.daemon, h.request, h.exchange, h.write⟩, hrow⟩
      · cases hstep
        exact ⟨⟨h.session, h.daemon, h.request, h.exchange, h.write⟩, hrow⟩
    next => cases hstep
  | deleteRow i ok =>
    simp only [step] at hstep
    split at hstep
    next n other hi =>
      split_ifs at hstep
      · cases hstep
        refine ⟨⟨h.session, h.daemon, h.request, h.exchange, h.write⟩, ?_⟩
        exact deleteTokenFromDatabase_eq_none hrow
      · cases hstep
        exact ⟨⟨h.session, h.daemon, h.request, h.exchange, h.write⟩, hrow⟩
    next => cases hstep
  | flush i =>
    simp only [step] at hstep
    split at hstep
    next n hi =>
      cases hstep
      have hset := h.setSession n none fun t ht => nomatch ht
      exact ⟨⟨hset.session, hset.daemon, hset.request, hset.exchange, hset.write⟩, hrow⟩
    next => cases hstep

end Preservation

theorem final_iff :
    Final crates s subject ↔ Released crates s subject ∧ s.database subject = none := by
  refine ⟨fun h => ⟨h.released, h.row⟩, fun h t ht => ?_⟩
  exact (ht.invariant (fun _ _ _ => released_step) h).2

/-- A logout is final exactly when nobody holds a token of the subject as its row is deleted. -/
theorem logout_final_iff {i n : Nat} (hi : s.logouts i = some (.deleting n subject))
    (h : step crates s (.deleteRow i true) = some t) :
    Final crates t subject ↔ Released crates s subject := by
  simp only [step, hi, if_true, Option.some.injEq] at h
  subst h
  rw [final_iff]
  constructor
  · rintro ⟨hreleased, -⟩
    exact ⟨hreleased.session, hreleased.daemon, hreleased.request, hreleased.exchange,
      hreleased.write⟩
  · intro hreleased
    exact ⟨⟨hreleased.session, hreleased.daemon, hreleased.request, hreleased.exchange,
      hreleased.write⟩, deleteTokenFromDatabase_self ..⟩

def exampleToken : TokenData where
  issuer := "https://issuer"
  subject := "ulid1"
  accessToken := some "a0"
  accessTokenExpiresAt := 300
  refreshToken := "r0"

def exampleLogout : List Action :=
  [.callback 0 exampleToken true, .logout 0, .findToken 0 true, .expireSession 0]

theorem logout_final_example :
    ∃ s t, exec (step exampleCrates) (.init (fun _ => none) 0) exampleLogout = some s ∧
      step exampleCrates s (.deleteRow 0 true) = some t ∧ Final exampleCrates t "ulid1" := by
  obtain ⟨s, hs⟩ : ∃ s, exec (step exampleCrates) (.init (fun _ => none) 0) exampleLogout =
      some s := ⟨_, rfl⟩
  obtain ⟨t, ht⟩ : ∃ t, step exampleCrates s (.deleteRow 0 true) = some t := by
    cases hs
    exact ⟨_, rfl⟩
  have hlogout : s.logouts 0 = some (.deleting 0 "ulid1") := by
    cases hs
    rfl
  refine ⟨s, t, hs, ht, (logout_final_iff hlogout ht).mpr ?_⟩
  cases hs
  refine ⟨fun n token h => ?_, fun _ _ h => ?_, fun _ _ _ h => ?_, fun _ _ _ _ h => ?_,
    fun _ _ _ _ h => ?_⟩
  · rcases eq_or_ne n 0 with rfl | hn
    · cases h
    · simp [hn, State.setLogout, State.write, State.setDatabase, State.init] at h
  all_goals cases h

def exampleRequest : List Action :=
  [.callback 0 exampleToken true, .arrive (.session 0), .request 0 (.load true),
    .logout 0, .findToken 0 true]

/-- The request is refused, refreshes its token and stores the new one. -/
theorem logout_not_final :
    ∃ s t, exec (step exampleCrates) (.init (fun _ => none) 0) exampleRequest = some s ∧
      step exampleCrates s (.deleteRow 0 true) = some t ∧ ¬Final exampleCrates t "ulid1" := by
  refine ⟨_, _, rfl, rfl, fun h => ?_⟩
  have hrow := h _ ⟨[.flush 0, .request 0 (.respond ⟨401, none⟩ true),
    .request 0 (.exchange (some ⟨"a1", some 300, some "r1"⟩)), .request 0 (.write true)],
    by simp [NoCallback], rfl⟩
  cases hrow

end Workflows.Auth
