import Workflows.Auth.Logout

/-!
# The memory of a daemon and its row

A refresh writes the row and then replaces the token in memory, and no lock holds the two together.
Where refreshes overlap, the row keeps the token that was written last and the memory the one that
was saved last.
-/

namespace Workflows.Auth

open AuthCore Execution

/-- The request is between its write and its save. -/
def Request.saving (d : Nat) : Request → Option TokenData
  | ⟨.daemon d', .saving token _⟩ => if d' = d then some token else none
  | _ => none

def State.saving (s : State) (d i : Nat) : Option TokenData :=
  (s.requests i).bind (Request.saving d)

/-- Memory and database hold the same refresh token. -/
def Agree (s : State) (d : Nat) (subject : String) : Prop :=
  ∃ token row, s.daemons d = some token ∧ s.database subject = some row ∧
    token.refreshToken = row.refreshToken

def Request.InProgress (d : Nat) : Request → Prop
  | ⟨.daemon _, .responded _ _⟩ => False
  | ⟨.daemon d', _⟩ => d' = d
  | ⟨.session _, _⟩ => False

/-- No request of the daemon is in progress. -/
def AtRest (s : State) (d : Nat) : Prop :=
  ∀ i < s.nextRequest, ∀ request ∈ s.requests i, ¬request.InProgress d

/-- The step of a request of the daemon that the action is, if it is one. -/
def requestOf (s : State) (d : Nat) : Action → Option (Nat × Event)
  | .request i event =>
    match s.requests i with
    | some ⟨.daemon d', _⟩ => if d' = d then some (i, event) else none
    | _ => none
  | _ => none

/-- The daemon goes on, its memory takes every save, and nothing else writes the row. -/
structure Undisturbed (crates : Crates) (d : Nat) (subject : String) (s : State) (a : Action) :
    Prop where
  runs : a ≠ .stopDaemon d
  saves : (requestOf s d a).map (·.2) ≠ some (.save false)
  row : requestOf s d a = none → ∀ t ∈ step crates s a, t.database subject = s.database subject

/-- The request that saves while no other one is still to do so has the token that was written
last. -/
def SavesLast (d : Nat) (subject : String) (s : State) : Action → Prop
  | .request i (.save true) =>
    ∀ token ∈ s.saving d i, (∀ j < s.nextRequest, j ≠ i → s.saving d j = none) →
      (s.database subject).map (·.refreshToken) = some token.refreshToken
  | _ => True

instance (d : Nat) : DecidablePred (Request.InProgress d)
  | ⟨.daemon _, .responded _ _⟩ | ⟨.session _, _⟩ => .isFalse not_false
  | ⟨.daemon _, .loading⟩ | ⟨.daemon _, .exchanging _ _⟩ | ⟨.daemon _, .writing _ _⟩
  | ⟨.daemon _, .saving _ _⟩ | ⟨.daemon _, .forwarding _ _ _⟩ =>
    inferInstanceAs (Decidable (_ = d))

instance (s : State) (d : Nat) : Decidable (AtRest s d) :=
  inferInstanceAs (Decidable (∀ i < s.nextRequest, ∀ request ∈ s.requests i, _))

instance (crates : Crates) (d : Nat) (subject : String) (s : State) :
    DecidablePred (Undisturbed crates d subject s) := fun a =>
  decidable_of_iff (a ≠ .stopDaemon d ∧ (requestOf s d a).map (·.2) ≠ some (.save false) ∧
      (requestOf s d a = none → ∀ t ∈ step crates s a, t.database subject = s.database subject))
    ⟨fun h => ⟨h.1, h.2.1, h.2.2⟩, fun h => ⟨h.runs, h.saves, h.row⟩⟩

instance (d : Nat) (subject : String) (s : State) : DecidablePred (SavesLast d subject s)
  | .request _ (.save true) => inferInstanceAs (Decidable (∀ token ∈ _, _ → _))
  | .request _ (.save false) | .request _ (.load _) | .request _ (.exchange _)
  | .request _ (.write _) | .request _ (.respond _ _) => .isTrue trivial
  | .broker _ | .callback _ _ _ | .expireSession _ | .startDaemon _ | .stopDaemon _ | .arrive _
  | .saveSession _ | .logout _ | .findToken _ _ | .deleteRow _ _ | .flush _ => .isTrue trivial

section Consistent

variable {crates : Crates} {s t : State} {d : Nat} {subject : String}

structure Consistent (s : State) (d : Nat) (subject : String) : Prop where
  started : d < s.nextDaemon
  indexed : ∀ i, s.nextRequest ≤ i → s.requests i = none
  memory : ∃ token, s.daemons d = some token ∧ token.subject = subject
  held : ∀ i phase token, s.requests i = some ⟨.daemon d, phase⟩ →
    Request.held ⟨.daemon d, phase⟩ = some token → token.subject = subject
  agree : (∀ i, s.saving d i = none) → Agree s d subject

theorem consistent_of_startDaemon {database : Database} {now : Int}
    (h : step crates (.init database now) (.startDaemon subject) = some s) :
    Consistent s 0 subject := by
  simp only [step] at h
  split at h
  next => cases h
  next stored hread =>
    split_ifs at h
    cases h
    obtain ⟨hsubject, row, hrow, hsecret⟩ := readTokenFromDatabase_eq_ok hread
    refine ⟨Nat.zero_lt_one, fun _ _ => rfl, ⟨_, rfl, hsubject⟩, fun _ _ _ hi => ?_, fun _ => ?_⟩
    · cases hi
    · exact ⟨_, row, rfl, hrow, hsecret.symm⟩

theorem Request.inProgress_of_saving {request : Request} {token : TokenData}
    (h : request.saving d = some token) : request.InProgress d := by
  obtain ⟨store | d', phase⟩ := request
  · cases h
  · cases phase <;> simp only [Request.saving, reduceCtorEq] at h
    split_ifs at h with hd
    exact hd

theorem Agree.of_atRest (h : Consistent s d subject) (hrest : AtRest s d) : Agree s d subject := by
  refine h.agree fun i => ?_
  rw [Option.eq_none_iff_forall_ne_some]
  intro token htoken
  obtain ⟨request, hi, hsaving⟩ := Option.bind_eq_some_iff.mp htoken
  refine hrest i ?_ request hi (Request.inProgress_of_saving hsaving)
  by_contra hle
  cases (h.indexed i (Nat.le_of_not_lt hle)).symm.trans hi

/-- What a step of something else leaves alone. -/
structure Frame (s t : State) (d : Nat) : Prop where
  nextDaemon : s.nextDaemon ≤ t.nextDaemon
  indexed : ∀ i, t.nextRequest ≤ i → t.requests i = none
  memory : t.daemons d = s.daemons d
  requests : ∀ i phase, phase ≠ .loading →
    (t.requests i = some ⟨.daemon d, phase⟩ ↔ s.requests i = some ⟨.daemon d, phase⟩)

theorem saving_eq_some_iff {i : Nat} {token : TokenData} :
    s.saving d i = some token ↔ ∃ retry, s.requests i = some ⟨.daemon d, .saving token retry⟩ := by
  rw [State.saving, Option.bind_eq_some_iff]
  constructor
  · rintro ⟨⟨store | d', phase⟩, hi, hsaving⟩
    · cases hsaving
    · cases phase <;> simp only [Request.saving, reduceCtorEq] at hsaving
      split_ifs at hsaving with hd
      cases hsaving
      exact ⟨_, hd ▸ hi⟩
  · rintro ⟨retry, hi⟩
    exact ⟨_, hi, if_pos rfl⟩

theorem Frame.saving (h : Frame s t d) (i : Nat) : t.saving d i = s.saving d i := by
  refine Option.ext fun token => ?_
  rw [saving_eq_some_iff, saving_eq_some_iff]
  exact exists_congr fun retry => h.requests i _ (by simp)

theorem Consistent.frame (h : Consistent s d subject) (hframe : Frame s t d)
    (hrow : t.database subject = s.database subject) : Consistent t d subject where
  started := Nat.lt_of_lt_of_le h.started hframe.nextDaemon
  indexed := hframe.indexed
  memory := by
    rw [hframe.memory]
    exact h.memory
  held i phase token hi hheld := by
    have hloading : phase ≠ .loading := by
      rintro rfl
      cases hheld
    exact h.held i phase token ((hframe.requests i phase hloading).mp hi) hheld
  agree hnone := by
    obtain ⟨token, row, hmemory, hdatabase, heq⟩ :=
      h.agree fun i => (hframe.saving i).symm.trans (hnone i)
    exact ⟨token, row, hframe.memory.trans hmemory, hrow.trans hdatabase, heq⟩

theorem Frame.setRequest (h : Frame s t d) {i : Nat} {request : Request} (hi : i < t.nextRequest)
    (hold : ∀ phase, t.requests i = some ⟨.daemon d, phase⟩ → phase = .loading)
    (hnew : request.store = .daemon d → request.phase = .loading) :
    Frame s (t.setRequest i request) d where
  nextDaemon := h.nextDaemon
  indexed j hj := by
    rw [State.requests_setRequest_of_ne t i request (Nat.ne_of_gt (Nat.lt_of_lt_of_le hi hj))]
    exact h.indexed j hj
  memory := h.memory
  requests j phase hphase := by
    rw [← h.requests j phase hphase]
    rcases eq_or_ne j i with rfl | hji
    · rw [State.requests_setRequest_self]
      constructor
      · rintro heq
        cases heq
        exact absurd (hnew rfl) hphase
      · intro heq
        exact absurd (hold phase heq) hphase
    · rw [State.requests_setRequest_of_ne t i request hji]

theorem Frame.refl (hindexed : ∀ i, s.nextRequest ≤ i → s.requests i = none) : Frame s s d :=
  ⟨Nat.le_refl _, hindexed, rfl, fun _ _ _ => Iff.rfl⟩

theorem lt_nextRequest {i : Nat} {request : Request}
    (hindexed : ∀ i, s.nextRequest ≤ i → s.requests i = none)
    (hi : s.requests i = some request) : i < s.nextRequest := by
  by_contra hle
  cases (hindexed i (Nat.le_of_not_lt hle)).symm.trans hi

theorem frame_store (hindexed : ∀ i, s.nextRequest ≤ i → s.requests i = none) {store : Store}
    (hstore : store ≠ .daemon d) (written stored : Option TokenData) :
    Frame s ((s.write written).store store stored) d := by
  have hwrite : Frame s (s.write written) d := by
    cases written <;> exact ⟨Nat.le_refl _, hindexed, rfl, fun _ _ _ => Iff.rfl⟩
  cases stored with
  | none => exact hwrite
  | some token =>
    cases store with
    | session n => exact hwrite
    | daemon d' =>
      have hd : d ≠ d' := fun heq => hstore (heq ▸ rfl)
      refine ⟨hwrite.nextDaemon, hwrite.indexed, ?_, hwrite.requests⟩
      exact (Function.update_of_ne hd ..).trans hwrite.memory

theorem nextRequest_store (s : State) (written : Option TokenData) (store : Store)
    (stored : Option TokenData) :
    ((s.write written).store store stored).nextRequest = s.nextRequest := by
  cases written <;> cases stored <;> cases store <;> rfl

theorem frame_step {a : Action} (hstarted : d < s.nextDaemon)
    (hindexed : ∀ i, s.nextRequest ≤ i → s.requests i = none) (hruns : a ≠ .stopDaemon d)
    (hother : requestOf s d a = none) (hstep : step crates s a = some t) : Frame s t d := by
  have hrefl : Frame s s d := .refl hindexed
  cases a with
  | broker action =>
    obtain ⟨broker, -, rfl⟩ := Option.map_eq_some_iff.mp hstep
    exact ⟨Nat.le_refl _, hindexed, rfl, fun _ _ _ => Iff.rfl⟩
  | callback n token saved =>
    cases hstep
    cases saved <;> exact ⟨Nat.le_refl _, hindexed, rfl, fun _ _ _ => Iff.rfl⟩
  | expireSession n =>
    cases hstep
    exact ⟨Nat.le_refl _, hindexed, rfl, fun _ _ _ => Iff.rfl⟩
  | startDaemon caller =>
    simp only [step] at hstep
    split at hstep
    next => cases hstep
    next row hread =>
      split_ifs at hstep
      cases hstep
      refine ⟨Nat.le_succ _, hindexed, ?_, fun _ _ _ => Iff.rfl⟩
      exact Function.update_of_ne (Nat.ne_of_lt hstarted) ..
  | stopDaemon d' =>
    cases hstep
    have hd : d ≠ d' := fun heq => hruns (heq ▸ rfl)
    refine ⟨Nat.le_refl _, fun i hi => ?_, Function.update_of_ne hd .., fun i phase _ => ?_⟩
    · simp only [State.endRequests, hindexed i hi, Option.filter_none]
    · simp only [State.endRequests, Option.filter_eq_some_iff]
      exact and_iff_left (by simp [hd])
  | arrive store =>
    cases hstep
    have hset : Frame s { s with nextRequest := s.nextRequest + 1 } d :=
      ⟨Nat.le_refl _, fun i hi => hindexed i (Nat.le_of_succ_le hi), rfl, fun _ _ _ => Iff.rfl⟩
    refine hset.setRequest (Nat.lt_succ_self _) (fun phase hi => ?_) (fun _ => rfl)
    cases (hindexed _ (Nat.le_refl _)).symm.trans hi
  | request i event =>
    simp only [step] at hstep
    split at hstep
    next store phase hi =>
      obtain ⟨next, -, rfl⟩ := Option.map_eq_some_iff.mp hstep
      have hstore : store ≠ .daemon d := by
        rintro rfl
        simp [requestOf, hi] at hother
      refine (frame_store hindexed hstore _ _).setRequest ?_ (fun phase hi' => ?_) fun heq => ?_
      · rw [nextRequest_store]
        exact lt_nextRequest hindexed hi
      · rw [State.requests_store, State.requests_write, hi] at hi'
        cases hi'
        exact absurd rfl hstore
      · exact absurd heq hstore
    next => cases hstep
  | saveSession i =>
    simp only [step] at hstep
    split at hstep
    next n status token hi =>
      split_ifs at hstep
      cases hstep
      have hset : Frame s (s.setRequest i ⟨.session n, .responded status none⟩) d :=
        hrefl.setRequest (lt_nextRequest hindexed hi) (fun phase hi' => by cases hi.symm.trans hi')
          fun heq => by cases heq
      exact ⟨hset.nextDaemon, hset.indexed, hset.memory, hset.requests⟩
    next => cases hstep
  | logout n =>
    cases hstep
    exact ⟨Nat.le_refl _, hindexed, rfl, fun _ _ _ => Iff.rfl⟩
  | findToken i ok =>
    simp only [step] at hstep
    split at hstep
    next n hi =>
      split_ifs at hstep
      · split at hstep <;> cases hstep <;>
          exact ⟨Nat.le_refl _, hindexed, rfl, fun _ _ _ => Iff.rfl⟩
      · cases hstep
        exact ⟨Nat.le_refl _, hindexed, rfl, fun _ _ _ => Iff.rfl⟩
    next => cases hstep
  | deleteRow i ok =>
    simp only [step] at hstep
    split at hstep
    next n other hi =>
      split_ifs at hstep <;> cases hstep <;>
        exact ⟨Nat.le_refl _, hindexed, rfl, fun _ _ _ => Iff.rfl⟩
    next => cases hstep
  | flush i =>
    simp only [step] at hstep
    split at hstep
    next n hi =>
      cases hstep
      exact ⟨Nat.le_refl _, hindexed, rfl, fun _ _ _ => Iff.rfl⟩
    next => cases hstep

/-- The state after a step of a request of the daemon. -/
def State.advance (s : State) (d i : Nat) (phase next : RequestPhase) (event : Event) : State :=
  ((s.write (phase.written event)).store (.daemon d) (phase.stored event)).setRequest i
    ⟨.daemon d, next⟩

section Advance

variable (s : State) (d i : Nat) (phase next : RequestPhase) (event : Event)

theorem requests_advance_self :
    (s.advance d i phase next event).requests i = some ⟨.daemon d, next⟩ :=
  State.requests_setRequest_self ..

theorem requests_advance_of_ne {j : Nat} (h : j ≠ i) :
    (s.advance d i phase next event).requests j = s.requests j := by
  rw [State.advance, State.requests_setRequest_of_ne _ _ _ h, State.requests_store,
    State.requests_write]

theorem nextRequest_advance : (s.advance d i phase next event).nextRequest = s.nextRequest :=
  nextRequest_store ..

theorem nextDaemon_advance : (s.advance d i phase next event).nextDaemon = s.nextDaemon := by
  rw [State.advance]
  cases phase.written event <;> cases phase.stored event <;> rfl

theorem daemons_advance :
    (s.advance d i phase next event).daemons d = (phase.stored event).or (s.daemons d) := by
  rw [State.advance]
  cases phase.stored event with
  | none => exact congrFun (State.daemons_write ..) d
  | some token => exact Function.update_self ..

theorem database_advance :
    (s.advance d i phase next event).database = (s.write (phase.written event)).database := by
  rw [State.advance, State.database, State.broker_setRequest, State.broker_store]
  rfl

end Advance

theorem Consistent.advance (h : Consistent s d subject) {i : Nat} {phase next : RequestPhase}
    {event : Event} (hi : s.requests i = some ⟨.daemon d, phase⟩)
    (hnext : phase.next crates .daemon s.broker.now (s.loadToken (.daemon d)) event = some next)
    (hagree : (∀ j, (s.advance d i phase next event).saving d j = none) →
      Agree (s.advance d i phase next event) d subject) :
    Consistent (s.advance d i phase next event) d subject where
  started := by
    rw [nextDaemon_advance]
    exact h.started
  indexed j hj := by
    rw [nextRequest_advance] at hj
    rw [requests_advance_of_ne _ _ _ _ _ _ (by
      have := lt_nextRequest h.indexed hi
      omega)]
    exact h.indexed j hj
  memory := by
    rw [daemons_advance]
    cases hstored : phase.stored event with
    | none => exact h.memory
    | some token =>
      exact ⟨token, rfl, h.held i phase token hi (RequestPhase.held_of_stored hstored)⟩
  held j phase' token hj hheld := by
    rcases eq_or_ne j i with rfl | hji
    · rw [requests_advance_self] at hj
      cases hj
      have hservice : phase.next crates (Store.daemon d).service s.broker.now
          (s.loadToken (.daemon d)) event = some next := hnext
      obtain ⟨ok, hload⟩ | ⟨old, hold, hsubject⟩ := held_next hservice hheld
      · obtain ⟨token', hmemory, hsubject⟩ := h.memory
        cases hmemory.symm.trans hload
        exact hsubject
      · exact hsubject.trans (h.held j phase old hi hold)
    · rw [requests_advance_of_ne _ _ _ _ _ _ hji] at hj
      exact h.held j phase' token hj hheld
  agree := hagree

theorem saving_advance_of_ne {i j : Nat} (phase next : RequestPhase) (event : Event) (h : j ≠ i) :
    (s.advance d i phase next event).saving d j = s.saving d j := by
  rw [State.saving, requests_advance_of_ne _ _ _ _ _ _ h]
  rfl

/-- A step that neither writes nor saves leaves memory and row as they are. -/
theorem Consistent.agree_quiet (h : Consistent s d subject) {i : Nat}
    {phase next : RequestPhase} {event : Event} (hi : s.requests i = some ⟨.daemon d, phase⟩)
    (hwritten : phase.written event = none) (hstored : phase.stored event = none)
    (hsaving : ∀ token retry, phase ≠ .saving token retry)
    (hnone : ∀ j, (s.advance d i phase next event).saving d j = none) :
    Agree (s.advance d i phase next event) d subject := by
  obtain ⟨token, row, hmemory, hrow, heq⟩ := h.agree fun j => by
    rcases eq_or_ne j i with rfl | hji
    · rw [Option.eq_none_iff_forall_ne_some]
      intro token htoken
      obtain ⟨retry, hj⟩ := saving_eq_some_iff.mp htoken
      cases hi.symm.trans hj
      exact hsaving token retry rfl
    · rw [← saving_advance_of_ne phase next event hji]
      exact hnone j
  refine ⟨token, row, ?_, ?_, heq⟩
  · rw [daemons_advance, hstored]
    exact hmemory
  · rw [database_advance, hwritten]
    exact hrow

theorem Consistent.own_step (h : Consistent s d subject) {i : Nat} {phase next : RequestPhase}
    {event : Event} (hi : s.requests i = some ⟨.daemon d, phase⟩)
    (hnext : phase.next crates .daemon s.broker.now (s.loadToken (.daemon d)) event = some next)
    (hsave : event ≠ .save false) (hlast : SavesLast d subject s (.request i event)) :
    Consistent (s.advance d i phase next event) d subject := by
  refine h.advance hi hnext fun hnone => ?_
  cases phase with
  | writing token retry =>
    cases event with
    | write ok =>
      cases ok with
      | true =>
        -- the request is about to save, so that nothing is claimed yet
        cases hnext
        have hsaving := hnone i
        rw [State.saving, requests_advance_self] at hsaving
        simp [Request.saving] at hsaving
      | false => exact h.agree_quiet hi rfl rfl (by simp) hnone
    | _ => cases hnext
  | saving token retry =>
    cases event with
    | save ok =>
      cases ok with
      | true =>
        have hothers : ∀ j < s.nextRequest, j ≠ i → s.saving d j = none := fun j _ hji =>
          (saving_advance_of_ne _ next _ hji).symm.trans (hnone j)
        have htoken : s.saving d i = some token := saving_eq_some_iff.mpr ⟨retry, hi⟩
        obtain ⟨row, hrow, heq⟩ := Option.map_eq_some_iff.mp (hlast token htoken hothers)
        refine ⟨token, row, ?_, ?_, heq.symm⟩
        · rw [daemons_advance]
          rfl
        · rw [database_advance]
          exact hrow
      | false => exact absurd rfl hsave
    | _ => cases hnext
  | loading => exact h.agree_quiet hi rfl rfl (by simp) hnone
  | exchanging token retry => exact h.agree_quiet hi rfl rfl (by simp) hnone
  | forwarding token refreshed retry => exact h.agree_quiet hi rfl rfl (by simp) hnone
  | responded status saved => cases hnext

theorem eq_request_of_requestOf {a : Action} {own : Nat × Event} (h : requestOf s d a = some own) :
    a = .request own.1 own.2 ∧ ∃ phase, s.requests own.1 = some ⟨.daemon d, phase⟩ := by
  cases a with
  | request i event =>
    simp only [requestOf] at h
    split at h
    next d' phase hi =>
      split_ifs at h with hd
      cases h
      exact ⟨rfl, phase, hd ▸ hi⟩
    next => cases h
  | _ => cases h

theorem Consistent.step {a : Action} (h : Consistent s d subject)
    (hC : Undisturbed crates d subject s a ∧ SavesLast d subject s a)
    (hstep : step crates s a = some t) : Consistent t d subject := by
  cases hown : requestOf s d a with
  | none =>
    have hframe := frame_step h.started h.indexed hC.1.runs hown hstep
    exact h.frame hframe (hC.1.row hown t hstep)
  | some own =>
    obtain ⟨rfl, phase, hi⟩ := eq_request_of_requestOf hown
    simp only [Auth.step, hi] at hstep
    obtain ⟨next, hnext, rfl⟩ := Option.map_eq_some_iff.mp hstep
    have hsave : own.2 ≠ .save false := by
      intro hsave
      exact hC.1.saves (by rw [hown, Option.map_some, hsave])
    exact h.own_step hi hnext hsave hC.2

end Consistent

section Examples

def exampleRows : Database :=
  Function.update (fun _ => none) "ulid1"
    (some { issuer := "https://issuer", refreshToken := "r0", expiresAt := none })

def exampleStart : State where
  __ := State.init exampleRows 0
  daemons := Function.update (fun _ => none) 0
    (some { issuer := "https://issuer", subject := "ulid1", accessToken := none,
            accessTokenExpiresAt := 0, refreshToken := "r0" })
  nextDaemon := 1

/-- A request refreshes its token, which has no access token yet, up to the write. -/
def exampleRefresh (i : Nat) (refreshToken : String) : List Action :=
  [.arrive (.daemon 0), .request i (.load true),
    .request i (.exchange (some ⟨"a", some 300, some refreshToken⟩))]

def exampleFinish (i : Nat) : List Action :=
  [.request i (.save true), .request i (.respond ⟨200, none⟩ true)]

def exampleOverlap (first second : Nat) : List Action :=
  exampleRefresh 0 "r1" ++ exampleRefresh 1 "r2" ++
    [.request 0 (.write true), .request 1 (.write true)] ++
      exampleFinish first ++ exampleFinish second

end Examples

end Workflows.Auth
