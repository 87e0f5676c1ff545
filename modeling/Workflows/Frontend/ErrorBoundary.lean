import Workflows.Foundations.Execution
import Mathlib

/-!
# The error boundary that retries

What is thrown while the children of the boundary render is caught. The boundary refetches after a
while, until it has done so often enough, and then shows a fallback, from which a user can retry.
-/

namespace Workflows.Frontend

open Execution

structure ErrorBoundaryState where
  hasError : Bool
  error : Option String
  fetchKey : Nat
  retryCount : Nat
  isUnauthorized : Bool
  deriving DecidableEq

structure Timeout where
  id : Nat
  delay : Nat
  deriving DecidableEq

/-- The component, with the timeouts that are pending and the number of those it has set. -/
structure WorkflowErrorBoundary where
  state : ErrorBoundaryState
  retryTimeoutId : Option Nat
  timeouts : List Timeout
  scheduled : Nat
  mounted : Bool
  deriving DecidableEq

inductive View where
  | children (fetchKey : Nat)
  | refetching
  | fallback (message : String)
  deriving DecidableEq

namespace WorkflowErrorBoundary

def new : WorkflowErrorBoundary where
  state :=
    { hasError := false, error := none, fetchKey := 0, retryCount := 0, isUnauthorized := false }
  retryTimeoutId := none
  timeouts := []
  scheduled := 0
  mounted := true

def isUnauthorizedMessage (message : String) : Bool :=
  "Unauthorized".toList <:+: message.toList

def getDerivedStateFromError (state : ErrorBoundaryState) (message : String) :
    ErrorBoundaryState :=
  { state with hasError := true, error := some message }

def setTimeout (boundary : WorkflowErrorBoundary) (delay : Nat) : WorkflowErrorBoundary :=
  { boundary with
    retryTimeoutId := some (boundary.scheduled + 1)
    timeouts := ⟨boundary.scheduled + 1, delay⟩ :: boundary.timeouts
    scheduled := boundary.scheduled + 1 }

variable (maxRetries : Nat)

/-- The update that `setState` enqueues, for an error of that kind. -/
def setUnauthorized (boundary : WorkflowErrorBoundary) (message : String) :
    WorkflowErrorBoundary :=
  if isUnauthorizedMessage message then
    { boundary with state := { boundary.state with isUnauthorized := true } }
  else boundary

/-- The update takes place once the rest has looked at the state. -/
def componentDidCatch (boundary : WorkflowErrorBoundary) (message : String) :
    WorkflowErrorBoundary :=
  setUnauthorized
    (if ¬boundary.state.isUnauthorized ∧ boundary.state.retryCount < maxRetries then
      boundary.setTimeout (1000 * (boundary.state.retryCount + 1))
    else boundary) message

def componentWillUnmount (boundary : WorkflowErrorBoundary) : WorkflowErrorBoundary :=
  match boundary.retryTimeoutId with
  | some id => { boundary with timeouts := boundary.timeouts.filter (·.id ≠ id) }
  | none => boundary

def retry (boundary : WorkflowErrorBoundary) : WorkflowErrorBoundary :=
  { boundary with
    state :=
      { boundary.state with
        hasError := false
        error := none
        fetchKey := boundary.state.fetchKey + 1
        retryCount := boundary.state.retryCount + 1 } }

def render (state : ErrorBoundaryState) : View :=
  match state.hasError, state.error with
  | true, some message =>
    if state.isUnauthorized ∨ maxRetries ≤ state.retryCount then .fallback message
    else .refetching
  | _, _ => .children state.fetchKey

inductive Action where
  | throws (message : String)
  | fires (id : Nat)
  | retries
  | unmounts
  deriving DecidableEq

/-- Only children that are shown can throw, and only a fallback that is shown can retry. -/
def step (boundary : WorkflowErrorBoundary) : Action → Option WorkflowErrorBoundary
  | .throws message =>
    match boundary.mounted, render maxRetries boundary.state with
    | true, .children _ =>
      some (componentDidCatch maxRetries
        { boundary with state := getDerivedStateFromError boundary.state message } message)
    | _, _ => none
  | .fires id =>
    if id ∈ boundary.timeouts.map (·.id) then
      let boundary := { boundary with timeouts := boundary.timeouts.filter (·.id ≠ id) }
      some (if boundary.mounted then boundary.retry else boundary)
    else none
  | .retries =>
    match boundary.mounted, render maxRetries boundary.state with
    | true, .fallback _ => some boundary.retry
    | _, _ => none
  | .unmounts =>
    if boundary.mounted then some { boundary.componentWillUnmount with mounted := false } else none

section History

def caught (actions : List Action) : List String :=
  actions.filterMap fun
    | .throws message => some message
    | _ => none

def fired (actions : List Action) : Nat :=
  actions.countP fun
    | .fires _ => true
    | _ => false

def retried (actions : List Action) : Nat :=
  actions.countP fun
    | .fires _ | .retries => true
    | _ => false

/-- What was caught and not retried yet. -/
def uncleared (actions : List Action) : Option String :=
  actions.foldl (fun error => fun
    | .throws message => some message
    | .fires _ | .retries => none
    | .unmounts => error) none

/-- The state that the actions of a run say, whenever the timeouts fired. -/
def stateOf (actions : List Action) : ErrorBoundaryState where
  hasError := (uncleared actions).isSome
  error := uncleared actions
  fetchKey := retried actions
  retryCount := retried actions
  isUnauthorized := (caught actions).any isUnauthorizedMessage

end History

section Step

variable {maxRetries : Nat} {boundary next : WorkflowErrorBoundary} {actions : List Action}
variable {message : String}

theorem stateOf_throws (actions : List Action) (message : String) :
    stateOf (actions ++ [.throws message]) =
      { stateOf actions with
        hasError := true
        error := some message
        isUnauthorized := (stateOf actions).isUnauthorized || isUnauthorizedMessage message } := by
  simp [stateOf, uncleared, caught, retried]

theorem stateOf_unmounts (actions : List Action) :
    stateOf (actions ++ [.unmounts]) = stateOf actions := by
  simp [stateOf, uncleared, caught, retried]

/-- The two ways to retry, by a timeout and by the user, are one to the state. -/
theorem stateOf_retry {action : Action} (h : action = .retries ∨ ∃ id, action = .fires id)
    (actions : List Action) :
    stateOf (actions ++ [action]) =
      { stateOf actions with
        hasError := false
        error := none
        fetchKey := (stateOf actions).fetchKey + 1
        retryCount := (stateOf actions).retryCount + 1 } := by
  obtain rfl | ⟨id, rfl⟩ := h <;> simp [stateOf, uncleared, caught, retried]

section Catch

@[simp] theorem setUnauthorized_state (boundary : WorkflowErrorBoundary) (message : String) :
    (setUnauthorized boundary message).state =
      { boundary.state with
        isUnauthorized := boundary.state.isUnauthorized || isUnauthorizedMessage message } := by
  rw [setUnauthorized]
  split_ifs with h <;> simp [h]

@[simp] theorem setUnauthorized_timeouts (boundary : WorkflowErrorBoundary) (message : String) :
    (setUnauthorized boundary message).timeouts = boundary.timeouts := by
  rw [setUnauthorized]
  split_ifs <;> rfl

@[simp] theorem setUnauthorized_retryTimeoutId (boundary : WorkflowErrorBoundary)
    (message : String) :
    (setUnauthorized boundary message).retryTimeoutId = boundary.retryTimeoutId := by
  rw [setUnauthorized]
  split_ifs <;> rfl

@[simp] theorem setUnauthorized_scheduled (boundary : WorkflowErrorBoundary) (message : String) :
    (setUnauthorized boundary message).scheduled = boundary.scheduled := by
  rw [setUnauthorized]
  split_ifs <;> rfl

@[simp] theorem setUnauthorized_mounted (boundary : WorkflowErrorBoundary) (message : String) :
    (setUnauthorized boundary message).mounted = boundary.mounted := by
  rw [setUnauthorized]
  split_ifs <;> rfl

end Catch

theorem step_throws (h : step maxRetries boundary (.throws message) = some next) :
    boundary.mounted ∧ (∃ key, render maxRetries boundary.state = .children key) ∧
      next = componentDidCatch maxRetries
        { boundary with state := getDerivedStateFromError boundary.state message } message := by
  rw [step] at h
  split at h
  next key hmounted hshown => exact ⟨hmounted, ⟨key, hshown⟩, (Option.some.inj h).symm⟩
  next => cases h

theorem step_fires {id : Nat} (h : step maxRetries boundary (.fires id) = some next) :
    ∃ timeout ∈ boundary.timeouts, timeout.id = id ∧
      next =
        let boundary := { boundary with timeouts := boundary.timeouts.filter (·.id ≠ id) }
        if boundary.mounted then boundary.retry else boundary := by
  obtain ⟨hid, hnext⟩ := Option.ite_none_right_eq_some.mp h
  obtain ⟨timeout, hmem, hid⟩ := List.mem_map.mp hid
  exact ⟨timeout, hmem, hid, (Option.some.inj hnext).symm⟩

theorem step_retries (h : step maxRetries boundary .retries = some next) :
    boundary.mounted ∧ (∃ message, render maxRetries boundary.state = .fallback message) ∧
      next = boundary.retry := by
  rw [step] at h
  split at h
  next message hmounted hshown => exact ⟨hmounted, ⟨message, hshown⟩, (Option.some.inj h).symm⟩
  next => cases h

/-- What a boundary has to do with the actions that led to it. -/
structure Follows (maxRetries : Nat) (actions : List Action) (boundary : WorkflowErrorBoundary) :
    Prop where
  state : boundary.state = stateOf actions
  pending : boundary.timeouts = [] ∨ boundary.mounted ∧
    boundary.retryTimeoutId = some boundary.scheduled ∧
    boundary.timeouts = [⟨boundary.scheduled, 1000 * boundary.scheduled⟩]
  fired_le : fired actions + boundary.timeouts.length ≤ boundary.scheduled
  scheduled_le : boundary.scheduled ≤ maxRetries
  refetching : boundary.mounted → render maxRetries boundary.state = .refetching →
    boundary.timeouts ≠ []
  quiet : boundary.timeouts ≠ [] → boundary.state.isUnauthorized = false →
    render maxRetries boundary.state = .refetching
  count : boundary.mounted → boundary.state.isUnauthorized = false →
    boundary.state.retryCount < maxRetries →
    boundary.scheduled = boundary.state.retryCount + boundary.timeouts.length

theorem render_eq_refetching_iff {state : ErrorBoundaryState} :
    render maxRetries state = .refetching ↔ state.hasError ∧ state.error.isSome ∧
      state.isUnauthorized = false ∧ state.retryCount < maxRetries := by
  obtain ⟨_ | _, _ | message, fetchKey, retryCount, isUnauthorized⟩ := state <;>
    simp [render]

theorem follows_new : Follows maxRetries [] new where
  state := rfl
  pending := .inl rfl
  fired_le := le_rfl
  scheduled_le := Nat.zero_le _
  refetching _ h := by cases h
  quiet h := absurd rfl h
  count _ _ _ := rfl

theorem fired_concat (actions : List Action) (action : Action) :
    fired (actions ++ [action]) = fired actions + fired [action] := List.countP_append

theorem Follows.throws (hfollows : Follows maxRetries actions boundary)
    (h : step maxRetries boundary (.throws message) = some next) :
    Follows maxRetries (actions ++ [.throws message]) next := by
  obtain ⟨hmounted, ⟨key, hshown⟩, rfl⟩ := step_throws h
  have hquiet : boundary.state.isUnauthorized = false → boundary.timeouts = [] := by
    intro hauthorized
    by_contra hpending
    cases hshown.symm.trans (hfollows.quiet hpending hauthorized)
  have hfired := hfollows.fired_le
  have hscheduled := hfollows.scheduled_le
  have hcount := hfollows.count hmounted
  rw [componentDidCatch]
  by_cases hcond : boundary.state.isUnauthorized = false ∧ boundary.state.retryCount < maxRetries
  · obtain ⟨hauthorized, hlt⟩ := hcond
    have hempty := hquiet hauthorized
    have hcount := hcount hauthorized hlt
    rw [hempty, List.length_nil, Nat.add_zero] at hcount hfired
    rw [if_pos (by simpa [getDerivedStateFromError] using ⟨hauthorized, hlt⟩)]
    refine
      { state := ?_
        pending := ?_
        fired_le := ?_
        scheduled_le := ?_
        refetching := ?_
        quiet := ?_
        count := ?_ }
    · rw [stateOf_throws, ← hfollows.state, setUnauthorized_state]
      rfl
    · exact .inr (by simp [setTimeout, hmounted, hempty, hcount, getDerivedStateFromError])
    · simp only [fired_concat, setUnauthorized_timeouts, setUnauthorized_scheduled, setTimeout]
      simpa [fired, hempty] using hfired
    · simp only [setUnauthorized_scheduled, setTimeout]
      omega
    · simp [setTimeout]
    · intro _ hfalse
      rw [render_eq_refetching_iff]
      refine ⟨by simp [setTimeout, getDerivedStateFromError],
        by simp [setTimeout, getDerivedStateFromError], hfalse, ?_⟩
      simpa [setTimeout, getDerivedStateFromError] using hlt
    · simp [setTimeout, getDerivedStateFromError, hempty, hcount]
  · rw [if_neg (by simpa [getDerivedStateFromError] using hcond)]
    refine
      { state := ?_
        pending := by simpa using hfollows.pending
        fired_le := by simpa [fired_concat, fired] using hfired
        scheduled_le := by simpa using hscheduled
        refetching := ?_
        quiet := ?_
        count := ?_ }
    · rw [stateOf_throws, ← hfollows.state, setUnauthorized_state]
      rfl
    · intro _ hrefetching
      obtain ⟨-, -, hauthorized, hlt⟩ := render_eq_refetching_iff.mp hrefetching
      simp only [setUnauthorized_state, getDerivedStateFromError, Bool.or_eq_false_iff]
        at hauthorized hlt
      exact absurd ⟨hauthorized.1, hlt⟩ hcond
    · intro hpending hauthorized
      simp only [setUnauthorized_state, getDerivedStateFromError, Bool.or_eq_false_iff,
        setUnauthorized_timeouts] at hauthorized hpending
      exact absurd (hquiet hauthorized.1) hpending
    · intro _ hauthorized hlt
      simp only [setUnauthorized_state, getDerivedStateFromError, Bool.or_eq_false_iff]
        at hauthorized hlt
      exact absurd ⟨hauthorized.1, hlt⟩ hcond

/-- After a retry nothing is pending, and what counts the timeouts still does. -/
theorem Follows.retry {action : Action} {timeouts : List Timeout}
    (hfollows : Follows maxRetries actions boundary)
    (haction : action = .retries ∨ ∃ id, action = .fires id)
    (hpending : timeouts = [] ∨ timeouts = boundary.timeouts)
    (hfired : fired [action] + timeouts.length ≤ boundary.timeouts.length)
    (hquiet : boundary.state.isUnauthorized = false → timeouts = [])
    (hcount : boundary.state.isUnauthorized = false → boundary.state.retryCount < maxRetries →
      boundary.timeouts.length = 1) :
    Follows maxRetries (actions ++ [action]) { boundary with timeouts := timeouts }.retry := by
  have hrefetching : render maxRetries { boundary with timeouts := timeouts }.retry.state ≠
      .refetching := by
    intro h
    cases (render_eq_refetching_iff.mp h).1
  refine
    { state := by
        rw [stateOf_retry haction, ← hfollows.state]
        rfl
      pending := ?_
      fired_le := ?_
      scheduled_le := hfollows.scheduled_le
      refetching := fun _ h => absurd h hrefetching
      quiet := fun hne hauthorized => absurd (hquiet hauthorized) hne
      count := ?_ }
  · obtain rfl | rfl := hpending
    · exact .inl rfl
    · exact hfollows.pending
  · have hle := hfollows.fired_le
    rw [fired_concat]
    show _ + timeouts.length ≤ boundary.scheduled
    omega
  · intro hmounted hauthorized hlt
    have hlt : boundary.state.retryCount + 1 < maxRetries := hlt
    have hscheduled := hfollows.count hmounted hauthorized (by omega)
    rw [hcount hauthorized (by omega)] at hscheduled
    have hempty := hquiet hauthorized
    show boundary.scheduled = boundary.state.retryCount + 1 + timeouts.length
    rw [hempty, List.length_nil]
    omega

theorem Follows.fires {id : Nat} (hfollows : Follows maxRetries actions boundary)
    (h : step maxRetries boundary (.fires id) = some next) :
    Follows maxRetries (actions ++ [.fires id]) next := by
  obtain ⟨timeout, hmem, hid, rfl⟩ := step_fires h
  obtain hempty | ⟨hmounted, -, hpending⟩ := hfollows.pending
  · rw [hempty] at hmem
    cases hmem
  · rw [hpending, List.mem_singleton] at hmem
    obtain rfl := hmem
    have hempty : boundary.timeouts.filter (·.id ≠ id) = [] := by simp [hpending, ← hid]
    rw [hempty, if_pos hmounted]
    refine hfollows.retry (.inr ⟨id, rfl⟩) (.inl rfl) ?_ (fun _ => rfl) ?_
    · simp [hpending, fired]
    · simp [hpending]

theorem Follows.retries (hfollows : Follows maxRetries actions boundary)
    (h : step maxRetries boundary .retries = some next) :
    Follows maxRetries (actions ++ [.retries]) next := by
  obtain ⟨hmounted, ⟨message, hshown⟩, rfl⟩ := step_retries h
  have hdone : boundary.state.isUnauthorized = false → maxRetries ≤ boundary.state.retryCount := by
    intro hauthorized
    rw [render] at hshown
    split at hshown
    · split_ifs at hshown with hcond
      simpa [hauthorized] using hcond
    · cases hshown
  refine hfollows.retry (.inl rfl) (.inr rfl) ?_ ?_ ?_
  · simp [fired]
  · intro hauthorized
    by_contra hpending
    cases hshown.symm.trans (hfollows.quiet hpending hauthorized)
  · intro hauthorized hlt
    have hle := hdone hauthorized
    omega

theorem Follows.unmounts (hfollows : Follows maxRetries actions boundary)
    (h : step maxRetries boundary .unmounts = some next) :
    Follows maxRetries (actions ++ [.unmounts]) next ∧ next.timeouts = [] := by
  obtain ⟨hmounted, hnext⟩ := Option.ite_none_right_eq_some.mp h
  obtain rfl := Option.some.inj hnext
  have hempty : boundary.componentWillUnmount.timeouts = [] ∧
      boundary.componentWillUnmount.state = boundary.state ∧
      boundary.componentWillUnmount.scheduled = boundary.scheduled := by
    rw [componentWillUnmount]
    obtain hempty | ⟨-, hid, hpending⟩ := hfollows.pending
    · cases boundary.retryTimeoutId <;> simp [hempty]
    · simp [hid, hpending]
  obtain ⟨hempty, hstate, hscheduled⟩ := hempty
  refine ⟨?_, hempty⟩
  exact
    { state := by rw [stateOf_unmounts, ← hfollows.state, ← hstate]
      pending := .inl hempty
      fired_le := by
        have hle := hfollows.fired_le
        rw [fired_concat, hempty, hscheduled]
        exact (Nat.le_add_right _ _).trans hle
      scheduled_le := hscheduled ▸ hfollows.scheduled_le
      refetching := nofun
      quiet := fun hne => absurd hempty hne
      count := nofun }

/-- Once unauthorized, the boundary sets no timeout any more. -/
theorem timeouts_of_unauthorized {action : Action} (hunauthorized : boundary.state.isUnauthorized)
    (h : step maxRetries boundary action = some next) :
    next.state.isUnauthorized ∧ fired [action] + next.timeouts.length ≤ boundary.timeouts.length := by
  cases action with
  | throws message =>
    obtain ⟨-, -, rfl⟩ := step_throws h
    rw [componentDidCatch, if_neg (by simp [getDerivedStateFromError, hunauthorized])]
    simp [getDerivedStateFromError, hunauthorized, fired]
  | fires id =>
    obtain ⟨timeout, hmem, hid, rfl⟩ := step_fires h
    have hlt : (boundary.timeouts.filter (·.id ≠ id)).length < boundary.timeouts.length := by
      apply List.length_filter_lt_length_iff_exists.mpr
      exact ⟨timeout, hmem, by simp [hid]⟩
    have hfired : fired [.fires id] = 1 := rfl
    rw [hfired]
    dsimp only
    split_ifs
    · exact ⟨hunauthorized, by rw [Nat.add_comm]; exact hlt⟩
    · exact ⟨hunauthorized, by rw [Nat.add_comm]; exact hlt⟩
  | retries =>
    obtain ⟨-, -, rfl⟩ := step_retries h
    exact ⟨hunauthorized, (Nat.zero_add _).le⟩
  | unmounts =>
    obtain ⟨-, hnext⟩ := Option.ite_none_right_eq_some.mp h
    obtain rfl := Option.some.inj hnext
    have hfired : fired [.unmounts] = 0 := rfl
    rw [hfired, Nat.zero_add]
    cases hid : boundary.retryTimeoutId with
    | none => simp [componentWillUnmount, hid, hunauthorized]
    | some id =>
      refine ⟨by simp [componentWillUnmount, hid, hunauthorized], ?_⟩
      simp only [componentWillUnmount, hid]
      exact List.length_filter_le _ _

end Step

section Run

variable {maxRetries : Nat} {boundary next : WorkflowErrorBoundary} {actions : List Action}

theorem follows_of_run (h : exec (step maxRetries) new actions = some boundary) :
    Follows maxRetries actions boundary := by
  apply invariant_history _ follows_new h
  intro actions boundary action next hfollows h
  cases action with
  | throws message => exact hfollows.throws h
  | fires id => exact hfollows.fires h
  | retries => exact hfollows.retries h
  | unmounts => exact (hfollows.unmounts h).1

theorem fired_of_unauthorized (hunauthorized : boundary.state.isUnauthorized)
    (h : exec (step maxRetries) boundary actions = some next) :
    fired actions + next.timeouts.length ≤ boundary.timeouts.length := by
  have hrun : next.state.isUnauthorized ∧
      fired actions + next.timeouts.length ≤ boundary.timeouts.length := by
    refine @invariant_history _ _ _ (fun actions next => next.state.isUnauthorized ∧
      fired actions + next.timeouts.length ≤ boundary.timeouts.length) ?_ _ _ _ ?_ h
    · rintro actions current action next ⟨hunauthorized, hle⟩ h
      obtain ⟨hunauthorized, hstep⟩ := timeouts_of_unauthorized hunauthorized h
      rw [fired_concat]
      exact ⟨hunauthorized, by omega⟩
    · exact ⟨hunauthorized, (Nat.zero_add _).le⟩
  exact hrun.2

theorem Follows.length_timeouts (hfollows : Follows maxRetries actions boundary) :
    boundary.timeouts.length ≤ 1 ∧ ∀ timeout ∈ boundary.timeouts,
      timeout.delay = 1000 * timeout.id := by
  obtain hempty | ⟨-, -, hpending⟩ := hfollows.pending
  · simp [hempty]
  · simp [hpending]

theorem Follows.exists_fires (hfollows : Follows maxRetries actions boundary)
    (hmounted : boundary.mounted) (h : render maxRetries boundary.state = .refetching) :
    ∃ id next, step maxRetries boundary (.fires id) = some next ∧
      render maxRetries next.state = .children (retried actions + 1) := by
  obtain hempty | ⟨-, -, hpending⟩ := hfollows.pending
  · exact absurd hempty (hfollows.refetching hmounted h)
  · refine ⟨boundary.scheduled, _, if_pos (by simp [hpending]), ?_⟩
    have hkey : boundary.state.fetchKey = retried actions := by rw [hfollows.state, stateOf]
    dsimp only
    rw [if_pos hmounted, ← hkey]
    rfl

/-- In every run the state is what was caught and retried, at most one timeout is pending, as many
as are allowed were ever set, each waits a second more than the one before it, and none is left when
the boundary unmounts. A boundary that says it refetches will: its timeout is pending, and shows
the children again. Of an error of the unauthorized kind at most one more timeout fires, since the
first such error is still retried. -/
theorem boundary_of_run (h : exec (step maxRetries) new actions = some boundary) :
    boundary.state = stateOf actions ∧
    fired actions + boundary.timeouts.length ≤ maxRetries ∧
    (boundary.timeouts.length ≤ 1 ∧ ∀ timeout ∈ boundary.timeouts,
      timeout.delay = 1000 * timeout.id) ∧
    (boundary.mounted = false → boundary.timeouts = []) ∧
    (boundary.mounted → render maxRetries boundary.state = .refetching →
      ∃ id next, step maxRetries boundary (.fires id) = some next ∧
        render maxRetries next.state = .children (retried actions + 1)) ∧
    ∀ front message back, actions = front ++ .throws message :: back →
      isUnauthorizedMessage message → fired back + boundary.timeouts.length ≤ 1 := by
  have hfollows := follows_of_run h
  refine ⟨hfollows.state, hfollows.fired_le.trans hfollows.scheduled_le, hfollows.length_timeouts,
    ?_, hfollows.exists_fires, ?_⟩
  · intro hmounted
    obtain hempty | ⟨hstill, -⟩ := hfollows.pending
    · exact hempty
    · cases hmounted.symm.trans hstill
  · rintro front message back rfl hmessage
    rw [← List.singleton_append, ← List.append_assoc] at h
    obtain ⟨thrown, hthrown, hback⟩ := exec_append_eq_some.mp h
    have hafter := follows_of_run hthrown
    have hunauthorized : thrown.state.isUnauthorized := by
      rw [hafter.state, stateOf_throws, hmessage, Bool.or_true]
    exact (fired_of_unauthorized hunauthorized hback).trans hafter.length_timeouts.1

theorem boundary_of_run_unauthorized :
    ∃ boundary, exec (step 2) new [.throws "Unauthorized", .fires 1, .throws "Unauthorized"] =
      some boundary ∧ render 2 boundary.state = .fallback "Unauthorized" ∧
      boundary.state = stateOf [.throws "Unauthorized", .fires 1, .throws "Unauthorized"] := by
  have hrun : exec (step 2) new [.throws "Unauthorized", .fires 1, .throws "Unauthorized"] =
      some ⟨⟨true, some "Unauthorized", 1, 1, true⟩, some 1, [], 1, true⟩ := by decide +kernel
  exact ⟨_, hrun, by decide +kernel, (boundary_of_run hrun).1⟩

end Run

end WorkflowErrorBoundary

end Workflows.Frontend
