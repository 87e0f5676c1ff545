import Workflows.AuthCore.Forwarding

/-!
# When a request is sent a second time

The retry policies decide on the upstream's answer. Whether the upstream executed the request before
it answered is not theirs to see.
-/

namespace Workflows.AuthCore

section Definitions

variable (fromSlice : List UInt8 → Option Json)

/-- The answers after which no request is retried. -/
def PassesOn : Service → HttpResponse → Prop
  | .gateway, response => response.status ≠ 401
  | .daemon, response => (200 ≤ response.status ∧ response.status < 300) ∧
    ∀ errors, graphqlErrors fromSlice response.body = some errors → errors = []

/-- A request that the upstream executes and answers with this response is forwarded exactly once,
so that one forwarded again was not executed. -/
def ForwardedOnce (service : Service) (response : HttpResponse) (executed : Bool) : Prop :=
  ∀ (crates : Crates) (env : Handling service) (req : IncomingRequest),
    env.response = response → executed →
      (injectTokenWith crates fromSlice env req).forwarded ≠ [] →
      (injectTokenWith crates fromSlice env req).forwarded.length = 1

end Definitions

section Retry

variable {fromSlice : List UInt8 → Option Json} {service : Service} {response : HttpResponse}

theorem shouldRetry_eq_false_iff :
    service.shouldRetry (response.view fromSlice) = false ↔ PassesOn fromSlice service response := by
  cases service with
  | gateway => simp [Service.shouldRetry, HttpResponse.view, PassesOn]
  | daemon =>
    rw [Service.shouldRetry, PassesOn]
    simp only [HttpResponse.view]
    split_ifs with hstatus
    · cases hlist : graphqlErrors fromSlice response.body with
      | none => simp [hstatus]
      | some errors => simp [hstatus]
    · simp [hstatus]

def freshToken : TokenData := ⟨"https://issuer", "ulid1", some "a1", 1, "r0"⟩

def retriedToken : TokenData := ⟨"https://issuer", "ulid1", some "a2", 61, "r1"⟩

/-- A handling with a fresh token, whose refresh for a retry succeeds. -/
def retryHandling (service : Service) (response : HttpResponse) : Handling service where
  loaded := some freshToken
  now := 0
  refresh := ⟨0, none, false, false⟩
  response := response
  retryRefresh := ⟨1, some ⟨"a2", none, some "r1"⟩, true, true⟩
  retryResponse := ⟨200, [], [], true⟩
  present := by simp [freshToken]

theorem currentToken_retryHandling :
    currentToken exampleCrates (retryHandling service response) freshToken = some freshToken := by
  cases service <;> rfl

theorem refresh_retryHandling :
    refreshAndPersist exampleCrates service (retryHandling service response).retryRefresh
      freshToken = some retriedToken := by
  cases service <;> rfl

theorem length_forwarded_retryHandling (hcomplete : response.complete)
    (hretry : service.shouldRetry (response.view fromSlice)) :
    (injectTokenWith exampleCrates fromSlice (retryHandling service response)
      exampleRequest).forwarded.length = 2 := by
  have hloaded : (retryHandling service response).loaded = some freshToken := rfl
  have hresponse : (retryHandling service response).response = response := rfl
  have hbody : exampleRequest.complete = true := rfl
  obtain ⟨primary, hprimary⟩ :
      ∃ primary, withBearer freshToken exampleRequest.toHttpRequest = some primary := ⟨_, rfl⟩
  obtain ⟨retry, hbearer⟩ :
      ∃ retry, withBearer retriedToken exampleRequest.toHttpRequest = some retry := ⟨_, rfl⟩
  simp only [injectTokenWith, hloaded, currentToken_retryHandling, hbody, hprimary, hresponse,
    hcomplete, hretry, refresh_retryHandling, hbearer, if_true, List.length_cons, List.length_nil]

theorem not_forwardedOnce (hcomplete : response.complete)
    (hretry : service.shouldRetry (response.view fromSlice)) :
    ¬ ForwardedOnce fromSlice service response true := by
  intro h
  have htwo := length_forwarded_retryHandling hcomplete hretry
  have hsome : (injectTokenWith exampleCrates fromSlice (retryHandling service response)
      exampleRequest).forwarded ≠ [] := by
    apply List.ne_nil_of_length_pos
    omega
  have hone := h exampleCrates (retryHandling service response) exampleRequest rfl rfl hsome
  omega

theorem length_forwarded {crates : Crates} {env : Handling service} {req : IncomingRequest}
    (hforwarded : (injectTokenWith crates fromSlice env req).forwarded ≠ [])
    (h : env.response.complete = false ∨
      service.shouldRetry (env.response.view fromSlice) = false) :
    (injectTokenWith crates fromSlice env req).forwarded.length = 1 := by
  obtain hnone | ⟨primary, -, hone | ⟨retry, -, hcomplete, hretry, -⟩⟩ :=
    forwarded_cases crates fromSlice env req
  · exact absurd hnone hforwarded
  · rw [hone, List.length_singleton]
  · rcases h with h | h
    · rw [hcomplete] at h
      cases h
    · rw [hretry] at h
      cases h

end Retry

/-- What was executed is forwarded once exactly where its answer is passed on. -/
theorem forwardedOnce_iff (fromSlice : List UInt8 → Option Json) (service : Service)
    (response : HttpResponse) (executed : Bool) :
    ForwardedOnce fromSlice service response executed ↔
      executed = false ∨ response.complete = false ∨ PassesOn fromSlice service response := by
  constructor
  · intro h
    cases executed with
    | false => exact .inl rfl
    | true =>
      right
      rcases Bool.eq_false_or_eq_true response.complete with hcomplete | hbroken
      · right
        rw [← shouldRetry_eq_false_iff, ← Bool.not_eq_true]
        intro hretry
        exact not_forwardedOnce hcomplete hretry h
      · exact .inl hbroken
  · rintro h crates env req rfl hexecuted hforwarded
    apply length_forwarded hforwarded
    rcases h with h | h | h
    · rw [hexecuted] at h
      cases h
    · exact .inl h
    · exact .inr (shouldRetry_eq_false_iff.mpr h)

/-- A mutation that was executed before the time ran out on its answer is forwarded again by a
daemon. -/
theorem executed_forwarded_again :
    ¬ ForwardedOnce (fun _ => none) .daemon ⟨504, [], [], true⟩ true := by
  exact not_forwardedOnce rfl rfl

end Workflows.AuthCore
