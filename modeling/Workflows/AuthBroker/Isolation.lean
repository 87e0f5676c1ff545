import Workflows.AuthBroker.ExtAuthz
import Workflows.AuthBroker.Provenance
import Workflows.Foundations.Separator

/-!
# Subject isolation

A granted request got a token of the creator of the workflow that its own pod names. The subject
cache is keyed by namespace, name and uid of the pod, and neither of the first two contains the
separator, so an entry speaks for one pod only; the token cache is keyed by subject.
-/

namespace Workflows.AuthBroker.ExtAuthz

open AuthCore Execution

variable {crates : Crates} {validHeader : String → Bool} {s t : State}

/-- The pod that a lookup returns has the namespace and name asked for, and a uid. -/
structure Answers (identity : PodIdentity) (pod : Pod) : Prop where
  nameSpace : pod.nameSpace = some identity.podNamespace
  name : pod.name = some identity.podName
  uid : pod.uid.isSome
  plainNamespace : '/' ∉ identity.podNamespace.toList
  plainName : '/' ∉ identity.podName.toList

def PodsAsRequested (s : State) : Action → Prop
  | .getPod i (.ok pod) => ∀ r, s.requests i = some (.gettingPod r) → Answers r.identity pod
  | _ => True

/-- The subject was read from the workflow that the pod names, in the namespace of the pod. -/
structure Resolution.Read (r : Resolution) : Prop where
  answers : Answers r.located.identity r.located.pod
  workflowNamespace : r.workflowNamespace = r.located.identity.podNamespace
  workflowName : r.located.pod.label workflowLabel = some r.workflowName
  creator : r.workflow.label creatorLabel = some r.subject

def Located.SamePod (l l' : Located) : Prop :=
  l.identity.podNamespace = l'.identity.podNamespace ∧ l.identity.podName = l'.identity.podName ∧
    l.pod.uid = l'.pod.uid

def ResolvedFor (s : State) (l : Located) (subject : String) : Prop :=
  ∃ r ∈ s.resolutions, r.located.SamePod l ∧ r.subject = subject

structure Entitled (s : State) (l : Located) (subject bearer : String) : Prop where
  authenticated : l.review.status.bind (·.authenticated) = some true
  username : ∃ account, l.review.user.bind (·.username) =
    some (serviceAccountPrefix ++ l.identity.podNamespace ++ ":" ++ account)
  podName : l.review.extra podNameKey = some l.identity.podName
  answers : Answers l.identity l.pod
  podUid : ∀ uid, l.review.extra podUidKey = some uid → l.pod.uid = some uid
  resolved : ∃ r ∈ s.resolutions, r.Read ∧ r.located.SamePod l ∧ r.subject = subject
  issued : ∃ token, bearer = bearerOf token ∧ Issued s.broker subject token

def Isolated (s : State) : Prop :=
  ∀ i l subject bearer, s.requests i = some (.granted l subject bearer) →
    Entitled s l subject bearer

section Identity

theorem podIdentity_new_eq_ok {review : TokenReview} {identity : PodIdentity}
    (h : PodIdentity.new review = .ok identity) :
    review.status.bind (·.authenticated) = some true ∧
    (∃ account, review.user.bind (·.username) =
      some (serviceAccountPrefix ++ identity.podNamespace ++ ":" ++ account)) ∧
    review.extra podNameKey = some identity.podName ∧
    identity.podUid = review.extra podUidKey := by
  unfold PodIdentity.new at h
  split_ifs at h with hauth
  split at h
  next => cases h
  next username husername =>
    split at h
    next => cases h
    next podNamespace account hsplit =>
      split at h
      next => cases h
      next podName hpodName =>
        cases h
        obtain ⟨rest, hrest, hsplit⟩ := Option.bind_eq_some_iff.mp hsplit
        have hname : username = serviceAccountPrefix ++ podNamespace ++ ":" ++ account := by
          rw [eq_append_of_stripPrefix hrest, (eq_append_of_splitOnce hsplit).1]
          simp only [String.append_assoc]
          rfl
        refine ⟨?_, ⟨account, husername.trans (congrArg some hname)⟩, hpodName, rfl⟩
        cases hstatus : review.status.bind (·.authenticated) with
        | none => simp [hstatus] at hauth
        | some authenticated =>
          rw [hstatus] at hauth
          exact congrArg some hauth

/-- Two pods with one cache key are one pod. -/
theorem samePod_of_podKey_eq {l l' : Located} (h : Answers l.identity l.pod)
    (h' : Answers l'.identity l'.pod) (hkey : l.podKey = l'.podKey) : l.SamePod l' := by
  have hlist := congrArg String.toList hkey
  simp only [Located.podKey, String.toList_append, List.append_assoc] at hlist
  obtain ⟨hns, hrest⟩ := Separator.append_inj h.plainNamespace h'.plainNamespace hlist
  obtain ⟨hname, huid⟩ := Separator.append_inj h.plainName h'.plainName hrest
  refine ⟨String.toList_inj.mp hns, String.toList_inj.mp hname, ?_⟩
  obtain ⟨uid, hu⟩ := Option.isSome_iff_exists.mp h.uid
  obtain ⟨uid', hu'⟩ := Option.isSome_iff_exists.mp h'.uid
  rw [hu, hu'] at huid ⊢
  exact congrArg some (String.toList_inj.mp huid)

end Identity

section Invariant

def Request.Ok (s : State) : Request → Prop
  | .lookingUp l => Answers l.identity l.pod
  | .gettingWorkflow l workflowName =>
    Answers l.identity l.pod ∧ l.pod.label workflowLabel = some workflowName
  | .caching l workflowName workflow subject =>
    Answers l.identity l.pod ∧ l.pod.label workflowLabel = some workflowName ∧
      workflow.label creatorLabel = some subject
  | .refreshing l subject call =>
    Answers l.identity l.pod ∧ ResolvedFor s l subject ∧ call < s.broker.nextCall ∧
      ∃ phase, s.broker.calls call = some ⟨subject, phase⟩
  | .granted l subject bearer =>
    Answers l.identity l.pod ∧ ResolvedFor s l subject ∧
      ∃ token, bearer = bearerOf token ∧ Issued s.broker subject token
  | _ => True

structure IsolationInv (s : State) : Prop where
  broker : ProvenanceInv s.broker
  request : ∀ i q, s.requests i = some q → q.Ok s
  read : ∀ r ∈ s.resolutions, r.Read
  cached : ∀ podKey subject, s.subjectCache podKey = some subject →
    ∃ r ∈ s.resolutions, r.located.podKey = podKey ∧ r.subject = subject

theorem isolationInv_init (db : Database) (now : Int) : IsolationInv (.init db now) where
  broker := provenanceInv_init db now
  request _ _ h := nomatch h
  read _ h := nomatch h
  cached _ _ h := nomatch h

theorem Request.Ok.mono {q : Request} (h : q.Ok s) (hbroker : Extends s.broker t.broker)
    (hresolutions : ∀ r ∈ s.resolutions, r ∈ t.resolutions) : q.Ok t := by
  cases q with
  | refreshing l subject call =>
    obtain ⟨hanswers, ⟨r, hr, hsame⟩, hlt, phase, hcall⟩ := h
    exact ⟨hanswers, ⟨r, hresolutions r hr, hsame⟩, Nat.lt_of_lt_of_le hlt hbroker.nextCall,
      hbroker.subject call subject phase hlt hcall⟩
  | granted l subject bearer =>
    obtain ⟨hanswers, ⟨r, hr, hsame⟩, token, hbearer, hissued⟩ := h
    exact ⟨hanswers, ⟨r, hresolutions r hr, hsame⟩, token, hbearer,
      hbroker.issued subject token hissued⟩
  | _ => exact h

theorem extends_refl (b : AuthBroker.State) : Extends b b :=
  ⟨Nat.le_refl _, fun _ _ p _ h => ⟨p, h⟩, fun _ _ h => h⟩

theorem IsolationInv.setRequest (h : IsolationInv s) {i : Nat} {q : Request} (hq : q.Ok s) :
    IsolationInv (s.setRequest i q) where
  broker := h.broker
  request j q' hj := by
    rcases eq_or_ne j i with rfl | hji
    · simp only [State.setRequest, Function.update_self, Option.some.injEq] at hj
      subst hj
      exact hq.mono (extends_refl _) fun _ hr => hr
    · simp only [State.setRequest, Function.update_of_ne hji] at hj
      exact (h.request j q' hj).mono (extends_refl _) fun _ hr => hr
  read := h.read
  cached := h.cached

theorem IsolationInv.setBroker (h : IsolationInv s) {b : AuthBroker.State} (hb : ProvenanceInv b)
    (hextends : Extends s.broker b) : IsolationInv { s with broker := b } where
  broker := hb
  request i q hi := (h.request i q hi).mono hextends fun _ hr => hr
  read := h.read
  cached := h.cached

theorem IsolationInv.addResolution (h : IsolationInv s) {r : Resolution} {podKey : String}
    (hr : r.Read) (hkey : r.located.podKey = podKey) :
    IsolationInv { s with
      subjectCache := Function.update s.subjectCache podKey (some r.subject)
      resolutions := s.resolutions ++ [r] } where
  broker := h.broker
  request i q hi :=
    (h.request i q hi).mono (extends_refl _) fun _ hmem => List.mem_append_left _ hmem
  read := by
    intro r' hr'
    obtain hr' | hr' := List.mem_append.mp hr'
    · exact h.read r' hr'
    · rw [List.mem_singleton.mp hr']
      exact hr
  cached := by
    intro key subject hcached
    rcases eq_or_ne key podKey with rfl | hsame
    · simp only [Function.update_self, Option.some.injEq] at hcached
      exact ⟨r, List.mem_append_right _ List.mem_cons_self, hkey, hcached⟩
    · simp only [Function.update_of_ne hsame] at hcached
      obtain ⟨r', hr', hfound⟩ := h.cached key subject hcached
      exact ⟨r', List.mem_append_left _ hr', hfound⟩

theorem IsolationInv.refresh (h : IsolationInv s) (crates : Crates) {i : Nat} {l : Located}
    {subject : String} (hanswers : Answers l.identity l.pod) (hresolved : ResolvedFor s l subject) :
    IsolationInv (s.refresh i l subject) := by
  have hstart : AuthBroker.step crates s.broker (.start subject) = some
      { s.broker.setPhase s.broker.nextCall subject .lookup with
        nextCall := s.broker.nextCall + 1 } := rfl
  have hmoved := h.setBroker (provenanceInv_step h.broker hstart) (extends_step h.broker hstart)
  refine hmoved.setRequest (q := .refreshing l subject s.broker.nextCall)
    ⟨hanswers, hresolved, Nat.lt_succ_self _, .lookup, ?_⟩
  exact AuthBroker.State.setPhase_calls_self ..

theorem ok_afterReview (answer : Except String TokenReview) : (afterReview answer).Ok s := by
  cases answer with
  | error detail => exact trivial
  | ok review =>
    simp only [afterReview]
    split <;> exact trivial

theorem ok_afterPod {r : Reviewed} {answer : Except String Pod}
    (hpod : ∀ pod, answer = .ok pod → Answers r.identity pod) : (afterPod r answer).Ok s := by
  cases answer with
  | error detail => exact trivial
  | ok pod =>
    simp only [afterPod]
    split_ifs
    · exact hpod pod rfl
    · exact trivial

theorem ok_afterCacheMiss {l : Located} (hanswers : Answers l.identity l.pod) :
    (afterCacheMiss l).Ok s := by
  unfold afterCacheMiss
  split
  next => exact trivial
  next workflowName hlabel => exact ⟨hanswers, hlabel⟩

theorem ok_afterWorkflow {l : Located} {workflowName : String} {answer : Except String Workflow}
    (hanswers : Answers l.identity l.pod) (hlabel : l.pod.label workflowLabel = some workflowName) :
    (afterWorkflow l workflowName answer).Ok s := by
  cases answer with
  | error detail => exact trivial
  | ok workflow =>
    simp only [afterWorkflow]
    split
    next => exact trivial
    next creator hcreator => exact ⟨hanswers, hlabel, hcreator⟩

theorem isolationInv_step {a : Action} (h : IsolationInv s) (hpods : PodsAsRequested s a)
    (hstep : step crates validHeader s a = some t) : IsolationInv t := by
  cases a with
  | arrive token =>
    cases hstep
    have hok : (afterArrival token).Ok s := by cases token <;> exact trivial
    have hset := h.setRequest (i := s.nextRequest) hok
    exact ⟨hset.broker, hset.request, hset.read, hset.cached⟩
  | review i answer =>
    simp only [step] at hstep
    split at hstep
    next =>
      cases hstep
      exact h.setRequest (ok_afterReview answer)
    next => cases hstep
  | getPod i answer =>
    simp only [step] at hstep
    split at hstep
    next r hi =>
      cases hstep
      refine h.setRequest (ok_afterPod fun pod heq => ?_)
      subst heq
      exact hpods r hi
    next => cases hstep
  | lookUp i =>
    simp only [step] at hstep
    split at hstep
    next l hi =>
      have hanswers : Answers l.identity l.pod := h.request i _ hi
      split at hstep
      next subject hcached =>
        cases hstep
        -- the key is the pod's namespace, name and uid, so the entry was read for this very pod
        obtain ⟨r, hr, hkey, hsubject⟩ := h.cached _ _ hcached
        have hsame := samePod_of_podKey_eq (h.read r hr).answers hanswers hkey
        exact h.refresh crates hanswers ⟨r, hr, hsame, hsubject⟩
      next =>
        cases hstep
        exact h.setRequest (ok_afterCacheMiss hanswers)
    next => cases hstep
  | getWorkflow i answer =>
    simp only [step] at hstep
    split at hstep
    next l workflowName hi =>
      cases hstep
      obtain ⟨hanswers, hlabel⟩ := h.request i _ hi
      exact h.setRequest (ok_afterWorkflow hanswers hlabel)
    next => cases hstep
  | cacheSubject i =>
    simp only [step] at hstep
    split at hstep
    next l workflowName workflow subject hi =>
      cases hstep
      obtain ⟨hanswers, hlabel, hcreator⟩ := h.request i _ hi
      have hread : Resolution.Read ⟨l, l.workflowNamespace, workflowName, workflow, subject⟩ :=
        ⟨hanswers, by simp [Located.workflowNamespace, hanswers.nameSpace], hlabel, hcreator⟩
      exact (h.addResolution hread rfl).refresh crates hanswers
        ⟨_, List.mem_append_right _ List.mem_cons_self, ⟨rfl, rfl, rfl⟩, rfl⟩
    next => cases hstep
  | finish i detail =>
    simp only [step] at hstep
    split at hstep
    next l subject call hi =>
      obtain ⟨hanswers, hresolved, -, phase, hcall⟩ := h.request i _ hi
      rw [hcall] at hstep
      split at hstep
      next token heq =>
        cases heq
        have hissued : Issued s.broker subject token := h.broker.call call _ token hcall rfl
        split_ifs at hstep
        · cases hstep
          exact h.setRequest (q := .granted l subject (bearerOf token))
            ⟨hanswers, hresolved, token, rfl, hissued⟩
        · cases hstep
          exact h.setRequest (q := .refused (.tokenValidation detail)) trivial
      next =>
        cases hstep
        exact h.setRequest (q := .refused (.tokenValidation detail)) trivial
      next => cases hstep
    next => cases hstep
  | broker action =>
    obtain ⟨b, hb, rfl⟩ := Option.map_eq_some_iff.mp hstep
    exact h.setBroker (provenanceInv_step h.broker hb) (extends_step h.broker hb)
  | evictSubject podKey =>
    cases hstep
    refine ⟨h.broker, fun i q hi => (h.request i q hi).mono (extends_refl _) fun _ hr => hr,
      h.read, fun key subject hcached => ?_⟩
    rcases eq_or_ne key podKey with rfl | hkey
    · simp only [Function.update_self] at hcached
      cases hcached
    · simp only [Function.update_of_ne hkey] at hcached
      exact h.cached key subject hcached
  | database database =>
    cases hstep
    refine h.setBroker ?_
      ⟨Nat.le_refl _, fun _ _ p _ hcall => ⟨p, hcall⟩, fun _ _ hissued => hissued⟩
    exact h.broker.congr rfl rfl (fun _ _ => .inl) h.broker.cache

theorem IsolationInv.isolated (h : IsolationInv s) : Isolated s := by
  intro i l subject bearer hi
  obtain ⟨hanswers, ⟨r, hr, hsame, hsubject⟩, hissued⟩ := h.request i _ hi
  obtain ⟨hauth, husername, hpodName, hpodUid⟩ := podIdentity_new_eq_ok l.identified
  refine ⟨hauth, husername, hpodName, hanswers, fun uid huid => ?_,
    ⟨r, hr, h.read r hr, hsame, hsubject⟩, hissued⟩
  obtain ⟨actual, hactual⟩ := Option.isSome_iff_exists.mp hanswers.uid
  have heq := l.uid_eq uid (hpodUid.trans huid)
  rw [hactual] at heq ⊢
  exact congrArg some heq

end Invariant

/-- Whatever the order of the requests and the answers to their lookups, a token is only handed to
a pod of a workflow that its subject created. -/
theorem run_isolated (crates : Crates) (validHeader : String → Bool) (db : Database) (now : Int)
    (actions : List Action)
    (h : exec (step crates validHeader) (.init db now) actions = some s)
    (hpods : AllSteps (step crates validHeader) PodsAsRequested (.init db now) actions) :
    Isolated s := by
  have hinv : IsolationInv s := invariant_of_allSteps (fun _ _ _ hInv hC hstep =>
    isolationInv_step hInv hC hstep) (isolationInv_init db now) hpods h
  exact hinv.isolated

def exampleReview : TokenReview where
  status := some
    { authenticated := some true
      user := some
        { username := some "system:serviceaccount:cm37235-3:argo"
          extra := some (.ofList [(podNameKey, ["step-1"]), (podUidKey, ["u1"])]) } }

def examplePod : Pod where
  nameSpace := some "cm37235-3"
  name := some "step-1"
  uid := some "u1"
  labels := some (.ofList [(workflowLabel, "wf")])

def exampleWorkflow : Workflow where
  labels := some (.ofList [(creatorLabel, "ulid1")])

def exampleRows : Database := fun _ =>
  some { issuer := "https://issuer", refreshToken := "r0", expiresAt := none }

def exampleRequest : List Action :=
  [.arrive (some "jwt"), .review 0 (.ok exampleReview), .getPod 0 (.ok examplePod), .lookUp 0,
    .getWorkflow 0 (.ok exampleWorkflow), .cacheSubject 0, .broker (.lookup 0),
    .broker (.takeEntry 0), .broker (.acquire 0), .broker (.relookup 0), .broker (.read 0 true),
    .broker (.respond 0 (some ⟨"a1", some 300, none⟩)), .broker (.insert 0), .finish 0 ""]

theorem exampleRequest_podsAsRequested :
    AllSteps (step exampleCrates fun _ => true) PodsAsRequested (.init exampleRows 0)
      exampleRequest := by
  refine .cons trivial rfl (.cons trivial rfl (.cons (fun r hr => ?_) rfl ?_))
  · cases hr
    exact ⟨rfl, rfl, rfl, by decide, by decide⟩
  · iterate 11 refine .cons trivial rfl ?_
    trivial

theorem run_isolated_example :
    ∃ s, exec (step exampleCrates fun _ => true) (.init exampleRows 0) exampleRequest = some s ∧
      Isolated s ∧ ∃ l, s.requests 0 = some (.granted l "ulid1" "Bearer a1") := by
  refine ⟨_, rfl, ?_, ?_⟩
  · exact run_isolated exampleCrates (fun _ => true) exampleRows 0 exampleRequest rfl
      exampleRequest_podsAsRequested
  · exact ⟨_, rfl⟩

end Workflows.AuthBroker.ExtAuthz
