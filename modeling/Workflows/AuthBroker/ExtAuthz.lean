import Workflows.AuthBroker.Refresh
import Mathlib

/-!
# The external authorization endpoint

`authorize_request` with `PodIdentity::new` and `resolve_subject`, one step for each of its await
points. What the Kubernetes API answers is part of the action, and so is the error text of a call
that fails. The broker's refreshes run beside the requests.
-/

namespace Workflows.AuthBroker.ExtAuthz

open AuthCore

def podNameKey : String := "authentication.kubernetes.io/pod-name"

def podUidKey : String := "authentication.kubernetes.io/pod-uid"

def workflowLabel : String := "workflows.argoproj.io/workflow"

def creatorLabel : String := "workflows.argoproj.io/creator"

def serviceAccountPrefix : String := "system:serviceaccount:"

structure UserInfo where
  username : Option String
  extra : Option (Std.TreeMap String (List String))

structure TokenReviewStatus where
  authenticated : Option Bool
  user : Option UserInfo

structure TokenReview where
  status : Option TokenReviewStatus

structure Pod where
  nameSpace : Option String
  name : Option String
  uid : Option String
  labels : Option (Std.TreeMap String String)

structure Workflow where
  labels : Option (Std.TreeMap String String)

def TokenReview.user (review : TokenReview) : Option UserInfo := review.status.bind (·.user)

def TokenReview.extra (review : TokenReview) (key : String) : Option String :=
  ((review.user.bind (·.extra)).bind fun extra => extra[key]?).bind List.head?

def Pod.label (pod : Pod) (key : String) : Option String := pod.labels.bind fun l => l[key]?

def Workflow.label (workflow : Workflow) (key : String) : Option String :=
  workflow.labels.bind fun l => l[key]?

inductive AuthzError where
  | missingToken
  | tokenNotAuthenticated
  | noUsername
  | unexpectedUsernameFormat (username : String)
  | missingPodName
  | podNotFound (detail : String)
  | podUidMismatch (expected actual : String)
  | subjectResolution (detail : String)
  | tokenValidation (detail : String)
  deriving DecidableEq

namespace AuthzError

def message : AuthzError → String
  | missingToken => "missing service account token"
  | tokenNotAuthenticated => "service account token not authenticated"
  | noUsername => "token review returned no username"
  | unexpectedUsernameFormat username => "unexpected token username format: " ++ username
  | missingPodName => "token review missing pod name"
  | podNotFound detail => "pod not found: " ++ detail
  | podUidMismatch expected actual =>
    "pod uid mismatch: token says " ++ expected ++ ", k8s reports " ++ actual
  | subjectResolution detail => "subject resolution failed: " ++ detail
  | tokenValidation detail => "token validation failed: " ++ detail

def statusCode : AuthzError → Nat
  | tokenValidation _ => 503
  | _ => 403

end AuthzError

section Strings

def stripPrefix (start s : String) : Option String :=
  if start.toList.isPrefixOf s.toList then some (String.ofList (s.toList.drop start.length))
  else none

def splitOnce (c : Char) (s : String) : Option (String × String) :=
  match s.toList.span (· ≠ c) with
  | (before, _ :: after) => some (String.ofList before, String.ofList after)
  | (_, []) => none

theorem eq_append_of_stripPrefix {start s rest : String} (h : stripPrefix start s = some rest) :
    s = start ++ rest := by
  unfold stripPrefix at h
  split_ifs at h with hstart
  cases h
  obtain ⟨tail, htail⟩ := List.isPrefixOf_iff_prefix.mp hstart
  apply String.toList_inj.mp
  rw [String.toList_append, String.toList_ofList, ← htail, ← String.length_toList, List.drop_left]

theorem eq_append_of_splitOnce {c : Char} {s before after : String}
    (h : splitOnce c s = some (before, after)) :
    s = before ++ String.singleton c ++ after ∧ c ∉ before.toList := by
  unfold splitOnce at h
  rw [List.span_eq_takeWhile_dropWhile] at h
  split at h
  next pre d post heq =>
    cases h
    obtain ⟨hpre, hpost⟩ := Prod.mk.inj heq
    have hd : d = c := by
      have hne : s.toList.dropWhile (· ≠ c) ≠ [] := by
        rw [hpost]
        exact List.cons_ne_nil d post
      have hhead := List.head_dropWhile_not (· ≠ c) hne
      simp only [hpost, List.head_cons] at hhead
      simpa using hhead
    constructor
    · apply String.toList_inj.mp
      rw [String.toList_append, String.toList_append, String.toList_ofList, String.toList_ofList,
        String.toList_singleton, List.append_assoc, ← hd, List.singleton_append, ← hpost, ← hpre,
        List.takeWhile_append_dropWhile]
    · rw [String.toList_ofList, ← hpre]
      intro hmem
      simpa using List.mem_takeWhile_imp hmem
  next => cases h

end Strings

structure PodIdentity where
  podNamespace : String
  podName : String
  podUid : Option String
  deriving DecidableEq

def PodIdentity.new (review : TokenReview) : Except AuthzError PodIdentity :=
  if (review.status.bind (·.authenticated)).getD false then
    match review.user.bind (·.username) with
    | none => .error .noUsername
    | some username =>
      match (stripPrefix serviceAccountPrefix username).bind (splitOnce ':') with
      | none => .error (.unexpectedUsernameFormat username)
      | some (podNamespace, _) =>
        match review.extra podNameKey with
        | none => .error .missingPodName
        | some podName => .ok { podNamespace, podName, podUid := review.extra podUidKey }
  else .error .tokenNotAuthenticated

/-- A review from which an identity was taken. -/
structure Reviewed where
  review : TokenReview
  identity : PodIdentity
  identified : PodIdentity.new review = .ok identity

/-- A pod that was looked up for the identity and has the uid asked for. -/
structure Located extends Reviewed where
  pod : Pod
  uid_eq : ∀ expected ∈ identity.podUid, pod.uid.getD "" = expected

def Located.podKey (l : Located) : String :=
  l.identity.podNamespace ++ "/" ++ l.identity.podName ++ "/" ++ l.pod.uid.getD ""

def Located.workflowNamespace (l : Located) : String := l.pod.nameSpace.getD "default"

/-- The await points of `authorize_request_inner`, with its local variables. -/
inductive Request where
  | reviewing (token : String)
  | gettingPod (r : Reviewed)
  | lookingUp (l : Located)
  | gettingWorkflow (l : Located) (workflowName : String)
  | caching (l : Located) (workflowName : String) (workflow : Workflow) (subject : String)
  | refreshing (l : Located) (subject : String) (call : Nat)
  | granted (l : Located) (subject : String) (bearer : String)
  | refused (error : AuthzError)

/-- A subject written to the cache, with the workflow it was read from. -/
structure Resolution where
  located : Located
  workflowNamespace : String
  workflowName : String
  workflow : Workflow
  subject : String

structure State where
  broker : AuthBroker.State
  subjectCache : String → Option String
  requests : Nat → Option Request
  nextRequest : Nat
  /-- Every subject that was ever cached, which the code does not keep. -/
  resolutions : List Resolution

def State.init (database : Database) (now : Int) : State where
  broker := .init database now
  subjectCache := fun _ => none
  requests := fun _ => none
  nextRequest := 0
  resolutions := []

inductive Action where
  /-- A request arrives, with a readable token header or without one. -/
  | arrive (token : Option String)
  | review (i : Nat) (answer : Except String TokenReview)
  | getPod (i : Nat) (answer : Except String Pod)
  | lookUp (i : Nat)
  | getWorkflow (i : Nat) (answer : Except String Workflow)
  | cacheSubject (i : Nat)
  | finish (i : Nat) (detail : String)
  | broker (action : AuthBroker.Action)
  | evictSubject (podKey : String)
  /-- The other services change the table of tokens. -/
  | database (database : Database)

def afterArrival : Option String → Request
  | none => .refused .missingToken
  | some token => .reviewing token

def afterReview : Except String TokenReview → Request
  | .error detail => .refused (.tokenValidation detail)
  | .ok review =>
    match h : PodIdentity.new review with
    | .error error => .refused error
    | .ok identity => .gettingPod ⟨review, identity, h⟩

def afterPod (r : Reviewed) : Except String Pod → Request
  | .error detail =>
    .refused (.podNotFound
      (r.identity.podNamespace ++ "/" ++ r.identity.podName ++ ": " ++ detail))
  | .ok pod =>
    if h : ∀ expected ∈ r.identity.podUid, pod.uid.getD "" = expected then
      .lookingUp { r with pod, uid_eq := h }
    else .refused (.podUidMismatch (r.identity.podUid.getD "") (pod.uid.getD ""))

def afterCacheMiss (l : Located) : Request :=
  match l.pod.label workflowLabel with
  | none =>
    .refused (.subjectResolution ("label workflows.argoproj.io/workflow missing on pod " ++
      l.workflowNamespace ++ "/" ++ l.pod.name.getD ""))
  | some workflowName => .gettingWorkflow l workflowName

def afterWorkflow (l : Located) (workflowName : String) : Except String Workflow → Request
  | .error detail =>
    .refused (.subjectResolution ("failed to get workflow " ++ l.workflowNamespace ++ "/" ++
      workflowName ++ ": " ++ detail))
  | .ok workflow =>
    match workflow.label creatorLabel with
    | none =>
      .refused (.subjectResolution ("label workflows.argoproj.io/creator missing on workflow " ++
        l.workflowNamespace ++ "/" ++ workflowName))
    | some creator => .caching l workflowName workflow creator

def bearerOf (token : AccessToken) : String := "Bearer " ++ token.secret

namespace State

def setRequest (s : State) (i : Nat) (request : Request) : State :=
  { s with requests := Function.update s.requests i (some request) }

def refresh (s : State) (i : Nat) (l : Located) (subject : String) : State :=
  { s.setRequest i (.refreshing l subject s.broker.nextCall) with
    broker := { s.broker.setPhase s.broker.nextCall subject .lookup with
      nextCall := s.broker.nextCall + 1 } }

end State

section Step

variable (crates : Crates) (validHeader : String → Bool)

def step (s : State) : Action → Option State
  | .arrive token =>
    some { s.setRequest s.nextRequest (afterArrival token) with nextRequest := s.nextRequest + 1 }
  | .review i answer =>
    match s.requests i with
    | some (.reviewing _) => some (s.setRequest i (afterReview answer))
    | _ => none
  | .getPod i answer =>
    match s.requests i with
    | some (.gettingPod r) => some (s.setRequest i (afterPod r answer))
    | _ => none
  | .lookUp i =>
    match s.requests i with
    | some (.lookingUp l) =>
      match s.subjectCache l.podKey with
      | some subject => some (s.refresh i l subject)
      | none => some (s.setRequest i (afterCacheMiss l))
    | _ => none
  | .getWorkflow i answer =>
    match s.requests i with
    | some (.gettingWorkflow l workflowName) =>
      some (s.setRequest i (afterWorkflow l workflowName answer))
    | _ => none
  | .cacheSubject i =>
    match s.requests i with
    | some (.caching l workflowName workflow subject) =>
      some { s.refresh i l subject with
        subjectCache := Function.update s.subjectCache l.podKey (some subject)
        resolutions := s.resolutions ++
          [⟨l, l.workflowNamespace, workflowName, workflow, subject⟩] }
    | _ => none
  | .finish i detail =>
    match s.requests i with
    | some (.refreshing l subject call) =>
      match s.broker.calls call with
      | some ⟨_, .done (some token)⟩ =>
        if validHeader (bearerOf token) then
          some (s.setRequest i (.granted l subject (bearerOf token)))
        else some (s.setRequest i (.refused (.tokenValidation detail)))
      | some ⟨_, .done none⟩ => some (s.setRequest i (.refused (.tokenValidation detail)))
      | _ => none
    | _ => none
  | .broker a => (AuthBroker.step crates s.broker a).map fun broker => { s with broker }
  | .evictSubject podKey =>
    some { s with subjectCache := Function.update s.subjectCache podKey none }
  | .database database => some { s with broker := { s.broker with database } }

end Step

end Workflows.AuthBroker.ExtAuthz
