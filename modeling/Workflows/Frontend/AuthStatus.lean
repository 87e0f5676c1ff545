import Workflows.Foundations.Execution
import Workflows.Foundations.Utf16
import Mathlib

/-!
# The authentication status

The hook asks the gateway whether a token is authenticated and keeps the answers in session
storage, under a key of 32 bits that is made from the gateway and the token.
-/

namespace Workflows.Frontend

open Execution

section AuthUtils

/-- What `/\/auth(\/(login|status))?$/` matches. -/
def authSuffixes : List (List Char) := ["/auth".toList, "/auth/login".toList, "/auth/status".toList]

def stripAuth (cs : List Char) : List Char :=
  match authSuffixes.find? (·.isSuffixOf cs) with
  | some suffix => cs.take (cs.length - suffix.length)
  | none => cs

variable (origin : String)

/-- The origin is the location of the window. -/
def baseGatewayUrl (gatewayUrl : Option String) : String :=
  String.ofList (stripAuth ((gatewayUrl.getD origin).toList.rdropWhile (· = '/')))

def digit36 (n : Nat) : Char :=
  if n < 10 then Char.ofNat ('0'.toNat + n) else Char.ofNat ('a'.toNat + (n - 10))

/-- At most so many digits. -/
def digits36 : Nat → Nat → List Char
  | 0, _ => []
  | limit + 1, n => if n < 36 then [digit36 n] else digits36 limit (n / 36) ++ [digit36 (n % 36)]

/-- The products are exact, and `^` takes both sides modulo `2 ^ 32`. -/
def hashWord (units : List Nat) : BitVec 32 :=
  units.foldl (fun result unit => result * 33 ^^^ BitVec.ofNat 32 unit) 5381

/-- A word has seven digits at most. -/
def hash (value : String) : String :=
  String.ofList (digits36 7 (hashWord (Utf16.codeUnits value.toList)).toNat)

/-- The base URL of a gateway and a token. -/
abbrev Scope := String × String

def scopeKey (scope : Scope) : String :=
  "workflows-auth-status:" ++ hash (scope.1 ++ "|" ++ scope.2)

def authStatusCacheKey (accessToken : String) (gatewayUrl : Option String) : String :=
  scopeKey (baseGatewayUrl origin gatewayUrl, accessToken)

structure CachedStatus where
  authenticated : Bool
  checkedAt : Int

/-- Statuses are all that is stored under these keys. -/
abbrev SessionStorage := String → Option CachedStatus

/-- The time in milliseconds, and whether the session storage can be used. -/
structure Moment where
  now : Int
  available : Bool

variable (storage : SessionStorage) (moment : Moment) (cacheKey : String)

def readAuthStatusCache (ttlMs : Int) : Option Bool :=
  if moment.available then
    (storage cacheKey).bind fun cached =>
      if moment.now - cached.checkedAt > ttlMs then none else some cached.authenticated
  else none

def writeAuthStatusCache (authenticated : Bool) : SessionStorage :=
  if moment.available then
    Function.update storage cacheKey (some { authenticated, checkedAt := moment.now })
  else storage

end AuthUtils

section Hook

structure UseAuthStatusOptions where
  accessToken : Option String
  gatewayUrl : Option String := none
  cacheTtlMs : Int := 30000

structure AuthStatus where
  authenticated : Bool
  loading : Bool
  deriving DecidableEq

structure FetchedStatus where
  cacheKey : String
  authenticated : Bool

/-- The options of the last rendering, and what the hook remembers. -/
structure UseAuthStatus where
  options : UseAuthStatusOptions
  known : Option Bool
  fetched : Option FetchedStatus

/-- A request to `/auth/status` in flight. One of an earlier mount sets no state. -/
structure Request where
  scope : Scope
  cacheKey : String
  aborted : Bool
  mounted : Bool

variable (origin : String)

/-- An empty token counts as none. -/
def UseAuthStatusOptions.scope (options : UseAuthStatusOptions) : Option Scope :=
  (options.accessToken.filter (· ≠ "")).map fun accessToken =>
    (baseGatewayUrl origin options.gatewayUrl, accessToken)

def UseAuthStatusOptions.cacheKey (options : UseAuthStatusOptions) : Option String :=
  (options.accessToken.filter (· ≠ "")).map fun accessToken =>
    authStatusCacheKey origin accessToken options.gatewayUrl

def readKnown (storage : SessionStorage) (moment : Moment) (options : UseAuthStatusOptions) :
    Option Bool :=
  match options.cacheKey origin with
  | some cacheKey => readAuthStatusCache storage moment cacheKey options.cacheTtlMs
  | none => some false

/-- The request that the effect makes. -/
def effect (options : UseAuthStatusOptions) (known : Option Bool) : List Request :=
  match options.accessToken.filter (· ≠ ""), known with
  | some accessToken, none =>
    [{ scope := (baseGatewayUrl origin options.gatewayUrl, accessToken)
       cacheKey := authStatusCacheKey origin accessToken options.gatewayUrl
       aborted := false
       mounted := true }]
  | _, _ => []

def UseAuthStatus.resolved (hook : UseAuthStatus) : Option Bool :=
  hook.known.or (hook.fetched.bind fun fetched =>
    if some fetched.cacheKey = hook.options.cacheKey origin then some fetched.authenticated
    else none)

def UseAuthStatus.status (hook : UseAuthStatus) : AuthStatus where
  authenticated := (hook.resolved origin).getD false
  loading := (hook.resolved origin).isNone

end Hook

/-- The page with its hook, the requests in flight and the results of those that are done. -/
structure Page where
  storage : SessionStorage
  hook : UseAuthStatus
  requests : List Request
  results : List (Scope × Bool)

namespace Page

variable (origin : String)

/-- The memo of the cached status is renewed with the key or the age limit, and the effect runs
again with the token, the gateway, the key or that status. -/
def render (page : Page) (moment : Moment) (options : UseAuthStatusOptions) : Page :=
  let last := page.hook.options
  let sameKey := options.cacheKey origin = last.cacheKey origin
  let known :=
    if sameKey ∧ options.cacheTtlMs = last.cacheTtlMs then page.hook.known
    else readKnown origin page.storage moment options
  let sameEffect := sameKey ∧ known = page.hook.known ∧ options.accessToken = last.accessToken ∧
    options.gatewayUrl = last.gatewayUrl
  { page with
    hook := { page.hook with options, known }
    requests :=
      if sameEffect then page.requests
      else page.requests.map ({ · with aborted := true }) ++ effect origin options known }

/-- The hook of before, if any, is unmounted. -/
def mount (page : Page) (moment : Moment) (options : UseAuthStatusOptions) : Page :=
  let known := readKnown origin page.storage moment options
  { page with
    hook := { options, known, fetched := none }
    requests :=
      page.requests.map ({ · with aborted := true, mounted := false }) ++
        effect origin options known }

def first (moment : Moment) (options : UseAuthStatusOptions) : Page :=
  let known := readKnown origin (fun _ => none) moment options
  { storage := fun _ => none
    hook := { options, known, fetched := none }
    requests := effect origin options known
    results := [] }

def setFetched (page : Page) (request : Request) (authenticated : Bool) : Page :=
  { page with
    hook :=
      if request.mounted then
        { page.hook with fetched := some { cacheKey := request.cacheKey, authenticated } }
      else page.hook
    results := page.results ++ [(request.scope, authenticated)] }

/-- The `i`-th request is answered. This may be after its effect has been cleaned up. -/
def complete (page : Page) (moment : Moment) (i : Nat) (authenticated : Bool) : Option Page :=
  page.requests[i]?.map fun request =>
    { page with
      storage := writeAuthStatusCache page.storage moment request.cacheKey authenticated
      requests := page.requests.eraseIdx i }.setFetched request authenticated

def fail (page : Page) (i : Nat) : Option Page :=
  page.requests[i]?.map fun request =>
    let page := { page with requests := page.requests.eraseIdx i }
    if request.aborted then page else page.setFetched request false

inductive Event where
  | render (moment : Moment) (options : UseAuthStatusOptions)
  | mount (moment : Moment) (options : UseAuthStatusOptions)
  | complete (moment : Moment) (i : Nat) (authenticated : Bool)
  | fail (i : Nat)

def Event.options : Event → Option UseAuthStatusOptions
  | .render _ options | .mount _ options => some options
  | .complete .. | .fail _ => none

def step (page : Page) : Event → Option Page
  | .render moment options => some (page.render origin moment options)
  | .mount moment options => some (page.mount origin moment options)
  | .complete moment i authenticated => page.complete moment i authenticated
  | .fail i => page.fail i

@[simp] theorem options_setFetched (page : Page) (request : Request) (b : Bool) :
    (page.setFetched request b).hook.options = page.hook.options := by
  rw [setFetched]
  split_ifs <;> rfl

@[simp] theorem known_setFetched (page : Page) (request : Request) (b : Bool) :
    (page.setFetched request b).hook.known = page.hook.known := by
  rw [setFetched]
  split_ifs <;> rfl

section Provenance

variable {origin : String}

theorem cacheKey_eq (options : UseAuthStatusOptions) :
    options.cacheKey origin = (options.scope origin).map scopeKey := by
  rw [UseAuthStatusOptions.scope, Option.map_map]
  rfl

/-- The scopes that the hook is used for. -/
def scopes (origin : String) (given : List UseAuthStatusOptions) : List Scope :=
  given.filterMap (·.scope origin)

def CollisionFree (origin : String) (given : List UseAuthStatusOptions) : Prop :=
  ∀ a ∈ scopes origin given, ∀ b ∈ scopes origin given, scopeKey a = scopeKey b → a = b

instance (given : List UseAuthStatusOptions) : Decidable (CollisionFree origin given) :=
  inferInstanceAs (Decidable (∀ a ∈ _, ∀ b ∈ _, _ → _))

/-- What is shown for a gateway and a token is what a request for them has led to. -/
def ShowsOwn (origin : String) (page : Page) : Prop :=
  ∀ scope, page.hook.options.scope origin = some scope →
    (page.hook.status origin).loading = false →
    (scope, (page.hook.status origin).authenticated) ∈ page.results

/-- A result for one of the scopes that have this key. -/
def Backed (asked : List Scope) (results : List (Scope × Bool)) (cacheKey : String)
    (authenticated : Bool) : Prop :=
  ∃ scope ∈ asked, scopeKey scope = cacheKey ∧ (scope, authenticated) ∈ results

variable {asked : List Scope} {page : Page} {cacheKey : String} {b : Bool}

theorem Backed.append {results : List (Scope × Bool)} (h : Backed asked results cacheKey b)
    (results' : List (Scope × Bool)) : Backed asked (results ++ results') cacheKey b := by
  obtain ⟨scope, hasked, hkey, hmem⟩ := h
  exact ⟨scope, hasked, hkey, List.mem_append_left _ hmem⟩

/-- Everything the page remembers comes from a request for a scope with its key. -/
structure Kept (origin : String) (asked : List Scope) (page : Page) : Prop where
  scope : ∀ scope, page.hook.options.scope origin = some scope → scope ∈ asked
  storage : ∀ cacheKey cached, page.storage cacheKey = some cached →
    Backed asked page.results cacheKey cached.authenticated
  known : ∀ scope b, page.hook.options.scope origin = some scope → page.hook.known = some b →
    Backed asked page.results (scopeKey scope) b
  fetched : ∀ fetched, page.hook.fetched = some fetched →
    Backed asked page.results fetched.cacheKey fetched.authenticated
  requests : ∀ request ∈ page.requests,
    request.scope ∈ asked ∧ request.cacheKey = scopeKey request.scope

theorem readKnown_backed {storage : SessionStorage} {results : List (Scope × Bool)}
    (hstorage : ∀ cacheKey cached, storage cacheKey = some cached →
      Backed asked results cacheKey cached.authenticated) {moment : Moment}
    {options : UseAuthStatusOptions} {scope : Scope} (hscope : options.scope origin = some scope)
    (h : readKnown origin storage moment options = some b) :
    Backed asked results (scopeKey scope) b := by
  rw [readKnown, cacheKey_eq, hscope] at h
  dsimp only [Option.map_some] at h
  rw [readAuthStatusCache] at h
  split_ifs at h with havailable
  obtain ⟨cached, hcached, hfresh⟩ := Option.bind_eq_some_iff.mp h
  split_ifs at hfresh
  obtain rfl := Option.some.inj hfresh
  exact hstorage _ cached hcached

theorem mem_effect {options : UseAuthStatusOptions} {memo : Option Bool} {request : Request}
    (h : request ∈ effect origin options memo) :
    options.scope origin = some request.scope ∧ request.cacheKey = scopeKey request.scope := by
  unfold effect at h
  split at h
  · next accessToken htoken =>
    obtain rfl := List.mem_singleton.mp h
    rw [UseAuthStatusOptions.scope, htoken]
    exact ⟨rfl, rfl⟩
  · cases h

theorem requests_of_rendering {options : UseAuthStatusOptions} {memo : Option Bool}
    {requests : List Request} (hscope : ∀ scope, options.scope origin = some scope → scope ∈ asked)
    (hrequests : ∀ request ∈ requests,
      request.scope ∈ asked ∧ request.cacheKey = scopeKey request.scope)
    {leave : Request → Request} (hleave : ∀ request, (leave request).scope = request.scope ∧
      (leave request).cacheKey = request.cacheKey) :
    ∀ request ∈ requests.map leave ++ effect origin options memo,
      request.scope ∈ asked ∧ request.cacheKey = scopeKey request.scope := by
  intro request hrequest
  rcases List.mem_append.mp hrequest with hold | hnew
  · obtain ⟨before, hbefore, rfl⟩ := List.mem_map.mp hold
    rw [(hleave before).1, (hleave before).2]
    exact hrequests before hbefore
  · obtain ⟨heq, hkey⟩ := mem_effect hnew
    exact ⟨hscope _ heq, hkey⟩

theorem kept_first {options : UseAuthStatusOptions} (moment : Moment)
    (hscope : ∀ scope, options.scope origin = some scope → scope ∈ asked) :
    Kept origin asked (first origin moment options) where
  scope := hscope
  storage := nofun
  known scope b heq hknown := by
    refine readKnown_backed (fun cacheKey cached hcached => ?_) heq hknown
    cases hcached
  fetched := nofun
  requests request hrequest := by
    obtain ⟨heq, hkey⟩ := mem_effect hrequest
    exact ⟨hscope _ heq, hkey⟩

theorem Kept.mount (h : Kept origin asked page) (moment : Moment) {options : UseAuthStatusOptions}
    (hscope : ∀ scope, options.scope origin = some scope → scope ∈ asked) :
    Kept origin asked (page.mount origin moment options) where
  scope := hscope
  storage := h.storage
  known _ _ heq hknown := readKnown_backed h.storage heq hknown
  fetched := nofun
  requests := requests_of_rendering hscope h.requests fun _ => ⟨rfl, rfl⟩

theorem Kept.render (h : Kept origin asked page) (moment : Moment)
    {options : UseAuthStatusOptions}
    (hscope : ∀ scope, options.scope origin = some scope → scope ∈ asked) :
    Kept origin asked (page.render origin moment options) where
  scope := hscope
  storage := h.storage
  known scope b heq hknown := by
    dsimp only [Page.render] at hknown heq ⊢
    split_ifs at hknown with hsame
    · obtain ⟨last, hlast, hkey⟩ : ∃ last, page.hook.options.scope origin = some last ∧
          scopeKey last = scopeKey scope := by
        have hkeys := hsame.1.symm
        rw [cacheKey_eq, cacheKey_eq, heq, Option.map_some, Option.map_eq_some_iff] at hkeys
        exact hkeys
      rw [← hkey]
      exact h.known last b hlast hknown
    · exact readKnown_backed h.storage heq hknown
  fetched := h.fetched
  requests := by
    dsimp only [Page.render]
    split_ifs
    · exact h.requests
    · exact requests_of_rendering hscope h.requests fun _ => ⟨rfl, rfl⟩
    · exact h.requests
    · exact requests_of_rendering hscope h.requests fun _ => ⟨rfl, rfl⟩

theorem Kept.setFetched (h : Kept origin asked page) {request : Request}
    (hrequest : request.scope ∈ asked ∧ request.cacheKey = scopeKey request.scope) (b : Bool) :
    Kept origin asked (page.setFetched request b) where
  scope scope heq := by
    rw [options_setFetched] at heq
    exact h.scope scope heq
  storage cacheKey cached hcached := (h.storage cacheKey cached hcached).append _
  known scope b' heq hknown := by
    rw [options_setFetched] at heq
    rw [known_setFetched] at hknown
    exact (h.known scope b' heq hknown).append _
  fetched fetched hfetched := by
    rw [Page.setFetched] at hfetched
    split_ifs at hfetched
    · obtain rfl := Option.some.inj hfetched
      refine ⟨request.scope, hrequest.1, hrequest.2.symm, ?_⟩
      exact List.mem_append_right _ (List.mem_singleton_self _)
    · exact (h.fetched fetched hfetched).append _
  requests := h.requests

theorem Kept.write (h : Kept origin asked page) (hbacked : Backed asked page.results cacheKey b)
    (moment : Moment) :
    Kept origin asked
      { page with storage := writeAuthStatusCache page.storage moment cacheKey b } where
  scope := h.scope
  storage key cached hcached := by
    dsimp only at hcached ⊢
    rw [writeAuthStatusCache] at hcached
    split_ifs at hcached
    · rcases eq_or_ne key cacheKey with rfl | hne
      · rw [Function.update_self] at hcached
        obtain rfl := Option.some.inj hcached
        exact hbacked
      · rw [Function.update_of_ne hne] at hcached
        exact h.storage key cached hcached
    · exact h.storage key cached hcached
  known := h.known
  fetched := h.fetched
  requests := h.requests

theorem Kept.eraseIdx (h : Kept origin asked page) (i : Nat) :
    Kept origin asked { page with requests := page.requests.eraseIdx i } where
  scope := h.scope
  storage := h.storage
  known := h.known
  fetched := h.fetched
  requests request hrequest := h.requests request (List.mem_of_mem_eraseIdx hrequest)

theorem Kept.step (h : Kept origin asked page) {event : Event} {page' : Page}
    (hscope : ∀ options, event.options = some options →
      ∀ scope, options.scope origin = some scope → scope ∈ asked)
    (hstep : step origin page event = some page') : Kept origin asked page' := by
  cases event with
  | render moment options =>
    cases hstep
    exact h.render moment (hscope options rfl)
  | mount moment options =>
    cases hstep
    exact h.mount moment (hscope options rfl)
  | complete moment i b =>
    obtain ⟨request, hget, rfl⟩ := Option.map_eq_some_iff.mp hstep
    obtain ⟨hasked, hkey⟩ := h.requests request (List.mem_of_getElem? hget)
    have hset := (h.eraseIdx i).setFetched ⟨hasked, hkey⟩ b
    have hbacked : Backed asked (page.results ++ [(request.scope, b)]) request.cacheKey b :=
      ⟨request.scope, hasked, hkey.symm, List.mem_append_right _ (List.mem_singleton_self _)⟩
    exact hset.write hbacked moment
  | fail i =>
    obtain ⟨request, hget, rfl⟩ := Option.map_eq_some_iff.mp hstep
    have hrequest := h.requests request (List.mem_of_getElem? hget)
    dsimp only
    split_ifs
    · exact h.eraseIdx i
    · exact (h.eraseIdx i).setFetched hrequest false

/-- What the hook has resolved is backed under the key of its options. -/
theorem Kept.resolved (h : Kept origin asked page) {scope : Scope}
    (hscope : page.hook.options.scope origin = some scope)
    (hresolved : page.hook.resolved origin = some b) :
    Backed asked page.results (scopeKey scope) b := by
  rw [UseAuthStatus.resolved] at hresolved
  rcases Option.or_eq_some_iff.mp hresolved with hknown | ⟨-, hrest⟩
  · exact h.known scope b hscope hknown
  · obtain ⟨fetched, hfetched, hsame⟩ := Option.bind_eq_some_iff.mp hrest
    split_ifs at hsame with hkey
    obtain rfl := Option.some.inj hsame
    rw [cacheKey_eq, hscope, Option.map_some, Option.some_inj] at hkey
    exact hkey ▸ h.fetched fetched hfetched

theorem showsOwn_of_run {moment : Moment} {options : UseAuthStatusOptions} {events : List Event}
    (hrun : exec (step origin) (first origin moment options) events = some page)
    (hfree : CollisionFree origin (options :: events.filterMap Event.options)) :
    page.ShowsOwn origin := by
  have hasked : ∀ given ∈ options :: events.filterMap Event.options, ∀ scope,
      given.scope origin = some scope →
      scope ∈ scopes origin (options :: events.filterMap Event.options) :=
    fun given hgiven scope hscope => List.mem_filterMap.mpr ⟨given, hgiven, hscope⟩
  have hreaches : Reaches (step origin) (· ∈ events) (first origin moment options) page :=
    ⟨events, fun _ h => h, hrun⟩
  have hkept : Kept origin (scopes origin (options :: events.filterMap Event.options)) page := by
    apply hreaches.invariant ?_ (kept_first moment (hasked options List.mem_cons_self))
    intro page event page' hkept hevent hstep
    refine hkept.step (fun given hgiven => hasked given ?_) hstep
    exact List.mem_cons_of_mem _ (List.mem_filterMap.mpr ⟨event, hevent, hgiven⟩)
  intro scope hscope hloading
  rw [UseAuthStatus.status, Option.isNone_eq_false_iff, Option.isSome_iff_exists] at hloading
  obtain ⟨b, hb⟩ := hloading
  obtain ⟨other, hother, hkey, hmem⟩ := hkept.resolved hscope hb
  obtain rfl := hfree other hother scope (hkept.scope scope hscope) hkey
  rw [UseAuthStatus.status, hb]
  exact hmem

section Example

def gateway : String := "https://workflows.diamond.ac.uk"

def signedIn (accessToken : String) : UseAuthStatusOptions where
  accessToken := some accessToken

/-- A token is refused and another one is accepted. -/
theorem two_tokens_shown : ∃ page, exec (step gateway) (first gateway ⟨0, true⟩ (signedIn "abc"))
    [.complete ⟨1, true⟩ 0 false, .render ⟨2, true⟩ (signedIn "xyz"),
      .complete ⟨3, true⟩ 0 true] = some page ∧ page.ShowsOwn gateway := by
  obtain ⟨page, hrun⟩ := Option.isSome_iff_exists.mp (show (exec (step gateway)
    (first gateway ⟨0, true⟩ (signedIn "abc")) [.complete ⟨1, true⟩ 0 false,
      .render ⟨2, true⟩ (signedIn "xyz"), .complete ⟨3, true⟩ 0 true]).isSome by decide +kernel)
  exact ⟨page, hrun, showsOwn_of_run hrun (by decide +kernel)⟩

/-- The keys of two tokens are the same. -/
theorem abC_shown_for_acb : ¬∀ (origin : String) (moment : Moment) (options : UseAuthStatusOptions)
    (events : List Event) (page : Page),
    exec (step origin) (first origin moment options) events = some page →
      page.ShowsOwn origin := by
  intro hclaim
  have hrun : ((exec (step gateway) (first gateway ⟨0, true⟩ (signedIn "abC"))
      [.complete ⟨1, true⟩ 0 true, .render ⟨2, true⟩ (signedIn "acb")]).map fun page =>
        (page.hook.options.scope gateway, page.hook.status gateway, page.results)) =
      some (some (gateway, "acb"), ⟨true, false⟩, [((gateway, "abC"), true)]) := by
    decide +kernel
  obtain ⟨page, hpage, heq⟩ := Option.map_eq_some_iff.mp hrun
  obtain ⟨hscope, hstatus, hresults⟩ : page.hook.options.scope gateway = some (gateway, "acb") ∧
      page.hook.status gateway = ⟨true, false⟩ ∧ page.results = [((gateway, "abC"), true)] := by
    simpa only [Prod.mk.injEq] using heq
  have hmem := hclaim _ _ _ _ page hpage _ hscope (by rw [hstatus])
  rw [hstatus, hresults] at hmem
  revert hmem
  decide

end Example

end Provenance

end Page

end Workflows.Frontend
