import Workflows.Auth.Services
import Workflows.Cli.Auth

/-!
# The refresh token kept from one refresh to the next

A provider may leave the refresh token out of a response, which means that the one before stays
valid. The broker, the daemons and the gateway go by that; the command line does not, so it holds
the latest token only as long as every response brings one.
-/

namespace Workflows.Auth

open AuthCore AuthBroker Cli Execution

universe u

/-- A response and the time at which it is processed. -/
abbrev Timed := Int × TokenResponse

def latest (held : String) (responses : List Timed) : String :=
  responses.foldl (fun held response => response.2.refreshToken.getD held) held

section Keepers

variable {σ : Type u} {update : σ → Timed → Option σ} {held : σ → Option String}

/-- The responses that are processed leave the latest token. -/
def KeepsLatest (update : σ → Timed → Option σ) (held : σ → Option String) (s : σ)
    (responses : List Timed) : Prop :=
  ∀ token t, held s = some token → exec update s responses = some t →
    held t = some (latest token responses)

theorem keepsLatest_of_step
    (hstep : ∀ s t token response, held s = some token → update s response = some t →
      held t = some (response.2.refreshToken.getD token))
    (s : σ) (responses : List Timed) : KeepsLatest update held s responses := by
  induction responses generalizing s with
  | nil =>
    intro token t htoken hrun
    cases hrun
    exact htoken
  | cons response responses ih =>
    intro token t htoken hrun
    obtain ⟨m, hm, hrest⟩ := exec_cons_eq_some.mp hrun
    exact ih m _ t (hstep s m token response htoken hm) hrest

end Keepers

variable (crates : Crates)

/-- A refresh of a daemon or the gateway that goes on to its end. -/
def serviceUpdate (service : Service) (token : TokenData) (response : Timed) : Option TokenData :=
  match exec (fun (phase : RequestPhase) => phase.next crates service response.1 fun _ => none)
      (.exchanging token false) [.exchange (some response.2), .write true, .save true] with
  | some (.forwarding new _ _) => some new
  | _ => none

/-- A call of the broker that holds its lock and has found no cached token. -/
def lockedCall (subject : String) (database : Database) (now : Int) : AuthBroker.State :=
  { AuthBroker.State.init database now with
    calls := Function.update (fun _ => none) 0 (some ⟨subject, .reading 0⟩)
    nextCall := 1 }

def callActions (response : TokenResponse) : List AuthBroker.Action :=
  if response.refreshToken.isSome then
    [.read 0 true, .respond 0 (some response), .write 0 true, .insert 0]
  else [.read 0 true, .respond 0 (some response), .insert 0]

/-- A refresh of the broker that goes on to its end. -/
def brokerUpdate (subject : String) (database : Database) (response : Timed) : Option Database :=
  (exec (AuthBroker.step crates) (lockedCall subject database response.1)
    (callActions response.2)).map (·.database)

/-- A refresh of the command line that goes on to its end. -/
def cliUpdate (tokens : CachedTokens) (response : Timed) : Option CachedTokens :=
  (refreshTokens (fun _ => .ok response.2) tokens).toOption

def rowToken (subject : String) (database : Database) : Option String :=
  (database subject).map (·.refreshToken)

/-- The command line processes all responses and holds the latest token. -/
def CliKeepsLatest (tokens : CachedTokens) (token : String) (responses : List Timed) : Prop :=
  ∃ t, exec cliUpdate tokens responses = some t ∧ t.refreshToken = some (latest token responses)

section Updates

variable {crates}

theorem serviceUpdate_eq (service : Service) (token : TokenData) (response : Timed) :
    serviceUpdate crates service token response = token.updateTokens crates response.2 response.1 := by
  simp only [serviceUpdate, exec_cons, RequestPhase.next, RequestPhase.afterExchange]
  cases token.updateTokens crates response.2 response.1 with
  | none => rfl
  | some new => rfl

theorem refreshToken_updateTokens {token new : TokenData} {response : TokenResponse} {now : Int}
    (h : token.updateTokens crates response now = some new) :
    new.refreshToken = response.refreshToken.getD token.refreshToken := by
  obtain ⟨expiresAt, -, rfl⟩ := Option.map_eq_some_iff.mp h
  rfl

theorem service_keepsLatest (service : Service) (token : TokenData) (responses : List Timed) :
    KeepsLatest (serviceUpdate crates service) (some ·.refreshToken) token responses := by
  apply keepsLatest_of_step
  intro s t held response hheld hupdate
  rw [serviceUpdate_eq] at hupdate
  cases hheld
  rw [refreshToken_updateTokens hupdate]

theorem cached_of_afterResponse {now : Int} {lock lock' exchange : Nat} {stored : StoredToken}
    {subject : String} {response : TokenResponse} {cached : CachedToken}
    (h : afterResponse crates now lock stored exchange subject response = .writing lock' cached) :
    subject = cached.subject ∧ response.refreshToken = some cached.refreshToken := by
  rw [afterResponse] at h
  split at h
  next => cases h
  next expiresAt hexpiry =>
    split_ifs at h with hissuer hissued
    obtain ⟨new, hnew⟩ := Option.isSome_iff_exists.mp hissued
    cases h
    exact ⟨rfl, by simp [hnew]⟩

theorem rowToken_writeTokenToDatabase (database : Database) (cached : CachedToken) (now : Int) :
    rowToken cached.subject (writeTokenToDatabase database cached.refreshTokenInfo now) =
      some cached.refreshToken := by
  simp [rowToken, writeTokenToDatabase, CachedToken.refreshTokenInfo]

theorem calls_lockedCall (subject : String) (database : Database) (now : Int) :
    (lockedCall subject database now).calls 0 = some ⟨subject, .reading 0⟩ := by
  simp [lockedCall]

theorem read_call {s t : AuthBroker.State} {i lock : Nat} {subject : String}
    (hcall : s.calls i = some ⟨subject, .reading lock⟩)
    (h : AuthBroker.step crates s (.read i true) = some t) :
    t.database = s.database ∧
      ((∃ stored exchange, t.calls i = some ⟨subject, .exchanging lock stored exchange⟩) ∨
        t.calls i = some ⟨subject, .done none⟩) := by
  obtain ⟨subject', lock', hcall', ⟨stored, -, rfl⟩ | rfl⟩ := step_read h
  · rw [hcall] at hcall'
    cases hcall'
    exact ⟨rfl, .inl ⟨stored, s.nextExchange, State.setPhase_calls_self ..⟩⟩
  · rw [hcall] at hcall'
    cases hcall'
    exact ⟨rfl, .inr (State.setPhase_calls_self ..)⟩

theorem respond_call {s t : AuthBroker.State} {i lock exchange : Nat} {subject : String}
    {stored : StoredToken} {response : TokenResponse}
    (hcall : s.calls i = some ⟨subject, .exchanging lock stored exchange⟩)
    (h : AuthBroker.step crates s (.respond i (some response)) = some t) :
    t.database = s.database ∧ t.calls i =
      some ⟨subject, afterResponse crates s.now lock stored exchange subject response⟩ := by
  obtain ⟨subject', lock', stored', exchange', hcall', ⟨hnone, -⟩ | ⟨answer, hanswer, rfl⟩⟩ :=
    step_respond h
  · cases hnone
  · rw [hcall] at hcall'
    cases hcall'
    cases hanswer
    exact ⟨rfl, State.setPhase_calls_self ..⟩

theorem exec_read_respond {subject : String} {database : Database} {response : Timed}
    {actions : List AuthBroker.Action} {t : AuthBroker.State}
    (h : exec (AuthBroker.step crates) (lockedCall subject database response.1)
      (.read 0 true :: .respond 0 (some response.2) :: actions) = some t) :
    ∃ m phase, m.database = database ∧ m.calls 0 = some ⟨subject, phase⟩ ∧
      (∀ lock cached, phase = .writing lock cached →
        subject = cached.subject ∧ response.2.refreshToken = some cached.refreshToken) ∧
      exec (AuthBroker.step crates) m actions = some t := by
  obtain ⟨first, hread, hrest⟩ := exec_cons_eq_some.mp h
  obtain ⟨second, hrespond, hend⟩ := exec_cons_eq_some.mp hrest
  obtain ⟨hdatabase, ⟨stored, exchange, hcall⟩ | hcall⟩ := read_call (calls_lockedCall ..) hread
  · obtain ⟨hsame, hphase⟩ := respond_call hcall hrespond
    exact ⟨second, _, hsame.trans hdatabase, hphase, fun _ _ => cached_of_afterResponse, hend⟩
  · obtain ⟨subject', lock, stored, exchange, hcall', -⟩ := step_respond hrespond
    rw [hcall] at hcall'
    cases hcall'

theorem rowToken_brokerUpdate {subject held : String} {database t : Database} {response : Timed}
    (hheld : rowToken subject database = some held)
    (hupdate : brokerUpdate crates subject database response = some t) :
    rowToken subject t = some (response.2.refreshToken.getD held) := by
  obtain ⟨final, hrun, rfl⟩ := Option.map_eq_some_iff.mp hupdate
  rw [callActions] at hrun
  split_ifs at hrun with hissued
  · obtain ⟨m, phase, hdatabase, hcall, hcached, hrest⟩ := exec_read_respond hrun
    obtain ⟨written, hwrite, hlast⟩ := exec_cons_eq_some.mp hrest
    obtain ⟨final', hinsert, hend⟩ := exec_cons_eq_some.mp hlast
    cases hend
    obtain ⟨subject', lock, cached, hcall', ⟨-, rfl⟩ | ⟨hok, -⟩⟩ := step_write hwrite
    · rw [hcall, Option.some.injEq, Call.mk.injEq] at hcall'
      obtain ⟨rfl, hphase⟩ := hcall'
      obtain ⟨subject', lock', cached', -, rfl⟩ := step_insert hinsert
      obtain ⟨rfl, htoken⟩ := hcached lock cached hphase
      rw [htoken]
      exact rowToken_writeTokenToDatabase ..
    · cases hok
  · obtain ⟨m, phase, hdatabase, hcall, -, hrest⟩ := exec_read_respond hrun
    obtain ⟨final', hinsert, hend⟩ := exec_cons_eq_some.mp hrest
    cases hend
    obtain ⟨subject', lock, cached, -, rfl⟩ := step_insert hinsert
    rw [Option.not_isSome_iff_eq_none.mp hissued]
    exact (congrArg (rowToken subject) hdatabase).trans hheld

theorem broker_keepsLatest (subject : String) (database : Database) (responses : List Timed) :
    KeepsLatest (brokerUpdate crates subject) (rowToken subject) database responses := by
  apply keepsLatest_of_step
  intro s t held response hheld hupdate
  exact rowToken_brokerUpdate hheld hupdate

theorem cliUpdate_of_some {tokens : CachedTokens} {token : String}
    (h : tokens.refreshToken = some token) (response : Timed) :
    cliUpdate tokens response = some
      { idToken := response.2.accessToken, refreshToken := response.2.refreshToken } := by
  simp only [cliUpdate, refreshTokens, h]
  rfl

theorem exec_cliUpdate_of_none {tokens : CachedTokens} (h : tokens.refreshToken = none)
    {responses : List Timed} {t : CachedTokens} (hrun : exec cliUpdate tokens responses = some t) :
    t.refreshToken = none := by
  cases responses with
  | nil =>
    cases hrun
    exact h
  | cons response responses =>
    obtain ⟨m, hm, -⟩ := exec_cons_eq_some.mp hrun
    simp only [cliUpdate, refreshTokens, h] at hm
    cases hm

theorem cliKeepsLatest_iff {tokens : CachedTokens} {token : String}
    (h : tokens.refreshToken = some token) (responses : List Timed) :
    CliKeepsLatest tokens token responses ↔
      ∀ response ∈ responses, response.2.refreshToken.isSome := by
  induction responses generalizing tokens token with
  | nil =>
    refine iff_of_true ⟨tokens, rfl, h⟩ ?_
    intro response hresponse
    cases hresponse
  | cons response responses ih =>
    rw [List.forall_mem_cons]
    have hrun : ∀ t, exec cliUpdate tokens (response :: responses) = some t ↔
        exec cliUpdate { idToken := response.2.accessToken
                         refreshToken := response.2.refreshToken } responses = some t := by
      intro t
      rw [exec_cons, cliUpdate_of_some h]
      rfl
    cases hissued : response.2.refreshToken with
    | none =>
      refine iff_of_false ?_ (by simp)
      rintro ⟨t, ht, hlatest⟩
      rw [exec_cliUpdate_of_none hissued ((hrun t).mp ht)] at hlatest
      cases hlatest
    | some new =>
      have hnext : CliKeepsLatest { idToken := response.2.accessToken
                                    refreshToken := response.2.refreshToken } new responses ↔
          ∀ response ∈ responses, response.2.refreshToken.isSome := ih hissued
      rw [← hnext]
      simp only [CliKeepsLatest, hrun, latest, List.foldl_cons, hissued]
      simp

end Updates

end Workflows.Auth
