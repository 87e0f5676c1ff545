import Workflows.AuthBroker.Steps

/-!
# Where an access token comes from

Each token that a call has obtained, and each token in the cache, was issued by an exchange of a
refresh token that the database held for its subject. No condition on the locks is needed.
-/

namespace Workflows.AuthBroker

open AuthCore

variable {crates : Crates} {s t : State}

/-- An exchange of a refresh token stored for the subject has issued the access token. -/
def Issued (s : State) (subject : String) (token : AccessToken) : Prop :=
  ∃ x response, s.exchanges token.exchange = some x ∧ x.stored.subject = subject ∧
    x.outcome = .succeeded response ∧ response.accessToken = token.secret

def Phase.token : Phase → Option AccessToken
  | .writing _ cached => some cached.accessToken
  | .inserting _ cached => some cached.accessToken
  | .done token => token
  | _ => none

structure ProvenanceInv (s : State) : Prop where
  bounded : ∀ e, s.nextExchange ≤ e → s.exchanges e = none
  exchanging : ∀ i subject l stored e, s.calls i = some ⟨subject, .exchanging l stored e⟩ →
    s.exchanges e = some { stored, outcome := .pending } ∧ stored.subject = subject
  unique : ∀ i j subject subject' l l' stored stored' e,
    s.calls i = some ⟨subject, .exchanging l stored e⟩ →
    s.calls j = some ⟨subject', .exchanging l' stored' e⟩ → i = j
  call : ∀ i c token, s.calls i = some c → c.phase.token = some token → Issued s c.subject token
  cache : ∀ subject cached, s.tokenCache subject = some cached →
    Issued s subject cached.accessToken

theorem provenanceInv_init (db : Database) (now : Int) : ProvenanceInv (.init db now) where
  bounded _ _ := rfl
  exchanging _ _ _ _ _ h := nomatch h
  unique _ _ _ _ _ _ _ _ _ h := nomatch h
  call _ _ _ h := nomatch h
  cache _ _ h := nomatch h

/-- Issued tokens stay issued as long as no finished exchange is touched. -/
theorem Issued.mono {subject : String} {token : AccessToken} (h : Issued s subject token)
    (hex : ∀ e x response, s.exchanges e = some x → x.outcome = .succeeded response →
      t.exchanges e = some x) : Issued t subject token := by
  obtain ⟨x, response, hx, hsubject, hout, hsecret⟩ := h
  exact ⟨x, response, hex _ x response hx hout, hsubject, hout, hsecret⟩

theorem ProvenanceInv.cachedToken (h : ProvenanceInv s) {subject : String} {token : AccessToken}
    (htoken : s.cachedToken subject = some token) : Issued s subject token := by
  obtain ⟨cached, hcached, hif⟩ := Option.bind_eq_some_iff.mp htoken
  split_ifs at hif
  cases hif
  exact h.cache subject cached hcached

/-- A step that starts no exchange: the call it moves has its token issued. -/
theorem ProvenanceInv.congr (h : ProvenanceInv s) (hex : t.exchanges = s.exchanges)
    (hnext : t.nextExchange = s.nextExchange)
    (hcalls : ∀ i c, t.calls i = some c → s.calls i = some c ∨
      ((∀ l stored e, c.phase ≠ .exchanging l stored e) ∧
        ∀ token, c.phase.token = some token → Issued s c.subject token))
    (hcache : ∀ subject cached, t.tokenCache subject = some cached →
      Issued s subject cached.accessToken) : ProvenanceInv t := by
  have hmono : ∀ {subject token}, Issued s subject token → Issued t subject token :=
    fun hissued => hissued.mono fun e x _ hx _ => by rw [hex]; exact hx
  have hold : ∀ {i subject l stored e}, t.calls i = some ⟨subject, .exchanging l stored e⟩ →
      s.calls i = some ⟨subject, .exchanging l stored e⟩ := fun hi =>
    (hcalls _ _ hi).resolve_right fun hnew => hnew.1 _ _ _ rfl
  constructor
  case bounded =>
    intro e he
    rw [hex]
    exact h.bounded e (hnext ▸ he)
  case exchanging =>
    intro i subject l stored e hi
    rw [hex]
    exact h.exchanging i subject l stored e (hold hi)
  case unique =>
    intro i j subject subject' l l' stored stored' e hi hj
    exact h.unique i j subject subject' l l' stored stored' e (hold hi) (hold hj)
  case call =>
    intro i c token hi htoken
    obtain hi | ⟨-, hissued⟩ := hcalls i c hi
    · exact hmono (h.call i c token hi htoken)
    · exact hmono (hissued token htoken)
  case cache => exact fun subject cached hc => hmono (hcache subject cached hc)

theorem ProvenanceInv.setPhase (h : ProvenanceInv s) {i : Nat} {subject : String} {q : Phase}
    (hq : ∀ l stored e, q ≠ .exchanging l stored e)
    (htoken : ∀ token, q.token = some token → Issued s subject token) :
    ProvenanceInv (s.setPhase i subject q) := by
  refine h.congr rfl rfl (fun j c hj => ?_) h.cache
  obtain ⟨-, rfl⟩ | ⟨-, hj⟩ := calls_setPhase hj
  · exact .inr ⟨hq, htoken⟩
  · exact .inl hj

theorem ProvenanceInv.setPhase_of_token_none (h : ProvenanceInv s) {i : Nat} {subject : String}
    {q : Phase} (hq : ∀ l stored e, q ≠ .exchanging l stored e) (htoken : q.token = none) :
    ProvenanceInv (s.setPhase i subject q) :=
  h.setPhase hq fun token htok => by simp [htoken] at htok

theorem ProvenanceInv.lt_of_exchanges (h : ProvenanceInv s) {e : Nat} {x : Exchange}
    (he : s.exchanges e = some x) : e < s.nextExchange :=
  lt_of_eq_some h.bounded he

theorem ProvenanceInv.read (h : ProvenanceInv s) {i : Nat} {subject : String} {l : Nat}
    {stored : StoredToken}
    (hread : readTokenFromDatabase s.database subject none s.now = .ok stored) :
    ProvenanceInv { (s.setPhase i subject (.exchanging l stored s.nextExchange)).setExchange
      s.nextExchange { stored, outcome := .pending } with nextExchange := s.nextExchange + 1 } := by
  have hkept : ∀ e x, s.exchanges e = some x → ((s.setPhase i subject
      (.exchanging l stored s.nextExchange)).setExchange s.nextExchange
        { stored, outcome := .pending }).exchanges e = some x := by
    intro e x he
    have hne : e ≠ s.nextExchange := Nat.ne_of_lt (h.lt_of_exchanges he)
    exact (State.setExchange_exchanges_of_ne _ hne _).trans he
  constructor
  case bounded =>
    intro e he
    have hne : e ≠ s.nextExchange := Nat.ne_of_gt he
    exact (State.setExchange_exchanges_of_ne _ hne _).trans (h.bounded e (Nat.le_of_succ_le he))
  case exchanging =>
    intro j subject' l' stored' e hj
    obtain ⟨-, heq⟩ | ⟨-, hj⟩ := calls_setPhase hj
    · cases heq
      exact ⟨State.setExchange_exchanges_self .., (readTokenFromDatabase_eq_ok hread).1⟩
    · obtain ⟨he, hsubject⟩ := h.exchanging j subject' l' stored' e hj
      exact ⟨hkept e _ he, hsubject⟩
  case unique =>
    intro j k subject' subject'' l' l'' stored' stored'' e hj hk
    obtain ⟨hji, heq⟩ | ⟨hji, hj⟩ := calls_setPhase hj <;>
      obtain ⟨hki, heq'⟩ | ⟨hki, hk⟩ := calls_setPhase hk
    · exact hji.trans hki.symm
    · cases heq
      exact absurd (h.lt_of_exchanges (h.exchanging k _ _ _ _ hk).1) (Nat.lt_irrefl _)
    · cases heq'
      exact absurd (h.lt_of_exchanges (h.exchanging j _ _ _ _ hj).1) (Nat.lt_irrefl _)
    · exact h.unique j k subject' subject'' l' l'' stored' stored'' e hj hk
  case call =>
    intro j c token hj htoken
    obtain ⟨-, rfl⟩ | ⟨-, hj⟩ := calls_setPhase hj
    · cases htoken
    · exact (h.call j c token hj htoken).mono fun e x _ hx _ => hkept e x hx
  case cache =>
    intro subject' cached hc
    exact (h.cache subject' cached hc).mono fun e x _ hx _ => hkept e x hx

theorem ProvenanceInv.settle (h : ProvenanceInv s) {i : Nat} {subject : String} {l e : Nat}
    {stored : StoredToken} {q : Phase} {o : Outcome}
    (hi : s.calls i = some ⟨subject, .exchanging l stored e⟩)
    (hq : ∀ l stored e, q ≠ .exchanging l stored e)
    (htoken : ∀ token, q.token = some token → token.exchange = e ∧
      ∃ response, o = .succeeded response ∧ response.accessToken = token.secret) :
    ProvenanceInv ((s.setPhase i subject q).setExchange e { stored, outcome := o }) := by
  obtain ⟨hpending, hsubject⟩ := h.exchanging i subject l stored e hi
  have hkept : ∀ f x response, s.exchanges f = some x → x.outcome = .succeeded response →
      ((s.setPhase i subject q).setExchange e { stored, outcome := o }).exchanges f = some x := by
    intro f x response hf hx
    have hne : f ≠ e := by
      rintro rfl
      rw [hpending] at hf
      cases hf
      cases hx
    exact (State.setExchange_exchanges_of_ne _ hne _).trans hf
  have hother : ∀ {j subject' l' stored' f}, ((s.setPhase i subject q).setExchange e
      { stored, outcome := o }).calls j = some ⟨subject', .exchanging l' stored' f⟩ →
      j ≠ i ∧ s.calls j = some ⟨subject', .exchanging l' stored' f⟩ := fun hj =>
    (calls_setPhase hj).resolve_left fun hnew =>
      hq _ _ _ (congrArg Call.phase hnew.2).symm
  constructor
  case bounded =>
    intro f hf
    have hne : f ≠ e := Nat.ne_of_gt (Nat.lt_of_lt_of_le (h.lt_of_exchanges hpending) hf)
    exact (State.setExchange_exchanges_of_ne _ hne _).trans (h.bounded f hf)
  case exchanging =>
    intro j subject' l' stored' f hmoved
    obtain ⟨hji, hj⟩ := hother hmoved
    have hne : f ≠ e := by
      rintro rfl
      exact hji (h.unique j i _ _ _ _ _ _ f hj hi)
    obtain ⟨hf, hsub⟩ := h.exchanging j subject' l' stored' f hj
    exact ⟨(State.setExchange_exchanges_of_ne _ hne _).trans hf, hsub⟩
  case unique =>
    intro j k subject' subject'' l' l'' stored' stored'' f hj hk
    exact h.unique j k _ _ _ _ _ _ f (hother hj).2 (hother hk).2
  case call =>
    intro j c token hj htok
    obtain ⟨-, rfl⟩ | ⟨-, hj⟩ := calls_setPhase hj
    · obtain ⟨rfl, response, rfl, hsecret⟩ := htoken token htok
      exact ⟨_, response, State.setExchange_exchanges_self .., hsubject, rfl, hsecret⟩
    · exact (h.call j c token hj htok).mono hkept
  case cache =>
    intro subject' cached hc
    exact (h.cache subject' cached hc).mono hkept

theorem afterResponse_token {now : Int} {l e : Nat} {stored : StoredToken} {subject : String}
    {response : TokenResponse} {token : AccessToken}
    (h : (afterResponse crates now l stored e subject response).token = some token) :
    token = ⟨response.accessToken, e⟩ := by
  unfold afterResponse at h
  split at h
  · cases h
  · split_ifs at h <;> cases h <;> rfl

theorem provenanceInv_step {a : Action} (h : ProvenanceInv s) (hstep : step crates s a = some t) :
    ProvenanceInv t := by
  cases a with
  | advance seconds =>
    cases hstep
    exact h.congr rfl rfl (fun _ _ => .inl) h.cache
  | start subject =>
    cases hstep
    have hmoved : ProvenanceInv (s.setPhase s.nextCall subject .lookup) :=
      h.setPhase_of_token_none (fun _ _ _ heq => nomatch heq) rfl
    exact hmoved.congr rfl rfl (fun _ _ => .inl) hmoved.cache
  | lookup i =>
    obtain ⟨subject, -, ⟨token, htoken, rfl⟩ | rfl⟩ := step_lookup hstep
    · refine h.setPhase (fun _ _ _ heq => nomatch heq) fun token' heq => ?_
      cases heq
      exact h.cachedToken htoken
    · exact h.setPhase_of_token_none (fun _ _ _ heq => nomatch heq) rfl
  | takeEntry i =>
    obtain ⟨subject, -, ⟨lock, -, rfl⟩ | ⟨-, rfl⟩⟩ := step_takeEntry hstep
    · exact h.setPhase_of_token_none (fun _ _ _ heq => nomatch heq) rfl
    · have hmoved : ProvenanceInv (s.setPhase i subject (.waiting s.nextLock)) :=
        h.setPhase_of_token_none (fun _ _ _ heq => nomatch heq) rfl
      exact hmoved.congr rfl rfl (fun _ _ => .inl) hmoved.cache
  | acquire i =>
    obtain ⟨subject, lock, -, -, rfl⟩ := step_acquire hstep
    exact h.setPhase_of_token_none (fun _ _ _ heq => nomatch heq) rfl
  | relookup i =>
    obtain ⟨subject, lock, -, ⟨token, htoken, rfl⟩ | rfl⟩ := step_relookup hstep
    · refine h.setPhase (fun _ _ _ heq => nomatch heq) fun token' heq => ?_
      cases heq
      exact h.cachedToken htoken
    · exact h.setPhase_of_token_none (fun _ _ _ heq => nomatch heq) rfl
  | read i ok =>
    obtain ⟨subject, lock, -, ⟨stored, hread, rfl⟩ | rfl⟩ := step_read hstep
    · exact h.read hread
    · exact h.setPhase_of_token_none (fun _ _ _ heq => nomatch heq) rfl
  | respond i answer =>
    obtain ⟨subject, lock, stored, e, hi, ⟨-, rfl⟩ | ⟨response, -, rfl⟩⟩ := step_respond hstep
    · exact h.settle hi (fun _ _ _ heq => nomatch heq) fun _ heq => nomatch heq
    · refine h.settle hi (fun _ _ _ => afterResponse_ne_exchanging) fun token htoken => ?_
      obtain rfl := afterResponse_token htoken
      exact ⟨rfl, response, rfl, rfl⟩
  | write i ok =>
    obtain ⟨subject, lock, cached, hi, ⟨-, rfl⟩ | ⟨-, rfl⟩⟩ := step_write hstep
    · have hmoved : ProvenanceInv (s.setPhase i subject (.inserting lock cached)) := by
        refine h.setPhase (fun _ _ _ heq => nomatch heq) fun token heq => ?_
        cases heq
        exact h.call i _ _ hi rfl
      exact hmoved.congr rfl rfl (fun _ _ => .inl) hmoved.cache
    · exact h.setPhase_of_token_none (fun _ _ _ heq => nomatch heq) rfl
  | insert i =>
    obtain ⟨subject, lock, cached, hi, rfl⟩ := step_insert hstep
    have hissued : Issued s subject cached.accessToken := h.call i _ _ hi rfl
    have hmoved : ProvenanceInv (s.setPhase i subject (.done (some cached.accessToken))) := by
      refine h.setPhase (fun _ _ _ heq => nomatch heq) fun token heq => ?_
      cases heq
      exact hissued
    refine hmoved.congr rfl rfl (fun _ _ => .inl) fun subject' cached' hc => ?_
    rcases eq_or_ne subject' subject with rfl | hsub
    · simp only [Function.update_self] at hc
      cases hc
      exact hissued
    · simp only [Function.update_of_ne hsub] at hc
      exact h.cache subject' cached' hc
  | evict subject =>
    cases hstep
    refine h.congr rfl rfl (fun _ _ => .inl) fun subject' cached' hc => ?_
    rcases eq_or_ne subject' subject with rfl | hsub
    · simp only [Function.update_self] at hc
      cases hc
    · simp only [Function.update_of_ne hsub] at hc
      exact h.cache subject' cached' hc
  | wake =>
    obtain ⟨cleanup, rfl⟩ := step_scan (.inl rfl) hstep
    exact h.congr rfl rfl (fun _ _ => .inl) h.cache
  | inspect subject =>
    obtain ⟨cleanup, rfl⟩ := step_scan (.inr (.inl ⟨subject, rfl⟩)) hstep
    exact h.congr rfl rfl (fun _ _ => .inl) h.cache
  | endScan =>
    obtain ⟨cleanup, rfl⟩ := step_scan (.inr (.inr rfl)) hstep
    exact h.congr rfl rfl (fun _ _ => .inl) h.cache
  | removeLock =>
    obtain ⟨subject, stale, -, rfl⟩ | ⟨-, rfl⟩ := step_removeLock hstep
    · exact h.congr rfl rfl (fun _ _ => .inl) h.cache
    · exact h.congr rfl rfl (fun _ _ => .inl) h.cache

/-- What was issued stays issued, and the calls there are keep their subjects. -/
structure Extends (s t : State) : Prop where
  nextCall : s.nextCall ≤ t.nextCall
  subject : ∀ i subject p, i < s.nextCall → s.calls i = some ⟨subject, p⟩ →
    ∃ q, t.calls i = some ⟨subject, q⟩
  issued : ∀ subject token, Issued s subject token → Issued t subject token

theorem extends_step {a : Action} (h : ProvenanceInv s) (hstep : step crates s a = some t) :
    Extends s t where
  nextCall := by
    obtain ⟨-, hnext⟩ | ⟨_, _, _, _, -, -, hnext⟩ | ⟨_, -, hnext⟩ := step_calls hstep <;> omega
  subject i subject p hlt hi := by
    obtain ⟨hcalls, -⟩ | ⟨j, subject', p', q, hj, hcalls, -⟩ | ⟨subject', hcalls, -⟩ :=
      step_calls hstep
    · exact ⟨p, hcalls ▸ hi⟩
    · rw [hcalls]
      rcases eq_or_ne i j with rfl | hij
      · rw [hj] at hi
        cases hi
        exact ⟨q, State.setPhase_calls_self ..⟩
      · exact ⟨p, (State.setPhase_calls_of_ne s hij ..).trans hi⟩
    · rw [hcalls]
      exact ⟨p, (State.setPhase_calls_of_ne s (Nat.ne_of_lt hlt) ..).trans hi⟩
  issued subject token hissued := by
    refine hissued.mono fun e x response hx hout => ?_
    obtain hex | ⟨y, hex⟩ | ⟨i, subject', l, stored, f, o, hi, hex⟩ := step_exchanges hstep
    · rw [hex]
      exact hx
    · have hne : e ≠ s.nextExchange := Nat.ne_of_lt (h.lt_of_exchanges hx)
      rw [hex, State.setExchange_exchanges_of_ne s hne, hx]
    · have hne : e ≠ f := by
        rintro rfl
        rw [(h.exchanging i subject' l stored e hi).1] at hx
        cases hx
        cases hout
      rw [hex, State.setExchange_exchanges_of_ne s hne, hx]

end Workflows.AuthBroker
