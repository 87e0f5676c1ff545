import Workflows.AuthBroker.SingleFlight

/-!
# Refresh tokens are presented once

An exchange that did not fail has used up the token it presented. The row of its subject shows that
token until the call has written the new one, and the lock of the subject keeps every other call
from reading the row in between.
-/

namespace Workflows.AuthBroker

open AuthCore Execution

variable {crates : Crates} {s t : State}

/-- A token that an exchange presented was presented before only by exchanges that failed. -/
def PresentedOnce (s : State) : Prop :=
  ∀ e f x y, e < f → s.exchanges e = some x → s.exchanges f = some y →
    x.stored.refreshTokenSecret = y.stored.refreshTokenSecret → x.outcome = .failed

def DistinctRows (db : Database) : Prop :=
  ∀ subject subject' row row', db subject = some row → db subject' = some row' →
    row.refreshToken = row'.refreshToken → subject = subject'

/-- The token stands in no row and was neither presented nor issued before. -/
structure Fresh (s : State) (token : String) : Prop where
  row : ∀ subject row, s.database subject = some row → row.refreshToken ≠ token
  presented : ∀ e x, s.exchanges e = some x → x.stored.refreshTokenSecret ≠ token
  issued : ∀ e x response, s.exchanges e = some x → x.outcome = .succeeded response →
    response.refreshToken ≠ some token

/-- A successful answer brings a fresh refresh token, which then gets stored. -/
def Rotates (crates : Crates) (s : State) : Action → Prop
  | .respond i (some response) =>
    (∃ token, response.refreshToken = some token ∧ Fresh s token) ∧
    (crates.addDuration s.now (response.expiresIn.getD defaultTokenExpirySecs)).isSome ∧
    ∀ subject lock stored e, s.calls i = some ⟨subject, .exchanging lock stored e⟩ →
      crates.issuerUrl stored.issuer = true
  | .write _ ok => ok = true
  | _ => True

structure RotationInv (s : State) : Prop where
  bounded : ∀ e, s.nextExchange ≤ e → s.exchanges e = none
  unique : ∀ i j c d e, s.calls i = some c → s.calls j = some d →
    c.phase.exchange = some e → d.phase.exchange = some e → i = j
  exchanging : ∀ i subject l stored e, s.calls i = some ⟨subject, .exchanging l stored e⟩ →
    s.exchanges e = some { stored, outcome := .pending }
  writing : ∀ i subject l cached, s.calls i = some ⟨subject, .writing l cached⟩ →
    cached.subject = subject ∧ ∃ x response, s.exchanges cached.accessToken.exchange = some x ∧
      x.outcome = .succeeded response ∧ response.refreshToken = some cached.refreshToken
  unpresented : ∀ i subject l cached e x, s.calls i = some ⟨subject, .writing l cached⟩ →
    s.exchanges e = some x → x.stored.refreshTokenSecret ≠ cached.refreshToken
  unstored : ∀ i subject l cached subject' row, s.calls i = some ⟨subject, .writing l cached⟩ →
    s.database subject' = some row → row.refreshToken ≠ cached.refreshToken
  apart : ∀ i j subject subject' l l' cached cached',
    s.calls i = some ⟨subject, .writing l cached⟩ →
    s.calls j = some ⟨subject', .writing l' cached'⟩ →
    cached.refreshToken = cached'.refreshToken → i = j
  spent : ∀ e x subject row, s.exchanges e = some x → x.outcome ≠ .failed →
    s.database subject = some row → row.refreshToken = x.stored.refreshTokenSecret →
    ∃ i c, s.calls i = some c ∧ c.subject = subject ∧ c.phase.exchange = some e
  distinct : DistinctRows s.database
  once : PresentedOnce s

theorem rotationInv_init {db : Database} (hdb : DistinctRows db) (now : Int) :
    RotationInv (.init db now) where
  bounded _ _ := rfl
  unique _ _ _ _ _ h := nomatch h
  exchanging _ _ _ _ _ h := nomatch h
  writing _ _ _ _ h := nomatch h
  unpresented _ _ _ _ _ _ h := nomatch h
  unstored _ _ _ _ _ _ h := nomatch h
  apart _ _ _ _ _ _ _ _ h := nomatch h
  spent _ _ _ _ h := nomatch h
  distinct := hdb
  once _ _ _ _ _ h := nomatch h

/-- The invariant looks only at the rows, the exchanges and the calls that are between an exchange
and its write. -/
theorem RotationInv.congr (h : RotationInv s) (hdb : t.database = s.database)
    (hex : t.exchanges = s.exchanges) (hnext : t.nextExchange = s.nextExchange)
    (hcalls : ∀ i c, c.phase.exchange.isSome → (t.calls i = some c ↔ s.calls i = some c)) :
    RotationInv t where
  bounded e he := by
    rw [hex]
    exact h.bounded e (hnext ▸ he)
  unique i j c d e hi hj hc hd :=
    h.unique i j c d e ((hcalls i c (by simp [hc])).mp hi) ((hcalls j d (by simp [hd])).mp hj) hc hd
  exchanging i subject l stored e hi := by
    rw [hex]
    exact h.exchanging i subject l stored e ((hcalls i _ rfl).mp hi)
  writing i subject l cached hi := by
    rw [hex]
    exact h.writing i subject l cached ((hcalls i _ rfl).mp hi)
  unpresented i subject l cached e x hi he :=
    h.unpresented i subject l cached e x ((hcalls i _ rfl).mp hi) (hex ▸ he)
  unstored i subject l cached subject' row hi hrow :=
    h.unstored i subject l cached subject' row ((hcalls i _ rfl).mp hi) (hdb ▸ hrow)
  apart i j subject subject' l l' cached cached' hi hj :=
    h.apart i j subject subject' l l' cached cached' ((hcalls i _ rfl).mp hi)
      ((hcalls j _ rfl).mp hj)
  spent e x subject row he hx hrow hsecret := by
    obtain ⟨i, c, hi, hsub, hc⟩ := h.spent e x subject row (hex ▸ he) hx (hdb ▸ hrow) hsecret
    exact ⟨i, c, (hcalls i c (by simp [hc])).mpr hi, hsub, hc⟩
  distinct := hdb ▸ h.distinct
  once e f x y hlt he hf := h.once e f x y hlt (hex ▸ he) (hex ▸ hf)

theorem setPhase_calls_iff {i j : Nat} {subject : String} {p q : Phase} {c : Call}
    (hi : s.calls i = some ⟨subject, p⟩) (hp : c.phase ≠ p) (hq : c.phase ≠ q) :
    (s.setPhase i subject q).calls j = some c ↔ s.calls j = some c := by
  rcases eq_or_ne j i with rfl | hji
  · rw [hi, State.setPhase_calls_self]
    constructor
    · intro h
      cases h
      exact absurd rfl hq
    · intro h
      cases h
      exact absurd rfl hp
  · rw [State.setPhase_calls_of_ne s hji]

theorem RotationInv.setPhase_of_exchange_none (h : RotationInv s) {i : Nat} {subject : String}
    {p q : Phase} (hi : s.calls i = some ⟨subject, p⟩) (hp : p.exchange = none)
    (hq : q.exchange = none) : RotationInv (s.setPhase i subject q) := by
  refine h.congr rfl rfl rfl fun j c hc => setPhase_calls_iff hi ?_ ?_
  · rintro rfl
    simp [hp] at hc
  · rintro rfl
    simp [hq] at hc

theorem RotationInv.start (h : RotationInv s) (hl : LockInv s) (subject : String) :
    RotationInv { s.setPhase s.nextCall subject .lookup with nextCall := s.nextCall + 1 } := by
  refine h.congr rfl rfl rfl fun j c hc => ?_
  rcases eq_or_ne j s.nextCall with rfl | hj
  · rw [hl.bounded _ (Nat.le_refl _)]
    simp only [State.setPhase_calls_self, Option.some.injEq, reduceCtorEq, iff_false]
    rintro rfl
    cases hc
  · rw [State.setPhase_calls_of_ne s hj]

theorem Phase.held_of_exchange {p : Phase} {e : Nat} (h : p.exchange = some e) :
    ∃ l, p.held = some l := by
  cases p with
  | exchanging l stored e => exact ⟨l, rfl⟩
  | writing l cached => exact ⟨l, rfl⟩
  | _ => cases h

theorem RotationInv.lt_of_exchanges (h : RotationInv s) {e : Nat} {x : Exchange}
    (he : s.exchanges e = some x) : e < s.nextExchange :=
  lt_of_eq_some h.bounded he

theorem RotationInv.exchange_lt (h : RotationInv s) {i : Nat} {c : Call} {e : Nat}
    (hi : s.calls i = some c) (hc : c.phase.exchange = some e) : e < s.nextExchange := by
  obtain ⟨subject, phase⟩ := c
  cases phase with
  | exchanging l stored e' =>
    cases hc
    exact h.lt_of_exchanges (h.exchanging i subject l stored e hi)
  | writing l cached =>
    cases hc
    obtain ⟨_, x, _, hx, _⟩ := h.writing i subject l cached hi
    exact h.lt_of_exchanges hx
  | _ => cases hc

/-- A token that a call is about to write has been issued before. -/
theorem RotationInv.not_fresh (h : RotationInv s) {i : Nat} {subject : String} {l : Nat}
    {cached : CachedToken} (hi : s.calls i = some ⟨subject, .writing l cached⟩) :
    ¬Fresh s cached.refreshToken := by
  obtain ⟨-, x, response, hx, houtcome, htoken⟩ := h.writing i subject l cached hi
  intro hfresh
  exact hfresh.issued _ x response hx houtcome htoken

theorem RotationInv.read (h : RotationInv s) (hl : LockInv s) {i : Nat} {subject : String}
    {l : Nat} {stored : StoredToken} (hi : s.calls i = some ⟨subject, .reading l⟩)
    (hread : readTokenFromDatabase s.database subject none s.now = .ok stored) :
    RotationInv { (s.setPhase i subject (.exchanging l stored s.nextExchange)).setExchange
      s.nextExchange { stored, outcome := .pending } with nextExchange := s.nextExchange + 1 } := by
  obtain ⟨-, row, hrow, hsecret⟩ := readTokenFromDatabase_eq_ok hread
  constructor
  case bounded =>
    intro e he
    have hne : e ≠ s.nextExchange := Nat.ne_of_gt he
    exact (State.setExchange_exchanges_of_ne _ hne _).trans (h.bounded e (Nat.le_of_succ_le he))
  case unique =>
    intro j k c d e hj hk hc hd
    obtain ⟨hji, rfl⟩ | ⟨hji, hj'⟩ := calls_setPhase hj <;>
      obtain ⟨hki, rfl⟩ | ⟨hki, hk'⟩ := calls_setPhase hk
    · exact hji.trans hki.symm
    · cases hc
      exact absurd (h.exchange_lt hk' hd) (Nat.lt_irrefl _)
    · cases hd
      exact absurd (h.exchange_lt hj' hc) (Nat.lt_irrefl _)
    · exact h.unique j k c d e hj' hk' hc hd
  case exchanging =>
    intro j subject' l' stored' e hj
    obtain ⟨rfl, heq⟩ | ⟨hji, hj⟩ := calls_setPhase hj
    · cases heq
      exact State.setExchange_exchanges_self ..
    · have hold := h.exchanging j subject' l' stored' e hj
      have hne : e ≠ s.nextExchange := Nat.ne_of_lt (h.lt_of_exchanges hold)
      exact (State.setExchange_exchanges_of_ne _ hne _).trans hold
  case writing =>
    intro j subject' l' cached hj
    obtain ⟨rfl, heq⟩ | ⟨hji, hj⟩ := calls_setPhase hj
    · cases heq
    · obtain ⟨hsub, x, response, hx, hresponse⟩ := h.writing j subject' l' cached hj
      have hne : cached.accessToken.exchange ≠ s.nextExchange :=
        Nat.ne_of_lt (h.lt_of_exchanges hx)
      exact ⟨hsub, x, response, (State.setExchange_exchanges_of_ne _ hne _).trans hx, hresponse⟩
  case unpresented =>
    intro j subject' l' cached e x hj he
    obtain ⟨rfl, heq⟩ | ⟨hji, hj⟩ := calls_setPhase hj
    · cases heq
    · obtain ⟨rfl, rfl⟩ | ⟨hne, he⟩ := exchanges_setExchange he
      · rw [← hsecret]
        exact h.unstored j subject' l' cached subject row hj hrow
      · exact h.unpresented j subject' l' cached e x hj he
  case unstored =>
    intro j subject' l' cached subject'' row' hj hrow'
    obtain ⟨rfl, heq⟩ | ⟨hji, hj⟩ := calls_setPhase hj
    · cases heq
    · exact h.unstored j subject' l' cached subject'' row' hj hrow'
  case apart =>
    intro j k subject' subject'' l' l'' cached cached' hj hk
    obtain ⟨rfl, heq⟩ | ⟨hji, hj⟩ := calls_setPhase hj
    · cases heq
    · obtain ⟨rfl, heq⟩ | ⟨hki, hk⟩ := calls_setPhase hk
      · cases heq
      · exact h.apart j k subject' subject'' l' l'' cached cached' hj hk
  case spent =>
    intro e x subject' row' he hx hrow' hsecret'
    obtain ⟨rfl, rfl⟩ | ⟨hne, he⟩ := exchanges_setExchange he
    · have hsub : subject = subject' :=
        h.distinct subject subject' row row' hrow hrow' (hsecret.trans hsecret'.symm)
      exact ⟨i, _, State.setPhase_calls_self .., hsub, rfl⟩
    · obtain ⟨j, c, hj, hsub, hc⟩ := h.spent e x subject' row' he hx hrow' hsecret'
      have hji : j ≠ i := by
        rintro rfl
        rw [hi] at hj
        cases hj
        cases hc
      exact ⟨j, c, (State.setPhase_calls_of_ne s hji ..).trans hj, hsub, hc⟩
  case distinct => exact h.distinct
  case once =>
    intro e f x y hlt he hf heq
    obtain ⟨rfl, rfl⟩ | ⟨hne, hf⟩ := exchanges_setExchange hf
    · obtain ⟨rfl, -⟩ | ⟨hne, he⟩ := exchanges_setExchange he
      · exact absurd hlt (Nat.lt_irrefl _)
      · -- the call of a token that is spent and still in the row would hold the reader's lock
        by_contra hfailed
        obtain ⟨j, c, hj, hsub, hc⟩ := h.spent e x subject row he hfailed hrow
          (hsecret.trans heq.symm)
        obtain ⟨l', hheld⟩ := Phase.held_of_exchange hc
        have hji : j = i := hl.eq_of_held hj hi hheld rfl hsub
        rw [hji, hi] at hj
        cases hj
        cases hc
    · obtain ⟨rfl, -⟩ | ⟨-, he⟩ := exchanges_setExchange he
      · exact absurd (h.lt_of_exchanges hf) (Nat.not_lt_of_gt hlt)
      · exact h.once e f x y hlt he hf heq

/-- The answer arrives: the call ends with a failed exchange or goes on to store a fresh token. -/
inductive Settles (s : State) (subject : String) (l e : Nat) : Phase → Outcome → Prop where
  | failed : Settles s subject l e (.done none) .failed
  | succeeded {cached : CachedToken} {response : TokenResponse}
      (hsubject : cached.subject = subject) (hexchange : cached.accessToken.exchange = e)
      (htoken : response.refreshToken = some cached.refreshToken)
      (hfresh : Fresh s cached.refreshToken) :
      Settles s subject l e (.writing l cached) (.succeeded response)

theorem Settles.exchange {subject : String} {l e e' : Nat} {q : Phase} {o : Outcome}
    (hq : Settles s subject l e q o) (h : q.exchange = some e') : e' = e := by
  cases hq with
  | failed => cases h
  | succeeded _ hexchange => exact (Option.some.inj h).symm.trans hexchange

theorem RotationInv.settle (h : RotationInv s) {i : Nat} {subject : String} {l e : Nat}
    {stored : StoredToken} {q : Phase} {o : Outcome}
    (hi : s.calls i = some ⟨subject, .exchanging l stored e⟩) (hq : Settles s subject l e q o) :
    RotationInv ((s.setPhase i subject q).setExchange e { stored, outcome := o }) := by
  have hpending := h.exchanging i subject l stored e hi
  have hother : ∀ j c e', j ≠ i → s.calls j = some c → c.phase.exchange = some e' → e' ≠ e := by
    rintro j c e' hji hj hc rfl
    exact hji (h.unique j i c _ e' hj hi hc rfl)
  have hstored : ∀ f y,
      ((s.setPhase i subject q).setExchange e { stored, outcome := o }).exchanges f = some y →
      ∃ x, s.exchanges f = some x ∧ y.stored = x.stored ∧
        (x.outcome = .failed → y.outcome = .failed) := by
    intro f y hf
    obtain ⟨rfl, rfl⟩ | ⟨-, hf⟩ := exchanges_setExchange hf
    · exact ⟨_, hpending, rfl, fun hx => nomatch hx⟩
    · exact ⟨y, hf, rfl, id⟩
  constructor
  case bounded =>
    intro f hf
    have hne : f ≠ e := Nat.ne_of_gt (Nat.lt_of_lt_of_le (h.lt_of_exchanges hpending) hf)
    exact (State.setExchange_exchanges_of_ne _ hne _).trans (h.bounded f hf)
  case unique =>
    intro j k c d f hj hk hc hd
    obtain ⟨hji, rfl⟩ | ⟨hji, hj'⟩ := calls_setPhase hj <;>
      obtain ⟨hki, rfl⟩ | ⟨hki, hk'⟩ := calls_setPhase hk
    · exact hji.trans hki.symm
    · exact absurd (hq.exchange hc) (hother k d f hki hk' hd)
    · exact absurd (hq.exchange hd) (hother j c f hji hj' hc)
    · exact h.unique j k c d f hj' hk' hc hd
  case exchanging =>
    intro j subject' l' stored' f hj
    obtain ⟨-, heq⟩ | ⟨hji, hj⟩ := calls_setPhase hj
    · cases hq <;> cases heq
    · have hne : f ≠ e := hother j _ f hji hj rfl
      exact (State.setExchange_exchanges_of_ne _ hne _).trans
        (h.exchanging j subject' l' stored' f hj)
  case writing =>
    intro j subject' l' cached hj
    obtain ⟨-, heq⟩ | ⟨hji, hj⟩ := calls_setPhase hj
    · cases hq with
      | failed => cases heq
      | succeeded hsubject hexchange htoken =>
        cases heq
        subst hexchange
        exact ⟨hsubject, _, _, State.setExchange_exchanges_self .., rfl, htoken⟩
    · obtain ⟨hsub, x, response, hx, hresponse⟩ := h.writing j subject' l' cached hj
      have hne : cached.accessToken.exchange ≠ e := hother j _ _ hji hj rfl
      exact ⟨hsub, x, response, (State.setExchange_exchanges_of_ne _ hne _).trans hx, hresponse⟩
  case unpresented =>
    intro j subject' l' cached f y hj hf
    obtain ⟨x, hx, hy, -⟩ := hstored f y hf
    rw [hy]
    obtain ⟨-, heq⟩ | ⟨hji, hj⟩ := calls_setPhase hj
    · cases hq with
      | failed => cases heq
      | succeeded _ _ _ hfresh =>
        cases heq
        exact hfresh.presented f x hx
    · exact h.unpresented j subject' l' cached f x hj hx
  case unstored =>
    intro j subject' l' cached subject'' row hj hrow
    obtain ⟨-, heq⟩ | ⟨hji, hj⟩ := calls_setPhase hj
    · cases hq with
      | failed => cases heq
      | succeeded _ _ _ hfresh =>
        cases heq
        exact hfresh.row subject'' row hrow
    · exact h.unstored j subject' l' cached subject'' row hj hrow
  case apart =>
    intro j k subject' subject'' l' l'' cached cached' hj hk heq
    obtain ⟨hji, hc⟩ | ⟨hji, hj'⟩ := calls_setPhase hj <;>
      obtain ⟨hki, hd⟩ | ⟨hki, hk'⟩ := calls_setPhase hk
    · exact hji.trans hki.symm
    · obtain rfl : Phase.writing l' cached = q := congrArg Call.phase hc
      cases hq with
      | succeeded _ _ _ hfresh => exact absurd (heq ▸ hfresh) (h.not_fresh hk')
    · obtain rfl : Phase.writing l'' cached' = q := congrArg Call.phase hd
      cases hq with
      | succeeded _ _ _ hfresh => exact absurd (heq ▸ hfresh) (h.not_fresh hj')
    · exact h.apart j k subject' subject'' l' l'' cached cached' hj' hk' heq
  case spent =>
    intro f y subject' row hf hy hrow hsecret
    obtain ⟨x, hx, hstx, hfailed⟩ := hstored f y hf
    obtain ⟨j, c, hj, hsub, hc⟩ := h.spent f x subject' row hx (mt hfailed hy) hrow (hstx ▸ hsecret)
    rcases eq_or_ne j i with rfl | hji
    · rw [hi] at hj
      cases hj
      cases hc
      obtain ⟨-, rfl⟩ | ⟨hne, -⟩ := exchanges_setExchange hf
      · cases hq with
        | failed => exact absurd rfl hy
        | succeeded _ hexchange =>
          exact ⟨j, _, State.setPhase_calls_self .., hsub, congrArg some hexchange⟩
      · exact absurd rfl hne
    · exact ⟨j, c, (State.setPhase_calls_of_ne s hji ..).trans hj, hsub, hc⟩
  case distinct => exact h.distinct
  case once =>
    intro f g y z hlt hf hg heq
    obtain ⟨x, hx, hstx, hfailed⟩ := hstored f y hf
    obtain ⟨x', hx', hstx', -⟩ := hstored g z hg
    rw [hstx, hstx'] at heq
    exact hfailed (h.once f g x x' hlt hx hx' heq)

theorem RotationInv.store (h : RotationInv s) {i : Nat} {subject : String} {l : Nat}
    {cached : CachedToken} (hi : s.calls i = some ⟨subject, .writing l cached⟩) :
    RotationInv { s.setPhase i subject (.inserting l cached) with
      database := writeTokenToDatabase s.database cached.refreshTokenInfo s.now } := by
  obtain ⟨hsubject, -⟩ := h.writing i subject l cached hi
  subst hsubject
  have hrows : ∀ subject' row,
      writeTokenToDatabase s.database cached.refreshTokenInfo s.now subject' = some row →
      (subject' = cached.subject ∧ row.refreshToken = cached.refreshToken) ∨
        (subject' ≠ cached.subject ∧ s.database subject' = some row) := by
    intro subject' row hrow
    rcases eq_or_ne subject' cached.subject with rfl | hsub
    · rw [writeTokenToDatabase, CachedToken.refreshTokenInfo, Function.update_self] at hrow
      cases hrow
      exact .inl ⟨rfl, rfl⟩
    · exact .inr ⟨hsub, (Function.update_of_ne hsub ..).symm.trans hrow⟩
  have hback : ∀ j c e, (s.setPhase i cached.subject (.inserting l cached)).calls j = some c →
      c.phase.exchange = some e → j ≠ i ∧ s.calls j = some c := by
    intro j c e hj hc
    obtain ⟨-, rfl⟩ | hj := calls_setPhase hj
    · cases hc
    · exact hj
  constructor
  case bounded => exact h.bounded
  case unique =>
    intro j k c d e hj hk hc hd
    exact h.unique j k c d e (hback j c e hj hc).2 (hback k d e hk hd).2 hc hd
  case exchanging =>
    intro j subject' l' stored e hj
    exact h.exchanging j subject' l' stored e (hback j _ e hj rfl).2
  case writing =>
    intro j subject' l' cached' hj
    exact h.writing j subject' l' cached' (hback j _ _ hj rfl).2
  case unpresented =>
    intro j subject' l' cached' e x hj
    exact h.unpresented j subject' l' cached' e x (hback j _ _ hj rfl).2
  case unstored =>
    intro j subject' l' cached' subject'' row hj hrow
    obtain ⟨hji, hj⟩ := hback j _ _ hj rfl
    obtain ⟨-, htoken⟩ | ⟨-, hrow⟩ := hrows subject'' row hrow
    · rw [htoken]
      exact fun heq => hji (h.apart j i _ _ _ _ _ _ hj hi heq.symm)
    · exact h.unstored j subject' l' cached' subject'' row hj hrow
  case apart =>
    intro j k subject' subject'' l' l'' cached' cached'' hj hk
    exact h.apart j k subject' subject'' l' l'' cached' cached'' (hback j _ _ hj rfl).2
      (hback k _ _ hk rfl).2
  case spent =>
    intro e x subject' row he hx hrow hsecret
    obtain ⟨rfl, htoken⟩ | ⟨hsub', hrow⟩ := hrows subject' row hrow
    · exact absurd (hsecret.symm.trans htoken) (h.unpresented i _ l cached e x hi he)
    · obtain ⟨j, c, hj, hsub, hc⟩ := h.spent e x subject' row he hx hrow hsecret
      have hji : j ≠ i := by
        rintro rfl
        rw [hi] at hj
        cases hj
        exact hsub' hsub.symm
      exact ⟨j, c, (State.setPhase_calls_of_ne s hji ..).trans hj, hsub, hc⟩
  case distinct =>
    intro subject' subject'' row row' hrow hrow' heq
    obtain ⟨hsub', htoken⟩ | ⟨hsub', hrow⟩ := hrows subject' row hrow <;>
      obtain ⟨hsub'', htoken'⟩ | ⟨hsub'', hrow'⟩ := hrows subject'' row' hrow'
    · exact hsub'.trans hsub''.symm
    · exact absurd (heq.symm.trans htoken) (h.unstored i _ l cached subject'' row' hi hrow')
    · exact absurd (heq.trans htoken') (h.unstored i _ l cached subject' row hi hrow)
    · exact h.distinct subject' subject'' row row' hrow hrow' heq
  case once => exact h.once

theorem settles_afterResponse {i : Nat} {subject : String} {l e : Nat} {stored : StoredToken}
    {response : TokenResponse} (hi : s.calls i = some ⟨subject, .exchanging l stored e⟩)
    (hrotates : Rotates crates s (.respond i (some response))) :
    Settles s subject l e (afterResponse crates s.now l stored e subject response)
      (.succeeded response) := by
  obtain ⟨⟨token, htoken, hfresh⟩, hexpiry, hissuer⟩ := hrotates
  obtain ⟨expiresAt, hexpiresAt⟩ := Option.isSome_iff_exists.mp hexpiry
  have hwriting : afterResponse crates s.now l stored e subject response =
      .writing l
        { accessToken := { secret := response.accessToken, exchange := e }
          expiresAt
          refreshToken := token
          issuer := stored.issuer
          subject } := by
    simp [afterResponse, hexpiresAt, hissuer subject l stored e hi, htoken]
  rw [hwriting]
  exact .succeeded rfl rfl htoken hfresh

theorem rotationInv_step {a : Action} (h : RotationInv s) (hl : LockInv s)
    (hrotates : Rotates crates s a) (hstep : step crates s a = some t) : RotationInv t := by
  cases a with
  | advance seconds =>
    cases hstep
    exact h.congr rfl rfl rfl fun _ _ _ => Iff.rfl
  | start subject =>
    cases hstep
    exact h.start hl subject
  | lookup i =>
    obtain ⟨subject, hi, ⟨token, _, rfl⟩ | rfl⟩ := step_lookup hstep
    · exact h.setPhase_of_exchange_none hi rfl rfl
    · exact h.setPhase_of_exchange_none hi rfl rfl
  | takeEntry i =>
    obtain ⟨subject, hi, ⟨lock, _, rfl⟩ | ⟨_, rfl⟩⟩ := step_takeEntry hstep
    · exact h.setPhase_of_exchange_none hi rfl rfl
    · exact (h.setPhase_of_exchange_none (q := .waiting s.nextLock) hi rfl rfl).congr rfl rfl rfl
        fun _ _ _ => Iff.rfl
  | acquire i =>
    obtain ⟨subject, lock, hi, _, rfl⟩ := step_acquire hstep
    exact h.setPhase_of_exchange_none hi rfl rfl
  | relookup i =>
    obtain ⟨subject, lock, hi, ⟨token, _, rfl⟩ | rfl⟩ := step_relookup hstep
    · exact h.setPhase_of_exchange_none hi rfl rfl
    · exact h.setPhase_of_exchange_none hi rfl rfl
  | read i ok =>
    obtain ⟨subject, lock, hi, ⟨stored, hread, rfl⟩ | rfl⟩ := step_read hstep
    · exact h.read hl hi hread
    · exact h.setPhase_of_exchange_none hi rfl rfl
  | respond i answer =>
    obtain ⟨subject, lock, stored, e, hi, ⟨_, rfl⟩ | ⟨response, rfl, rfl⟩⟩ := step_respond hstep
    · exact h.settle hi .failed
    · exact h.settle hi (settles_afterResponse hi hrotates)
  | write i ok =>
    obtain ⟨subject, lock, cached, hi, ⟨_, rfl⟩ | ⟨hfalse, _⟩⟩ := step_write hstep
    · exact h.store hi
    · cases hfalse.symm.trans hrotates
  | insert i =>
    obtain ⟨subject, lock, cached, hi, rfl⟩ := step_insert hstep
    exact (h.setPhase_of_exchange_none (q := .done (some cached.accessToken)) hi rfl rfl).congr
      rfl rfl rfl fun _ _ _ => Iff.rfl
  | evict subject =>
    cases hstep
    exact h.congr rfl rfl rfl fun _ _ _ => Iff.rfl
  | wake =>
    obtain ⟨cleanup, rfl⟩ := step_scan (.inl rfl) hstep
    exact h.congr rfl rfl rfl fun _ _ _ => Iff.rfl
  | inspect subject =>
    obtain ⟨cleanup, rfl⟩ := step_scan (.inr (.inl ⟨subject, rfl⟩)) hstep
    exact h.congr rfl rfl rfl fun _ _ _ => Iff.rfl
  | endScan =>
    obtain ⟨cleanup, rfl⟩ := step_scan (.inr (.inr rfl)) hstep
    exact h.congr rfl rfl rfl fun _ _ _ => Iff.rfl
  | removeLock =>
    obtain ⟨subject, stale, _, rfl⟩ | ⟨_, rfl⟩ := step_removeLock hstep
    · exact h.congr rfl rfl rfl fun _ _ _ => Iff.rfl
    · exact h.congr rfl rfl rfl fun _ _ _ => Iff.rfl

/-- As long as the pruning task leaves alone the locks in use, refreshes are single-flight; where
answers also rotate the refresh token, no token is presented twice. -/
theorem refresh_singleFlight (crates : Crates) (db : Database) (now : Int) (actions : List Action)
    (h : exec (step crates) (.init db now) actions = some s)
    (hkeep : AllSteps (step crates) KeepsUsedLocks (.init db now) actions) :
    SingleFlight s ∧
      (DistinctRows db → AllSteps (step crates) (Rotates crates) (.init db now) actions →
        PresentedOnce s) := by
  refine ⟨?_, fun hdb hrotates => ?_⟩
  · have hlock : LockInv s := invariant_of_allSteps (fun _ _ _ hInv hC hstep =>
      lockInv_step hInv hC hstep) (lockInv_init db now) hkeep h
    exact hlock.singleFlight
  · have hboth : ∀ s a t, LockInv s ∧ RotationInv s → KeepsUsedLocks s a ∧ Rotates crates s a →
        step crates s a = some t → LockInv t ∧ RotationInv t := fun s a t hInv hC hstep =>
      ⟨lockInv_step hInv.1 hC.1 hstep, rotationInv_step hInv.2 hInv.1 hC.2 hstep⟩
    have hs := invariant_of_allSteps hboth ⟨lockInv_init db now, rotationInv_init hdb now⟩
      (hkeep.and hrotates) h
    exact hs.2.once

def exampleDatabase : Database := fun subject =>
  if subject = "ulid1" then
    some { issuer := "https://issuer", refreshToken := "r0", expiresAt := none }
  else none

def exampleRefresh : List Action :=
  [.start "ulid1", .lookup 0, .takeEntry 0, .acquire 0, .relookup 0, .read 0 true,
    .respond 0 (some ⟨"a1", some 300, some "r1"⟩), .write 0 true, .insert 0,
    .start "ulid1", .lookup 1]

theorem exampleDatabase_distinct : DistinctRows exampleDatabase := by
  intro subject subject' row row' h h' _
  simp only [exampleDatabase] at h h'
  split_ifs at h h' with hs hs'
  exact hs.trans hs'.symm

theorem exampleRefresh_rotates : AllSteps (step exampleCrates) (Rotates exampleCrates)
    (.init exampleDatabase 0) exampleRefresh := by
  iterate 6 refine .cons trivial rfl ?_
  refine .cons ⟨⟨"r1", rfl, ?_, ?_, ?_⟩, rfl, fun _ _ _ _ _ => rfl⟩ rfl ?_
  · intro subject row h
    change exampleDatabase subject = some row at h
    simp only [exampleDatabase] at h
    split_ifs at h
    cases h
    decide
  · intro e x h
    obtain ⟨-, rfl⟩ | ⟨-, h⟩ := exchanges_setExchange h
    · decide
    · cases h
  · intro e x response h hx
    obtain ⟨-, rfl⟩ | ⟨-, h⟩ := exchanges_setExchange h
    · cases hx
    · cases h
  · refine .cons rfl rfl ?_
    iterate 3 refine .cons trivial rfl ?_
    trivial

theorem refresh_singleFlight_example :
    ∃ s, exec (step exampleCrates) (.init exampleDatabase 0) exampleRefresh = some s ∧
      SingleFlight s ∧ PresentedOnce s := by
  refine ⟨_, rfl, ?_⟩
  obtain ⟨hflight, honce⟩ := refresh_singleFlight exampleCrates exampleDatabase 0 exampleRefresh
    rfl (by decide)
  exact ⟨hflight, honce exampleDatabase_distinct exampleRefresh_rotates⟩

def exampleRace : List Action :=
  [.start "ulid1", .lookup 0, .takeEntry 0, .acquire 0, .relookup 0, .read 0 true,
    .wake, .inspect "ulid1", .endScan, .removeLock,
    .start "ulid1", .lookup 1, .takeEntry 1, .acquire 1, .relookup 1, .read 1 true]

/-- The task drops the lock of the first call, and the second call refreshes beside it. -/
theorem refresh_not_singleFlight :
    ∃ s, exec (step exampleCrates) (.init exampleDatabase 0) exampleRace = some s ∧
      ¬SingleFlight s ∧ ¬PresentedOnce s := by
  refine ⟨_, rfl, fun h => ?_, fun h => ?_⟩
  · exact absurd (h 0 1 "ulid1" 0 1 _ _ 0 1 rfl rfl) (by decide)
  · cases h 0 1 _ _ (by decide) rfl rfl rfl

end Workflows.AuthBroker
