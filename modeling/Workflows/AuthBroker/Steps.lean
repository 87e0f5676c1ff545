import Workflows.AuthBroker.Refresh
import Mathlib.Tactic.Cases

/-!
# What each step of the broker can do

One inversion lemma for each action that moves a call or the pruning task. Invariants are proved
from these and never unfold the step function.
-/

namespace Workflows.AuthBroker

open AuthCore

variable {crates : Crates} {s t : State} {i : Nat}

/-- The exchange whose new token the call has still to store. -/
def Phase.exchange : Phase → Option Nat
  | .exchanging _ _ exchange => some exchange
  | .writing _ cached => some cached.accessToken.exchange
  | _ => none

theorem lt_of_eq_some {α : Type} {f : Nat → Option α} {n j : Nat} {x : α}
    (hbounded : ∀ k, n ≤ k → f k = none) (hj : f j = some x) : j < n := by
  by_contra hlt
  rw [hbounded j (Nat.not_lt.mp hlt)] at hj
  cases hj

theorem calls_setPhase {j : Nat} {subject : String} {q : Phase} {c : Call}
    (h : (s.setPhase i subject q).calls j = some c) :
    (j = i ∧ c = ⟨subject, q⟩) ∨ (j ≠ i ∧ s.calls j = some c) := by
  rcases eq_or_ne j i with rfl | hji
  · rw [State.setPhase_calls_self, Option.some.injEq] at h
    exact .inl ⟨rfl, h.symm⟩
  · rw [State.setPhase_calls_of_ne s hji] at h
    exact .inr ⟨hji, h⟩

theorem exchanges_setExchange {e f : Nat} {x y : Exchange}
    (h : (s.setExchange e x).exchanges f = some y) :
    (f = e ∧ y = x) ∨ (f ≠ e ∧ s.exchanges f = some y) := by
  rcases eq_or_ne f e with rfl | hfe
  · rw [State.setExchange_exchanges_self, Option.some.injEq] at h
    exact .inl ⟨rfl, h.symm⟩
  · rw [State.setExchange_exchanges_of_ne s hfe] at h
    exact .inr ⟨hfe, h⟩

theorem afterResponse_ne_exchanging {now : Int} {l l' e e' : Nat} {stored stored' : StoredToken}
    {subject : String} {response : TokenResponse} :
    afterResponse crates now l stored e subject response ≠ .exchanging l' stored' e' := by
  unfold afterResponse
  split
  · exact fun h => nomatch h
  · split_ifs <;> exact fun h => nomatch h

theorem step_lookup (h : step crates s (.lookup i) = some t) :
    ∃ subject, s.calls i = some ⟨subject, .lookup⟩ ∧
      ((∃ token, s.cachedToken subject = some token ∧
          t = s.setPhase i subject (.done (some token))) ∨
        t = s.setPhase i subject .entry) := by
  simp only [step] at h
  split at h
  next subject hi =>
    refine ⟨subject, hi, ?_⟩
    split at h
    next token htoken => exact .inl ⟨token, htoken, (Option.some.inj h).symm⟩
    next => exact .inr (Option.some.inj h).symm
  next => cases h

theorem step_takeEntry (h : step crates s (.takeEntry i) = some t) :
    ∃ subject, s.calls i = some ⟨subject, .entry⟩ ∧
      ((∃ lock, s.refreshLocks subject = some lock ∧
          t = s.setPhase i subject (.waiting lock)) ∨
        (s.refreshLocks subject = none ∧
          t = { s.setPhase i subject (.waiting s.nextLock) with
            refreshLocks := Function.update s.refreshLocks subject (some s.nextLock)
            nextLock := s.nextLock + 1 })) := by
  simp only [step] at h
  split at h
  next subject hi =>
    refine ⟨subject, hi, ?_⟩
    split at h
    next lock hlock => exact .inl ⟨lock, hlock, (Option.some.inj h).symm⟩
    next hlock => exact .inr ⟨hlock, (Option.some.inj h).symm⟩
  next => cases h

theorem step_acquire (h : step crates s (.acquire i) = some t) :
    ∃ subject lock, s.calls i = some ⟨subject, .waiting lock⟩ ∧ s.IsFree lock ∧
      t = s.setPhase i subject (.relookup lock) := by
  simp only [step] at h
  split at h
  next subject lock hi =>
    split_ifs at h with hfree
    exact ⟨subject, lock, hi, hfree, (Option.some.inj h).symm⟩
  next => cases h

theorem step_relookup (h : step crates s (.relookup i) = some t) :
    ∃ subject lock, s.calls i = some ⟨subject, .relookup lock⟩ ∧
      ((∃ token, s.cachedToken subject = some token ∧
          t = s.setPhase i subject (.done (some token))) ∨
        t = s.setPhase i subject (.reading lock)) := by
  simp only [step] at h
  split at h
  next subject lock hi =>
    refine ⟨subject, lock, hi, ?_⟩
    split at h
    next token htoken => exact .inl ⟨token, htoken, (Option.some.inj h).symm⟩
    next => exact .inr (Option.some.inj h).symm
  next => cases h

theorem step_read {ok : Bool} (h : step crates s (.read i ok) = some t) :
    ∃ subject lock, s.calls i = some ⟨subject, .reading lock⟩ ∧
      ((∃ stored, readTokenFromDatabase s.database subject none s.now = .ok stored ∧
          t = { (s.setPhase i subject (.exchanging lock stored s.nextExchange)).setExchange
              s.nextExchange { stored, outcome := .pending } with
            nextExchange := s.nextExchange + 1 }) ∨
        t = s.setPhase i subject (.done none)) := by
  simp only [step] at h
  split at h
  next subject lock hi =>
    refine ⟨subject, lock, hi, ?_⟩
    split at h
    next stored hread => exact .inl ⟨stored, hread, (Option.some.inj h).symm⟩
    next => exact .inr (Option.some.inj h).symm
  next => cases h

theorem step_respond {answer : Option TokenResponse}
    (h : step crates s (.respond i answer) = some t) :
    ∃ subject lock stored exchange,
      s.calls i = some ⟨subject, .exchanging lock stored exchange⟩ ∧
      ((answer = none ∧ t = (s.setPhase i subject (.done none)).setExchange exchange
          { stored, outcome := .failed }) ∨
        ∃ response, answer = some response ∧
          t = (s.setPhase i subject
            (afterResponse crates s.now lock stored exchange subject response)).setExchange exchange
              { stored, outcome := .succeeded response }) := by
  simp only [step] at h
  split at h
  next subject lock stored exchange hi =>
    refine ⟨subject, lock, stored, exchange, hi, ?_⟩
    cases answer with
    | none => exact .inl ⟨rfl, (Option.some.inj h).symm⟩
    | some response => exact .inr ⟨response, rfl, (Option.some.inj h).symm⟩
  next => cases h

theorem step_write {ok : Bool} (h : step crates s (.write i ok) = some t) :
    ∃ subject lock cached, s.calls i = some ⟨subject, .writing lock cached⟩ ∧
      ((ok = true ∧ t = { s.setPhase i subject (.inserting lock cached) with
          database := writeTokenToDatabase s.database cached.refreshTokenInfo s.now }) ∨
        (ok = false ∧ t = s.setPhase i subject (.done none))) := by
  simp only [step] at h
  split at h
  next subject lock cached hi =>
    refine ⟨subject, lock, cached, hi, ?_⟩
    cases ok with
    | true => exact .inl ⟨rfl, (Option.some.inj h).symm⟩
    | false => exact .inr ⟨rfl, (Option.some.inj h).symm⟩
  next => cases h

theorem step_insert (h : step crates s (.insert i) = some t) :
    ∃ subject lock cached, s.calls i = some ⟨subject, .inserting lock cached⟩ ∧
      t = { s.setPhase i subject (.done (some cached.accessToken)) with
        tokenCache := Function.update s.tokenCache subject (some cached) } := by
  simp only [step] at h
  split at h
  next subject lock cached hi => exact ⟨subject, lock, cached, hi, (Option.some.inj h).symm⟩
  next => cases h

theorem step_removeLock (h : step crates s .removeLock = some t) :
    (∃ subject stale, s.cleanup = .removing (subject :: stale) ∧
      t = { s with
        refreshLocks := Function.update s.refreshLocks subject none
        cleanup := .removing stale }) ∨
    (s.cleanup = .removing [] ∧ t = { s with cleanup := .sleeping }) := by
  simp only [step] at h
  split at h
  next subject stale hs => exact .inl ⟨subject, stale, hs, (Option.some.inj h).symm⟩
  next hs => exact .inr ⟨hs, (Option.some.inj h).symm⟩
  next => cases h

/-- Waking, looking at a lock and ending the scan change nothing but where the task stands. -/
theorem step_scan {a : Action} (ha : a = .wake ∨ (∃ subject, a = .inspect subject) ∨ a = .endScan)
    (h : step crates s a = some t) : ∃ cleanup, t = { s with cleanup } := by
  obtain rfl | ⟨subject, rfl⟩ | rfl := ha
  · simp only [step] at h
    split at h
    next => exact ⟨_, (Option.some.inj h).symm⟩
    next => cases h
  · simp only [step] at h
    split at h
    next =>
      split_ifs at h
      · exact ⟨_, (Option.some.inj h).symm⟩
      · exact ⟨s.cleanup, (Option.some.inj h).symm⟩
    next => cases h
  · simp only [step] at h
    split at h
    next => exact ⟨_, (Option.some.inj h).symm⟩
    next => cases h

theorem step_calls {a : Action} (h : step crates s a = some t) :
    (t.calls = s.calls ∧ t.nextCall = s.nextCall) ∨
    (∃ i subject p q, s.calls i = some ⟨subject, p⟩ ∧
      t.calls = (s.setPhase i subject q).calls ∧ t.nextCall = s.nextCall) ∨
    ∃ subject, t.calls = (s.setPhase s.nextCall subject .lookup).calls ∧
      t.nextCall = s.nextCall + 1 := by
  cases a with
  | advance seconds =>
    cases h
    exact .inl ⟨rfl, rfl⟩
  | start subject =>
    cases h
    exact .inr (.inr ⟨subject, rfl, rfl⟩)
  | lookup i =>
    obtain ⟨subject, hi, ⟨token, -, rfl⟩ | rfl⟩ := step_lookup h
    · exact .inr (.inl ⟨i, subject, _, _, hi, rfl, rfl⟩)
    · exact .inr (.inl ⟨i, subject, _, _, hi, rfl, rfl⟩)
  | takeEntry i =>
    obtain ⟨subject, hi, ⟨lock, -, rfl⟩ | ⟨-, rfl⟩⟩ := step_takeEntry h
    · exact .inr (.inl ⟨i, subject, _, _, hi, rfl, rfl⟩)
    · exact .inr (.inl ⟨i, subject, _, _, hi, rfl, rfl⟩)
  | acquire i =>
    obtain ⟨subject, lock, hi, -, rfl⟩ := step_acquire h
    exact .inr (.inl ⟨i, subject, _, _, hi, rfl, rfl⟩)
  | relookup i =>
    obtain ⟨subject, lock, hi, ⟨token, -, rfl⟩ | rfl⟩ := step_relookup h
    · exact .inr (.inl ⟨i, subject, _, _, hi, rfl, rfl⟩)
    · exact .inr (.inl ⟨i, subject, _, _, hi, rfl, rfl⟩)
  | read i ok =>
    obtain ⟨subject, lock, hi, ⟨stored, -, rfl⟩ | rfl⟩ := step_read h
    · exact .inr (.inl ⟨i, subject, _, _, hi, rfl, rfl⟩)
    · exact .inr (.inl ⟨i, subject, _, _, hi, rfl, rfl⟩)
  | respond i answer =>
    obtain ⟨subject, lock, stored, e, hi, ⟨-, rfl⟩ | ⟨response, -, rfl⟩⟩ := step_respond h
    · exact .inr (.inl ⟨i, subject, _, _, hi, rfl, rfl⟩)
    · exact .inr (.inl ⟨i, subject, _, _, hi, rfl, rfl⟩)
  | write i ok =>
    obtain ⟨subject, lock, cached, hi, ⟨-, rfl⟩ | ⟨-, rfl⟩⟩ := step_write h
    · exact .inr (.inl ⟨i, subject, _, _, hi, rfl, rfl⟩)
    · exact .inr (.inl ⟨i, subject, _, _, hi, rfl, rfl⟩)
  | insert i =>
    obtain ⟨subject, lock, cached, hi, rfl⟩ := step_insert h
    exact .inr (.inl ⟨i, subject, _, _, hi, rfl, rfl⟩)
  | evict subject =>
    cases h
    exact .inl ⟨rfl, rfl⟩
  | wake =>
    obtain ⟨cleanup, rfl⟩ := step_scan (.inl rfl) h
    exact .inl ⟨rfl, rfl⟩
  | inspect subject =>
    obtain ⟨cleanup, rfl⟩ := step_scan (.inr (.inl ⟨subject, rfl⟩)) h
    exact .inl ⟨rfl, rfl⟩
  | endScan =>
    obtain ⟨cleanup, rfl⟩ := step_scan (.inr (.inr rfl)) h
    exact .inl ⟨rfl, rfl⟩
  | removeLock =>
    obtain ⟨subject, stale, -, rfl⟩ | ⟨-, rfl⟩ := step_removeLock h
    · exact .inl ⟨rfl, rfl⟩
    · exact .inl ⟨rfl, rfl⟩

theorem step_exchanges {a : Action} (h : step crates s a = some t) :
    t.exchanges = s.exchanges ∨
    (∃ x, t.exchanges = (s.setExchange s.nextExchange x).exchanges) ∨
    ∃ i subject l stored e o, s.calls i = some ⟨subject, .exchanging l stored e⟩ ∧
      t.exchanges = (s.setExchange e { stored, outcome := o }).exchanges := by
  cases a with
  | read i ok =>
    obtain ⟨subject, lock, -, ⟨stored, -, rfl⟩ | rfl⟩ := step_read h
    · exact .inr (.inl ⟨_, rfl⟩)
    · exact .inl rfl
  | respond i answer =>
    obtain ⟨subject, lock, stored, e, hi, ⟨-, rfl⟩ | ⟨response, -, rfl⟩⟩ := step_respond h
    · exact .inr (.inr ⟨i, subject, lock, stored, e, _, hi, rfl⟩)
    · exact .inr (.inr ⟨i, subject, lock, stored, e, _, hi, rfl⟩)
  | lookup i =>
    obtain ⟨subject, -, ⟨token, -, rfl⟩ | rfl⟩ := step_lookup h <;> exact .inl rfl
  | takeEntry i =>
    obtain ⟨subject, -, ⟨lock, -, rfl⟩ | ⟨-, rfl⟩⟩ := step_takeEntry h <;> exact .inl rfl
  | acquire i =>
    obtain ⟨subject, lock, -, -, rfl⟩ := step_acquire h
    exact .inl rfl
  | relookup i =>
    obtain ⟨subject, lock, -, ⟨token, -, rfl⟩ | rfl⟩ := step_relookup h <;> exact .inl rfl
  | write i ok =>
    obtain ⟨subject, lock, cached, -, ⟨-, rfl⟩ | ⟨-, rfl⟩⟩ := step_write h <;> exact .inl rfl
  | insert i =>
    obtain ⟨subject, lock, cached, -, rfl⟩ := step_insert h
    exact .inl rfl
  | wake =>
    obtain ⟨cleanup, rfl⟩ := step_scan (.inl rfl) h
    exact .inl rfl
  | inspect subject =>
    obtain ⟨cleanup, rfl⟩ := step_scan (.inr (.inl ⟨subject, rfl⟩)) h
    exact .inl rfl
  | endScan =>
    obtain ⟨cleanup, rfl⟩ := step_scan (.inr (.inr rfl)) h
    exact .inl rfl
  | removeLock =>
    obtain ⟨subject, stale, -, rfl⟩ | ⟨-, rfl⟩ := step_removeLock h <;> exact .inl rfl
  | _ =>
    cases h
    exact .inl rfl

end Workflows.AuthBroker
