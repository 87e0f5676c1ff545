import Workflows.AuthBroker.Steps

/-!
# Single flight

Two exchanges for one subject exclude each other as long as both calls hold the lock that the map
shows under that subject. The pruning task breaks this: it drops the lock of a subject that has no
cached token, and a subject has none while its first exchange is in progress. Where the task only
drops locks that no call holds or waits for, refreshes are single-flight.
-/

namespace Workflows.AuthBroker

open AuthCore Execution

variable {crates : Crates} {s t : State}

def Phase.lock (p : Phase) : Option Nat := p.held <|> p.waitingFor

theorem Phase.lock_of_held {p : Phase} {l : Nat} (h : p.held = some l) : p.lock = some l := by
  simp [Phase.lock, h]

def SingleFlight (s : State) : Prop :=
  ∀ i j subject l l' stored stored' e e',
    s.calls i = some ⟨subject, .exchanging l stored e⟩ →
    s.calls j = some ⟨subject, .exchanging l' stored' e'⟩ → i = j

def IsUnused (s : State) (lock : Nat) : Prop :=
  ∀ i < s.nextCall, ∀ c ∈ s.calls i, c.phase.lock ≠ some lock

instance (s : State) (lock : Nat) : Decidable (IsUnused s lock) := by
  unfold IsUnused
  infer_instance

/-- The lock that the step removes from the map is held by no call and awaited by none. -/
def KeepsUsedLocks (s : State) : Action → Prop
  | .removeLock => ∀ subject ∈ s.cleanup.next, ∀ lock ∈ s.refreshLocks subject, IsUnused s lock
  | _ => True

instance (s : State) (a : Action) : Decidable (KeepsUsedLocks s a) := by
  cases a <;> unfold KeepsUsedLocks <;> infer_instance

structure LockInv (s : State) : Prop where
  mapped : ∀ i c l, s.calls i = some c → c.phase.lock = some l → s.refreshLocks c.subject = some l
  exclusive : ∀ i j c d l, s.calls i = some c → s.calls j = some d →
    c.phase.held = some l → d.phase.held = some l → i = j
  bounded : ∀ i, s.nextCall ≤ i → s.calls i = none

theorem lockInv_init (db : Database) (now : Int) : LockInv (.init db now) where
  mapped _ _ _ h := nomatch h
  exclusive _ _ _ _ _ h := nomatch h
  bounded _ _ := rfl

theorem LockInv.lt_nextCall (h : LockInv s) {i : Nat} {c : Call} (hi : s.calls i = some c) :
    i < s.nextCall :=
  lt_of_eq_some h.bounded hi

theorem LockInv.setPhase (h : LockInv s) {i : Nat} {subject : String} {p q : Phase}
    (hi : s.calls i = some ⟨subject, p⟩)
    (hmapped : ∀ l, q.lock = some l → s.refreshLocks subject = some l)
    (hheld : ∀ l, q.held = some l → p.held = some l ∨ s.IsFree l) :
    LockInv (s.setPhase i subject q) where
  mapped j c l hj hl := by
    rcases eq_or_ne j i with rfl | hji
    · simp only [State.setPhase_calls_self, Option.some.injEq] at hj
      subst hj
      exact hmapped l hl
    · rw [State.setPhase_calls_of_ne s hji] at hj
      exact h.mapped j c l hj hl
  exclusive j k c d l hj hk hc hd := by
    have hother : ∀ m b, m ≠ i → s.calls m = some b → b.phase.held = some l →
        q.held = some l → False := by
      intro m b hm hb hbl hql
      rcases hheld l hql with hp | hfree
      · exact hm (h.exclusive m i b ⟨subject, p⟩ l hb hi hbl hp)
      · exact hfree m (h.lt_nextCall hb) b hb hbl
    by_cases hji : j = i <;> by_cases hki : k = i
    · exact hji.trans hki.symm
    · subst hji
      simp only [State.setPhase_calls_self, State.setPhase_calls_of_ne s hki,
        Option.some.injEq] at hj hk
      subst hj
      exact (hother k d hki hk hd hc).elim
    · subst hki
      simp only [State.setPhase_calls_self, State.setPhase_calls_of_ne s hji,
        Option.some.injEq] at hj hk
      subst hk
      exact (hother j c hji hj hc hd).elim
    · rw [State.setPhase_calls_of_ne s hji] at hj
      rw [State.setPhase_calls_of_ne s hki] at hk
      exact h.exclusive j k c d l hj hk hc hd
  bounded j hj := by
    have hji : j ≠ i := Nat.ne_of_gt (Nat.lt_of_lt_of_le (h.lt_nextCall hi) hj)
    exact (State.setPhase_calls_of_ne s hji ..).trans (h.bounded j hj)

theorem LockInv.setPhase_of_lock_none (h : LockInv s) {i : Nat} {subject : String} {p q : Phase}
    (hi : s.calls i = some ⟨subject, p⟩) (hq : q.lock = none) :
    LockInv (s.setPhase i subject q) :=
  h.setPhase hi (fun l hl => by simp [hq] at hl)
    fun l hl => by simp [Phase.lock_of_held hl] at hq

theorem LockInv.setPhase_of_held (h : LockInv s) {i : Nat} {subject : String} {p q : Phase}
    {l : Nat}
    (hi : s.calls i = some ⟨subject, p⟩) (hp : p.held = some l) (hq : q.lock = some l) :
    LockInv (s.setPhase i subject q) := by
  have hmap := h.mapped i _ l hi (Phase.lock_of_held hp)
  refine h.setPhase hi (fun k hk => ?_) fun k hk => ?_
  · exact hmap.trans (hq.symm.trans hk)
  · left
    rw [hp, ← Phase.lock_of_held hk, hq]

theorem afterResponse_lock (now : Int) (lock : Nat) (stored : StoredToken) (e : Nat)
    (subject : String) (response : TokenResponse) :
    (afterResponse crates now lock stored e subject response).lock = some lock ∨
      (afterResponse crates now lock stored e subject response).lock = none := by
  unfold afterResponse
  split
  · exact .inr rfl
  · split_ifs
    · exact .inl rfl
    · exact .inl rfl
    · exact .inr rfl

/-- A subject without a lock gets one: no call uses a lock under that subject. -/
theorem LockInv.addLock (h : LockInv s) {subject : String} (hnone : s.refreshLocks subject = none)
    (l : Nat) :
    LockInv { s with refreshLocks := Function.update s.refreshLocks subject (some l) } where
  mapped j c k hj hk := by
    have hmap := h.mapped j c k hj hk
    have hne : c.subject ≠ subject := fun heq => by simp [heq, hnone] at hmap
    simpa [hne] using hmap
  exclusive := h.exclusive
  bounded := h.bounded

theorem LockInv.dropLock (h : LockInv s) {subject : String}
    (hunused : ∀ lock ∈ s.refreshLocks subject, IsUnused s lock) :
    LockInv { s with refreshLocks := Function.update s.refreshLocks subject none } where
  mapped j c k hj hk := by
    have hmap := h.mapped j c k hj hk
    have hne : c.subject ≠ subject := fun heq =>
      hunused k (heq ▸ hmap) j (h.lt_nextCall hj) c hj hk
    simpa [hne] using hmap
  exclusive := h.exclusive
  bounded := h.bounded

theorem LockInv.start (h : LockInv s) (subject : String) :
    LockInv { s.setPhase s.nextCall subject .lookup with nextCall := s.nextCall + 1 } where
  mapped j c l hj hl := by
    rcases eq_or_ne j s.nextCall with rfl | hji
    · simp only [State.setPhase_calls_self, Option.some.injEq] at hj
      subst hj
      cases hl
    · rw [State.setPhase_calls_of_ne s hji] at hj
      exact h.mapped j c l hj hl
  exclusive j k c d l hj hk hc hd := by
    have hfresh : ∀ m b, (Function.update s.calls s.nextCall (some ⟨subject, .lookup⟩)) m = some b →
        b.phase.held = some l → s.calls m = some b := by
      intro m b hm hb
      rcases eq_or_ne m s.nextCall with rfl | hmn
      · simp only [Function.update_self, Option.some.injEq] at hm
        subst hm
        cases hb
      · rwa [Function.update_of_ne hmn] at hm
    exact h.exclusive j k c d l (hfresh j c hj hc) (hfresh k d hk hd) hc hd
  bounded j hj := by
    have hne : j ≠ s.nextCall := by
      rintro rfl
      exact absurd hj (Nat.not_succ_le_self _)
    exact (State.setPhase_calls_of_ne s hne ..).trans (h.bounded j (Nat.le_of_succ_le hj))

theorem lockInv_step {a : Action} (h : LockInv s) (hkeep : KeepsUsedLocks s a)
    (hstep : step crates s a = some t) : LockInv t := by
  cases a with
  | advance seconds =>
    cases hstep
    exact ⟨h.mapped, h.exclusive, h.bounded⟩
  | start subject =>
    cases hstep
    exact h.start subject
  | lookup i =>
    obtain ⟨subject, hi, ⟨token, _, rfl⟩ | rfl⟩ := step_lookup hstep
    · exact h.setPhase_of_lock_none hi rfl
    · exact h.setPhase_of_lock_none hi rfl
  | takeEntry i =>
    obtain ⟨subject, hi, ⟨lock, hlock, rfl⟩ | ⟨hnone, rfl⟩⟩ := step_takeEntry hstep
    · exact h.setPhase hi (fun l hl => hlock.trans hl) fun l hl => nomatch hl
    · have hadded := h.addLock hnone s.nextLock
      have hmoved := hadded.setPhase (q := .waiting s.nextLock) hi
        (fun l hl => (Function.update_self ..).trans hl) fun l hl => nomatch hl
      exact ⟨hmoved.mapped, hmoved.exclusive, hmoved.bounded⟩
  | acquire i =>
    obtain ⟨subject, lock, hi, hfree, rfl⟩ := step_acquire hstep
    have hmap := h.mapped i _ lock hi rfl
    refine h.setPhase hi (fun l hl => hmap.trans hl) fun l hl => .inr ?_
    cases hl
    exact hfree
  | relookup i =>
    obtain ⟨subject, lock, hi, ⟨token, _, rfl⟩ | rfl⟩ := step_relookup hstep
    · exact h.setPhase_of_lock_none hi rfl
    · exact h.setPhase_of_held hi rfl rfl
  | read i ok =>
    obtain ⟨subject, lock, hi, ⟨stored, _, rfl⟩ | rfl⟩ := step_read hstep
    · have hmoved := h.setPhase_of_held (q := .exchanging lock stored s.nextExchange) hi rfl rfl
      exact ⟨hmoved.mapped, hmoved.exclusive, hmoved.bounded⟩
    · exact h.setPhase_of_lock_none hi rfl
  | respond i answer =>
    obtain ⟨subject, lock, stored, e, hi, ⟨_, rfl⟩ | ⟨response, _, rfl⟩⟩ := step_respond hstep
    · have hmoved := h.setPhase_of_lock_none (q := .done none) hi rfl
      exact ⟨hmoved.mapped, hmoved.exclusive, hmoved.bounded⟩
    · have hmoved : LockInv (s.setPhase i subject
          (afterResponse crates s.now lock stored e subject response)) := by
        rcases afterResponse_lock s.now lock stored e subject response with hl | hl
        · exact h.setPhase_of_held hi rfl hl
        · exact h.setPhase_of_lock_none hi hl
      exact ⟨hmoved.mapped, hmoved.exclusive, hmoved.bounded⟩
  | write i ok =>
    obtain ⟨subject, lock, cached, hi, ⟨_, rfl⟩ | ⟨_, rfl⟩⟩ := step_write hstep
    · have hmoved := h.setPhase_of_held (q := .inserting lock cached) hi rfl rfl
      exact ⟨hmoved.mapped, hmoved.exclusive, hmoved.bounded⟩
    · exact h.setPhase_of_lock_none hi rfl
  | insert i =>
    obtain ⟨subject, lock, cached, hi, rfl⟩ := step_insert hstep
    have hmoved := h.setPhase_of_lock_none (q := .done (some cached.accessToken)) hi rfl
    exact ⟨hmoved.mapped, hmoved.exclusive, hmoved.bounded⟩
  | evict subject =>
    cases hstep
    exact ⟨h.mapped, h.exclusive, h.bounded⟩
  | wake =>
    obtain ⟨cleanup, rfl⟩ := step_scan (.inl rfl) hstep
    exact ⟨h.mapped, h.exclusive, h.bounded⟩
  | inspect subject =>
    obtain ⟨cleanup, rfl⟩ := step_scan (.inr (.inl ⟨subject, rfl⟩)) hstep
    exact ⟨h.mapped, h.exclusive, h.bounded⟩
  | endScan =>
    obtain ⟨cleanup, rfl⟩ := step_scan (.inr (.inr rfl)) hstep
    exact ⟨h.mapped, h.exclusive, h.bounded⟩
  | removeLock =>
    obtain ⟨subject, stale, hs, rfl⟩ | ⟨_, rfl⟩ := step_removeLock hstep
    · -- the one step that needs the assumption: the pruned lock is used by no call
      have hdropped := h.dropLock (hkeep subject (by rw [hs]; rfl))
      exact ⟨hdropped.mapped, hdropped.exclusive, hdropped.bounded⟩
    · exact ⟨h.mapped, h.exclusive, h.bounded⟩

/-- Calls for one subject hold one lock, so at most one of them holds a lock at all. -/
theorem LockInv.eq_of_held (h : LockInv s) {i j : Nat} {c d : Call} {l l' : Nat}
    (hi : s.calls i = some c) (hj : s.calls j = some d) (hc : c.phase.held = some l)
    (hd : d.phase.held = some l') (hsubject : c.subject = d.subject) : i = j := by
  have hl := h.mapped i c l hi (Phase.lock_of_held hc)
  have hl' := h.mapped j d l' hj (Phase.lock_of_held hd)
  have heq : l = l' := Option.some.inj (hl.symm.trans (hsubject ▸ hl'))
  exact h.exclusive i j c d l hi hj hc (heq ▸ hd)

theorem LockInv.singleFlight (h : LockInv s) : SingleFlight s := by
  intro i j subject l l' stored stored' e e' hi hj
  exact h.eq_of_held hi hj rfl rfl rfl

end Workflows.AuthBroker
