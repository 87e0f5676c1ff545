import Mathlib.Data.List.Induction

/-!
# Runs of a guarded step function

A system is a partial function from a state and an action to the next state: an action that is
not enabled has no next state. Every nondeterministic choice is part of the action, so a run is
determined by its list of actions. The rules below turn facts about one step into facts about runs.
-/

namespace Workflows.Execution

universe u v

variable {σ : Type u} {α : Type v} {step : σ → α → Option σ}

def exec (step : σ → α → Option σ) (s : σ) : List α → Option σ
  | [] => some s
  | a :: as => (step s a).bind fun t => exec step t as

@[simp] theorem exec_nil (s : σ) : exec step s [] = some s := rfl

theorem exec_cons (s : σ) (a : α) (as : List α) :
    exec step s (a :: as) = (step s a).bind fun t => exec step t as := rfl

theorem exec_cons_eq_some {s t : σ} {a : α} {as : List α} :
    exec step s (a :: as) = some t ↔ ∃ m, step s a = some m ∧ exec step m as = some t := by
  rw [exec_cons, Option.bind_eq_some_iff]

theorem exec_append (s : σ) (as bs : List α) :
    exec step s (as ++ bs) = (exec step s as).bind fun t => exec step t bs := by
  induction as generalizing s with
  | nil => rfl
  | cons a as ih =>
    rw [List.cons_append, exec_cons, exec_cons, Option.bind_assoc]
    exact congrArg _ (funext ih)

theorem exec_append_eq_some {s t : σ} {as bs : List α} :
    exec step s (as ++ bs) = some t ↔ ∃ m, exec step s as = some m ∧ exec step m bs = some t := by
  rw [exec_append, Option.bind_eq_some_iff]

/-- Each action of the run meets `C` in the state in which it is taken. -/
def AllSteps (step : σ → α → Option σ) (C : σ → α → Prop) (s : σ) : List α → Prop
  | [] => True
  | a :: as => C s a ∧ ∀ t, step s a = some t → AllSteps step C t as

theorem AllSteps.of_forall {C : σ → α → Prop} (h : ∀ s a, C s a) (s : σ) (as : List α) :
    AllSteps step C s as := by
  induction as generalizing s with
  | nil => exact trivial
  | cons a as ih => exact ⟨h s a, fun t _ => ih t⟩

instance decidableAllSteps {C : σ → α → Prop} [∀ s a, Decidable (C s a)] (s : σ) (as : List α) :
    Decidable (AllSteps step C s as) :=
  match as with
  | [] => .isTrue trivial
  | a :: as =>
    match h : step s a with
    | none => decidable_of_iff (C s a) ⟨fun hC => ⟨hC, fun t ht => by simp [h] at ht⟩, And.left⟩
    | some t =>
      have : Decidable (AllSteps step C t as) := decidableAllSteps t as
      decidable_of_iff (C s a ∧ AllSteps step C t as)
        ⟨fun hC => ⟨hC.1, fun u hu => Option.some.inj (h.symm.trans hu) ▸ hC.2⟩,
          fun hC => ⟨hC.1, hC.2 t h⟩⟩

theorem AllSteps.cons {C : σ → α → Prop} {s t : σ} {a : α} {as : List α} (hC : C s a)
    (ht : step s a = some t) (h : AllSteps step C t as) : AllSteps step C s (a :: as) :=
  ⟨hC, fun _ hu => Option.some.inj (ht.symm.trans hu) ▸ h⟩

theorem AllSteps.and {C D : σ → α → Prop} {s : σ} {as : List α} (h : AllSteps step C s as)
    (h' : AllSteps step D s as) : AllSteps step (fun s a => C s a ∧ D s a) s as := by
  induction as generalizing s with
  | nil => exact trivial
  | cons a as ih => exact ⟨⟨h.1, h'.1⟩, fun t ht => ih (h.2 t ht) (h'.2 t ht)⟩

/-- The invariant rule: what the first state satisfies and every step that meets the condition
keeps is satisfied by every state a run of such steps reaches. -/
theorem invariant_of_allSteps {Inv : σ → Prop} {C : σ → α → Prop}
    (hstep : ∀ s a t, Inv s → C s a → step s a = some t → Inv t)
    {s t : σ} {as : List α} (hs : Inv s) (hC : AllSteps step C s as)
    (h : exec step s as = some t) : Inv t := by
  induction as generalizing s with
  | nil =>
    cases h
    exact hs
  | cons a as ih =>
    obtain ⟨m, hm, hrest⟩ := exec_cons_eq_some.mp h
    exact ih (hstep s a m hs hC.1 hm) (hC.2 m hm) hrest

/-- A run in which a step keeps the state good exactly when it meets the condition is good all
along exactly when all its steps meet it. -/
theorem allSteps_iff_forall_front {Inv Good : σ → Prop} {C : σ → α → Prop}
    (hgood : ∀ s, Inv s → Good s)
    (hstep : ∀ s a t, Inv s → step s a = some t → (C s a ↔ Good t) ∧ (C s a → Inv t))
    {s t : σ} {as : List α} (hs : Inv s) (h : exec step s as = some t) :
    AllSteps step C s as ↔ ∀ front, front <+: as → ∀ u, exec step s front = some u → Good u := by
  induction as generalizing s with
  | nil =>
    refine ⟨fun _ front hfront u hu => ?_, fun _ => trivial⟩
    obtain rfl := List.prefix_nil.mp hfront
    cases hu
    exact hgood s hs
  | cons a as ih =>
    obtain ⟨m, hm, hrest⟩ := exec_cons_eq_some.mp h
    obtain ⟨hiff, hkeep⟩ := hstep s a m hs hm
    constructor
    · intro hall front hfront u hu
      obtain rfl | ⟨back, rfl, hback⟩ := List.prefix_cons_iff.mp hfront
      · cases hu
        exact hgood s hs
      · obtain ⟨m', hm', hu⟩ := exec_cons_eq_some.mp hu
        obtain rfl := Option.some.inj (hm.symm.trans hm')
        exact (ih (hkeep hall.1) hrest).mp (hall.2 m hm) back hback u hu
    · intro hall
      have hC : C s a := by
        refine hiff.mpr (hall [a] ⟨as, rfl⟩ m ?_)
        exact exec_cons_eq_some.mpr ⟨m, hm, rfl⟩
      refine .cons hC hm ((ih (hkeep hC) hrest).mpr fun front hfront u hu => ?_)
      exact hall (a :: front) (List.cons_prefix_cons.mpr ⟨rfl, hfront⟩) u
        (exec_cons_eq_some.mpr ⟨m, hm, hu⟩)

theorem invariant {Inv : σ → Prop} (hstep : ∀ s a t, Inv s → step s a = some t → Inv t)
    {s t : σ} {as : List α} (hs : Inv s) (h : exec step s as = some t) : Inv t :=
  invariant_of_allSteps (C := fun _ _ => True) (fun s a t hInv _ => hstep s a t hInv) hs
    (AllSteps.of_forall (fun _ _ => trivial) s as) h

/-- The invariant rule for what a state has to do with the actions that led to it. -/
theorem invariant_history {Inv : List α → σ → Prop}
    (hstep : ∀ as s a t, Inv as s → step s a = some t → Inv (as ++ [a]) t)
    {s t : σ} {as : List α} (hs : Inv [] s) (h : exec step s as = some t) : Inv as t := by
  induction as using List.reverseRecOn generalizing t with
  | nil =>
    cases h
    exact hs
  | append_singleton as a ih =>
    obtain ⟨m, hm, hlast⟩ := exec_append_eq_some.mp h
    obtain ⟨u, hu, hnil⟩ := exec_cons_eq_some.mp hlast
    cases hnil
    exact hstep as m a _ (ih hm) hu

/-- `t` is reached from `s` by actions that all satisfy `P`. -/
def Reaches (step : σ → α → Option σ) (P : α → Prop) (s t : σ) : Prop :=
  ∃ as, (∀ a ∈ as, P a) ∧ exec step s as = some t

namespace Reaches

variable {P : α → Prop} {s t u : σ}

theorem refl (s : σ) : Reaches step P s s := ⟨[], by simp, rfl⟩

theorem head {a : α} (ha : P a) (h : step s a = some t) (hr : Reaches step P t u) :
    Reaches step P s u := by
  obtain ⟨as, has, hexec⟩ := hr
  exact ⟨a :: as, List.forall_mem_cons.mpr ⟨ha, has⟩, exec_cons_eq_some.mpr ⟨t, h, hexec⟩⟩

theorem single {a : α} (ha : P a) (h : step s a = some t) : Reaches step P s t :=
  head ha h (refl t)

theorem trans (h : Reaches step P s t) (h' : Reaches step P t u) : Reaches step P s u := by
  obtain ⟨as, has, hexec⟩ := h
  obtain ⟨bs, hbs, hexec'⟩ := h'
  refine ⟨as ++ bs, ?_, exec_append_eq_some.mpr ⟨t, hexec, hexec'⟩⟩
  intro a ha
  exact (List.mem_append.mp ha).elim (has a) (hbs a)

theorem invariant {Inv : σ → Prop} (hstep : ∀ s a t, Inv s → P a → step s a = some t → Inv t)
    (hs : Inv s) (h : Reaches step P s t) : Inv t := by
  obtain ⟨as, has, hexec⟩ := h
  induction as generalizing s with
  | nil =>
    cases hexec
    exact hs
  | cons a as ih =>
    obtain ⟨m, hm, hrest⟩ := exec_cons_eq_some.mp hexec
    exact ih (hstep s a m hs (has a List.mem_cons_self) hm)
      (fun b hb => has b (List.mem_cons_of_mem _ hb)) hrest

end Reaches

end Workflows.Execution
