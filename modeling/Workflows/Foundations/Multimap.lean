import Mathlib

/-!
# Maps of sets

A map holds a set under each of its keys and stands for a relation between keys and members. It is
filled by a fold whose steps add pairs to that relation.
-/

namespace Workflows.Multimap

universe u v w

variable {κ : Type u} {α : Type v} {β : Type w} [Ord κ] [DecidableEq α]

def extend (m : Std.TreeMap κ (Finset α)) (k : κ) (s : Finset α) : Std.TreeMap κ (Finset α) :=
  m.insert k (m.getD k ∅ ∪ s)

omit [DecidableEq α] in
/-- A fold adds what its steps add. -/
theorem mem_getD_foldl {step : Std.TreeMap κ (Finset α) → β → Std.TreeMap κ (Finset α)}
    {Adds : β → κ → α → Prop}
    (hstep : ∀ m x k a, a ∈ (step m x).getD k ∅ ↔ a ∈ m.getD k ∅ ∨ Adds x k a)
    (xs : List β) (m : Std.TreeMap κ (Finset α)) (k : κ) (a : α) :
    a ∈ (xs.foldl step m).getD k ∅ ↔ a ∈ m.getD k ∅ ∨ ∃ x ∈ xs, Adds x k a := by
  induction xs generalizing m with
  | nil => simp
  | cons x xs ih =>
    rw [List.foldl_cons, ih, hstep, or_assoc]
    simp only [List.mem_cons, or_and_right, exists_or, exists_eq_left]

variable [Std.TransOrd κ] [Std.LawfulEqOrd κ]

theorem mem_getD_extend (m : Std.TreeMap κ (Finset α)) (k : κ) (s : Finset α) (k' : κ) (a : α) :
    a ∈ (extend m k s).getD k' ∅ ↔ a ∈ m.getD k' ∅ ∨ k = k' ∧ a ∈ s := by
  simp only [extend, Std.TreeMap.getD_insert, Std.LawfulEqCmp.compare_eq_iff_eq]
  rcases eq_or_ne k k' with rfl | hne
  · simp
  · simp [hne]

end Workflows.Multimap
