import Mathlib.Data.List.Nodup

/-!
# Loops that treat each key alone

A loop runs its body once for each key of a list. When the body for a key changes only what a view
shows at that key, the whole loop is the product of one step for each key, whatever the order.
-/

namespace Workflows.KeyedLoop

universe u v w

variable {σ : Type u} {κ : Type v} {β : Type w} {view : σ → κ → β} {f : κ → β → β}
  {body : σ → κ → σ}

/-- The body for `k` acts as `f k` on what is seen at `k` and leaves every other key as it was. -/
structure Local (view : σ → κ → β) (f : κ → β → β) (body : σ → κ → σ) : Prop where
  own : ∀ s k, view (body s k) k = f k (view s k)
  frame : ∀ s k n, n ≠ k → view (body s k) n = view s n

theorem Local.foldl_of_notMem (h : Local view f body) (s : σ) {ks : List κ} {n : κ}
    (hn : n ∉ ks) : view (ks.foldl body s) n = view s n := by
  induction ks generalizing s with
  | nil => rfl
  | cons k ks ih =>
    obtain ⟨hne, hrest⟩ := not_or.mp (mt List.mem_cons.mpr hn)
    rw [List.foldl_cons, ih (body s k) hrest, h.frame s k n hne]

theorem Local.foldl_of_mem (h : Local view f body) (s : σ) {ks : List κ} (hks : ks.Nodup) {n : κ}
    (hn : n ∈ ks) : view (ks.foldl body s) n = f n (view s n) := by
  induction ks generalizing s with
  | nil => cases hn
  | cons k ks ih =>
    obtain ⟨hk, hks⟩ := List.nodup_cons.mp hks
    rw [List.foldl_cons]
    rcases eq_or_ne n k with rfl | hnk
    · rw [h.foldl_of_notMem (body s n) hk, h.own]
    · have hmem : n ∈ ks := (List.mem_cons.mp hn).resolve_left hnk
      rw [ih (body s k) hks hmem, h.frame s k n hnk]

end Workflows.KeyedLoop
