import Mathlib.Data.List.Basic

/-!
# Reading a stream chunk by chunk

A reader that looks at each chunk on its own reads the stream only if every cut between chunks is
one it can bear. When a bad cut always gives more items, these are the only streams it reads.
-/

namespace Workflows.Chunks

universe u v

variable {α : Type u} {β : Type v}

/-- Every cut of the stream, between a chunk and all that follows it, is a good one. -/
def Aligned (cut : List α → List α → Prop) : List (List α) → Prop
  | [] => True
  | c :: cs => cut c cs.flatten ∧ Aligned cut cs

theorem aligned_of_flatten_eq_nil {cut : List α → List α → Prop} (hcut : ∀ a, cut a []) :
    ∀ {cs : List (List α)}, cs.flatten = [] → Aligned cut cs
  | [], _ => trivial
  | c :: cs, h => by
    obtain ⟨-, hcs⟩ := List.append_eq_nil_iff.mp h
    exact ⟨hcs ▸ hcut c, aligned_of_flatten_eq_nil hcut hcs⟩

variable {read : List α → List β} {cut : List α → List α → Prop} (hnil : read [] = [])
  (hgood : ∀ a b, cut a b → read (a ++ b) = read a ++ read b)
  (hbad : ∀ a b, ¬cut a b → (read (a ++ b)).length < (read a).length + (read b).length)

include hnil hgood

theorem flatMap_of_aligned {cs : List (List α)} (h : Aligned cut cs) :
    cs.flatMap read = read cs.flatten := by
  induction cs with
  | nil => exact hnil.symm
  | cons c cs ih => rw [List.flatMap_cons, List.flatten_cons, ih h.2, hgood _ _ h.1]

include hbad

theorem length_read_flatten_le (cs : List (List α)) :
    (read cs.flatten).length ≤ (cs.flatMap read).length := by
  induction cs with
  | nil => simp [hnil]
  | cons c cs ih =>
    rw [List.flatten_cons, List.flatMap_cons, List.length_append]
    by_cases hcut : cut c cs.flatten
    · rw [hgood _ _ hcut, List.length_append]
      omega
    · have hlt := hbad _ _ hcut
      omega

theorem flatMap_eq_iff_aligned (cs : List (List α)) :
    cs.flatMap read = read cs.flatten ↔ Aligned cut cs := by
  refine ⟨fun h => ?_, flatMap_of_aligned hnil hgood⟩
  induction cs with
  | nil => trivial
  | cons c cs ih =>
    rw [List.flatMap_cons, List.flatten_cons] at h
    have hle := length_read_flatten_le hnil hgood hbad cs
    have hcut : cut c cs.flatten := by
      by_contra hcut
      have hlt := hbad _ _ hcut
      rw [← h, List.length_append] at hlt
      omega
    rw [hgood _ _ hcut] at h
    exact ⟨hcut, ih (List.append_cancel_left h)⟩

end Workflows.Chunks
