import Mathlib

/-!
# Dictionaries that forget

A dictionary of bounded length whose entries count for a limited time. Only its documented
behaviour is given: when it is full the oldest entry makes room, and an entry as old as the
maximal age is as good as absent.
-/

namespace Workflows

structure ExpiringDict.Entry (κ ν : Type) where
  key : κ
  value : ν
  since : ℚ

open ExpiringDict in
/-- `Dict maxLen maxAge` are the dictionaries of this length and this age in seconds, and `held`
lists what is in one, the oldest first. -/
structure ExpiringDict (κ ν : Type) [DecidableEq κ] where
  Dict : Nat → Nat → Type
  new (maxLen maxAge : Nat) : Dict maxLen maxAge
  setItem {maxLen maxAge : Nat} : Dict maxLen maxAge → ℚ → κ → ν → Dict maxLen maxAge
  pop {maxLen maxAge : Nat} : Dict maxLen maxAge → ℚ → κ → Option ν × Dict maxLen maxAge
  held {maxLen maxAge : Nat} : Dict maxLen maxAge → List (Entry κ ν)
  held_new (maxLen maxAge : Nat) : held (new maxLen maxAge) = []
  held_setItem {maxLen maxAge : Nat} (d : Dict maxLen maxAge) (now : ℚ) (k : κ) (v : ν) :
    (∀ e ∈ held d, e.key ≠ k) →
      held (setItem d now k v) =
        (if (held d).length = maxLen then (held d).tail else held d) ++ [⟨k, v, now⟩]
  held_pop {maxLen maxAge : Nat} (d : Dict maxLen maxAge) (now : ℚ) (k : κ) :
    held (pop d now k).2 = (held d).filter (·.key ≠ k)
  pop_fst {maxLen maxAge : Nat} (d : Dict maxLen maxAge) (now : ℚ) (k : κ) :
    (pop d now k).1 =
      ((held d).find? fun e => e.key = k ∧ now - e.since < maxAge).map (·.value)

namespace ExpiringDict

variable {κ ν : Type} [DecidableEq κ]

/-- The entries themselves, in a list. -/
def ofList (κ ν : Type) [DecidableEq κ] : ExpiringDict κ ν where
  Dict _ _ := List (Entry κ ν)
  new _ _ := []
  setItem {maxLen _} d now k v :=
    let others := d.filter (·.key ≠ k)
    (if others.length = maxLen then others.tail else others) ++ [⟨k, v, now⟩]
  pop {_ maxAge} d now k :=
    ((d.find? fun e => e.key = k ∧ now - e.since < maxAge).map (·.value), d.filter (·.key ≠ k))
  held d := d
  held_new _ _ := rfl
  held_setItem d _ k _ h := by
    have hall : d.filter (·.key ≠ k) = d :=
      List.filter_eq_self.mpr fun e he => decide_eq_true (h e he)
    simp only [hall]
  held_pop _ _ _ := rfl
  pop_fst _ _ _ := rfl

variable {D : ExpiringDict κ ν} {maxLen maxAge : Nat} {d : D.Dict maxLen maxAge} {e : Entry κ ν}
  {now : ℚ} {k : κ} {v : ν}

theorem mem_of_mem_setItem (hfresh : ∀ e ∈ D.held d, e.key ≠ k)
    (h : e ∈ D.held (D.setItem d now k v)) : e ∈ D.held d ∨ e = ⟨k, v, now⟩ := by
  rw [D.held_setItem d now k v hfresh, List.mem_append, List.mem_singleton] at h
  apply h.imp_left
  intro hmem
  split_ifs at hmem
  · exact List.mem_of_mem_tail hmem
  · exact hmem

theorem mem_held_pop : e ∈ D.held (D.pop d now k).2 ↔ e ∈ D.held d ∧ e.key ≠ k := by
  rw [D.held_pop, List.mem_filter, decide_eq_true_iff]

theorem pop_eq_none (h : ∀ e ∈ D.held d, e.key = k → (maxAge : ℚ) ≤ now - e.since) :
    (D.pop d now k).1 = none := by
  rw [D.pop_fst, Option.map_eq_none_iff, List.find?_eq_none]
  intro e he hfound
  obtain ⟨hkey, hyoung⟩ := of_decide_eq_true hfound
  exact absurd hyoung (not_lt.mpr (h e he hkey))

theorem mem_of_find (h : ((D.held d).find? fun e => e.key = k ∧ now - e.since < maxAge) = some e) :
    e ∈ D.held d ∧ e.key = k := by
  have hfound : e.key = k ∧ now - e.since < maxAge := by
    simpa only [decide_eq_true_eq] using List.find?_some h
  exact ⟨List.mem_of_find?_eq_some h, hfound.1⟩

theorem mem_of_pop_eq_some (h : (D.pop d now k).1 = some v) :
    ∃ e ∈ D.held d, e.key = k ∧ e.value = v := by
  rw [D.pop_fst, Option.map_eq_some_iff] at h
  obtain ⟨e, hfound, hvalue⟩ := h
  obtain ⟨hmem, hkey⟩ := mem_of_find hfound
  exact ⟨e, hmem, hkey, hvalue⟩

/-- While the only entry of its key is young enough, it is found. -/
theorem pop_eq_some (hmem : e ∈ D.held d) (hkey : e.key = k) (hyoung : now - e.since < maxAge)
    (hunique : ∀ e' ∈ D.held d, e'.key = k → e' = e) : (D.pop d now k).1 = some e.value := by
  rw [D.pop_fst]
  cases hfind : (D.held d).find? fun e => e.key = k ∧ now - e.since < maxAge with
  | none =>
    have hnot := List.find?_eq_none.mp hfind e hmem
    exact absurd (decide_eq_true ⟨hkey, hyoung⟩) hnot
  | some e' =>
    obtain ⟨hmem', hkey'⟩ := mem_of_find hfind
    rw [hunique e' hmem' hkey']
    rfl

/-- The entry is in the dictionary, and at most `n` have come after it. -/
def Keeps (D : ExpiringDict κ ν) (d : D.Dict maxLen maxAge) (e : Entry κ ν) (n : Nat) : Prop :=
  ∃ older newer, D.held d = older ++ e :: newer ∧ newer.length ≤ n

variable {n : Nat}

theorem Keeps.mem (h : D.Keeps d e n) : e ∈ D.held d := by
  obtain ⟨older, newer, heq, -⟩ := h
  rw [heq]
  exact List.mem_append_right _ List.mem_cons_self

theorem keeps_setItem (hfresh : ∀ e ∈ D.held d, e.key ≠ k) :
    D.Keeps (D.setItem d now k v) ⟨k, v, now⟩ 0 :=
  ⟨_, [], D.held_setItem d now k v hfresh, le_rfl⟩

theorem Keeps.setItem (h : D.Keeps d e n) (hroom : n + 1 < maxLen)
    (hfresh : ∀ e ∈ D.held d, e.key ≠ k) : D.Keeps (D.setItem d now k v) e (n + 1) := by
  obtain ⟨older, newer, heq, hlength⟩ := h
  rw [Keeps, D.held_setItem d now k v hfresh, heq]
  have hnewer : (newer ++ [(⟨k, v, now⟩ : Entry κ ν)]).length ≤ n + 1 := by
    rw [List.length_append, List.length_singleton]
    omega
  split_ifs with hfull
  · cases older with
    | nil =>
      rw [List.nil_append, List.length_cons] at hfull
      omega
    | cons oldest older =>
      refine ⟨older, newer ++ [⟨k, v, now⟩], ?_, hnewer⟩
      rw [List.cons_append, List.tail_cons, List.append_assoc, List.cons_append]
  · refine ⟨older, newer ++ [⟨k, v, now⟩], ?_, hnewer⟩
    rw [List.append_assoc, List.cons_append]

theorem Keeps.pop (h : D.Keeps d e n) (hkey : e.key ≠ k) : D.Keeps (D.pop d now k).2 e n := by
  obtain ⟨older, newer, heq, hlength⟩ := h
  refine ⟨older.filter (·.key ≠ k), newer.filter (·.key ≠ k), ?_, ?_⟩
  · rw [D.held_pop, heq, List.filter_append, List.filter_cons, if_pos (decide_eq_true hkey)]
  · exact (List.length_filter_le _ _).trans hlength

end ExpiringDict

end Workflows
