import Mathlib

/-!
# Adjacency lists

A map from keys to lists, filled by pushing one pair after the other, and finite relations without
a cycle, in which every element is reached from a source.
-/

namespace Workflows.Adjacency

open Relation

universe u v

section Push

variable {κ : Type u} {ν : Type v} [DecidableEq κ]

/-- What a list of pairs holds under a key, in order. -/
def values (pairs : List (κ × ν)) (key : κ) : List ν :=
  (pairs.filter (·.1 = key)).map (·.2)

@[simp] theorem values_nil (key : κ) : values ([] : List (κ × ν)) key = [] := rfl

theorem values_append (pairs more : List (κ × ν)) (key : κ) :
    values (pairs ++ more) key = values pairs key ++ values more key := by
  rw [values, List.filter_append, List.map_append]
  rfl

theorem mem_values_iff {pairs : List (κ × ν)} {key : κ} {value : ν} :
    value ∈ values pairs key ↔ (key, value) ∈ pairs := by
  rw [values, List.mem_map]
  constructor
  · rintro ⟨⟨k, v⟩, hmem, rfl⟩
    obtain ⟨hpair, hkey⟩ := List.mem_filter.mp hmem
    obtain rfl := of_decide_eq_true hkey
    exact hpair
  · intro hpair
    exact ⟨(key, value), List.mem_filter.mpr ⟨hpair, decide_eq_true rfl⟩, rfl⟩

theorem values_cons (pair : κ × ν) (pairs : List (κ × ν)) (key : κ) :
    values (pair :: pairs) key = (if pair.1 = key then [pair.2] else []) ++ values pairs key := by
  rw [values, List.filter_cons]
  split_ifs with hpair hkey hkey
  · rfl
  · exact absurd (of_decide_eq_true hpair) hkey
  · exact absurd (decide_eq_true hkey) hpair
  · rfl

theorem count_values [DecidableEq ν] (pairs : List (κ × ν)) (key : κ) (value : ν) :
    (values pairs key).count value = pairs.count (key, value) := by
  induction pairs with
  | nil => rfl
  | cons pair pairs ih =>
    obtain ⟨k, v⟩ := pair
    rw [values_cons, List.count_append, ih, List.count_cons]
    rcases eq_or_ne k key with rfl | hkey
    · rcases eq_or_ne v value with rfl | hvalue
      · simp [Nat.add_comm]
      · simp [hvalue]
    · simp [hkey]

variable [Hashable κ]

def push (m : Std.HashMap κ (List ν)) (key : κ) (value : ν) : Std.HashMap κ (List ν) :=
  m.alter key fun entry => some (entry.getD [] ++ [value])

theorem getD_push (m : Std.HashMap κ (List ν)) (k key : κ) (value : ν) :
    (push m k value).getD key [] = m.getD key [] ++ values [(k, value)] key := by
  rw [push, Std.HashMap.getD_alter, values_cons]
  rcases eq_or_ne k key with rfl | hkey
  · simp [Std.HashMap.getD_eq_getD_getElem?]
  · simp [hkey]

theorem getD_foldl_push (pairs : List (κ × ν)) (m : Std.HashMap κ (List ν)) (key : κ) :
    (pairs.foldl (fun m pair => push m pair.1 pair.2) m).getD key [] =
      m.getD key [] ++ values pairs key := by
  induction pairs generalizing m with
  | nil => simp
  | cons pair pairs ih =>
    rw [List.foldl_cons, ih, getD_push, List.append_assoc, ← values_append]
    rfl

end Push

section Sources

variable {α : Type u} {edge : α → α → Prop}

def Acyclic (edge : α → α → Prop) : Prop := ∀ a, ¬TransGen edge a a

theorem Acyclic.mono {edge' : α → α → Prop} (h : Acyclic edge)
    (hle : ∀ a b, edge' a b → edge a b) : Acyclic edge' :=
  fun a hcycle => h a (TransGen.mono hle _ _ hcycle)

theorem Acyclic.of_lt (rank : α → Nat) (h : ∀ a b, edge a b → rank a < rank b) : Acyclic edge := by
  have hlt : ∀ a b, TransGen edge a b → rank a < rank b := by
    intro a b hpath
    induction hpath with
    | single hedge => exact h _ _ hedge
    | tail _ hedge ih => exact ih.trans (h _ _ hedge)
  exact fun a hcycle => Nat.lt_irrefl _ (hlt a a hcycle)

/-- Against the edges of a finite set, no path goes on for ever. -/
theorem Acyclic.exists_source (h : Acyclic edge) {s : Finset α}
    (hclosed : ∀ a b, edge a b → b ∈ s → a ∈ s) {x : α} (hx : x ∈ s) :
    ∃ r ∈ s, ReflTransGen edge r x ∧ ∀ a, ¬edge a r := by
  have : IsStrictOrder α (TransGen edge) :=
    { irrefl := h, trans := fun _ _ _ => TransGen.trans }
  have hwf : (s : Set α).WellFoundedOn (TransGen edge) := s.finite_toSet.wellFoundedOn
  refine hwf.induction (P := fun x => ∃ r ∈ s, ReflTransGen edge r x ∧ ∀ a, ¬edge a r) hx ?_
  intro y hy ih
  by_cases hsource : ∃ a, edge a y
  · obtain ⟨a, ha⟩ := hsource
    obtain ⟨r, hr, hpath, hmin⟩ := ih a (hclosed a y ha hy) (.single ha)
    exact ⟨r, hr, hpath.tail ha, hmin⟩
  · exact ⟨y, hy, .refl, fun a ha => hsource ⟨a, ha⟩⟩

/-- Along the edges of a finite set, no path goes on for ever. -/
theorem Acyclic.acc (h : Acyclic edge) {s : Finset α} (hclosed : ∀ a b, edge a b → b ∈ s) (x : α) :
    Acc (fun b a => edge a b) x := by
  have : IsStrictOrder α (Function.swap (TransGen edge)) :=
    { irrefl := h, trans := fun _ _ _ hab hbc => hbc.trans hab }
  have hwf : (s : Set α).WellFoundedOn (Function.swap (TransGen edge)) :=
    s.finite_toSet.wellFoundedOn
  have hmem : ∀ y ∈ s, Acc (fun b a => edge a b) y := by
    intro y hy
    refine hwf.induction (P := Acc fun b a => edge a b) hy ?_
    exact fun z _ ih => ⟨z, fun b hb => ih b (hclosed z b hb) (.single hb)⟩
  exact ⟨x, fun b hb => hmem b (hclosed x b hb)⟩

end Sources

end Workflows.Adjacency
