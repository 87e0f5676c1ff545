import Mathlib

/-!
# Dictionaries built by successive assignment

A dictionary filled from a list holds under each key the value of the last item with that key.
-/

namespace Workflows.Dictionary

universe u v w

variable {α : Type u} {κ : Type v} {β : Type w} (key : α → κ) (val : α → β)

def dictOf [Ord κ] (xs : List α) : Std.TreeMap κ β :=
  xs.foldl (fun d x => d.insert (key x) (val x)) ∅

variable [DecidableEq κ]

def lastWith (k : κ) (xs : List α) : Option α :=
  xs.reverse.find? (key · = k)

variable {key val}

theorem lastWith_cons (k : κ) (x : α) (xs : List α) :
    lastWith key k (x :: xs) = (lastWith key k xs).or (if key x = k then some x else none) := by
  rw [lastWith, lastWith, List.reverse_cons, List.find?_append]
  by_cases h : key x = k <;> simp [h]

theorem lastWith_isSome_iff {k : κ} {xs : List α} :
    (lastWith key k xs).isSome ↔ ∃ x ∈ xs, key x = k := by
  simp [lastWith, List.find?_isSome]

theorem mem_of_lastWith {k : κ} {xs : List α} {x : α} (h : lastWith key k xs = some x) :
    x ∈ xs ∧ key x = k :=
  ⟨List.mem_reverse.mp (List.mem_of_find?_eq_some h), by simpa using List.find?_some h⟩

variable [Ord κ] [Std.TransOrd κ] [Std.LawfulEqOrd κ]

theorem getElem?_foldl_insert (xs : List α) (d : Std.TreeMap κ β) (k : κ) :
    (xs.foldl (fun d x => d.insert (key x) (val x)) d)[k]? =
      ((lastWith key k xs).map val).or d[k]? := by
  induction xs generalizing d with
  | nil => rfl
  | cons x xs ih =>
    rw [List.foldl_cons, ih, lastWith_cons, Std.TreeMap.getElem?_insert]
    cases lastWith key k xs with
    | some y => rfl
    | none =>
      by_cases h : key x = k
      · simp [h]
      · simp [h, Std.LawfulEqCmp.compare_eq_iff_eq]

theorem getElem?_dictOf (xs : List α) (k : κ) :
    (dictOf key val xs)[k]? = (lastWith key k xs).map val := by
  rw [dictOf, getElem?_foldl_insert]
  simp

/-- A dictionary that entries are taken from one after the other. -/
theorem getElem?_foldl_erase (keys : List κ) (d : Std.TreeMap κ β) (k : κ) :
    (keys.foldl (·.erase ·) d)[k]? = if k ∈ keys then none else d[k]? := by
  induction keys generalizing d with
  | nil => rfl
  | cons key keys ih =>
    rw [List.foldl_cons, ih, Std.TreeMap.getElem?_erase]
    obtain rfl | hne := eq_or_ne key k
    · simp
    · simp [hne.symm, Std.LawfulEqCmp.compare_eq_iff_eq, hne]

section Fallible

variable {ε : Type*} {tryVal : α → Except ε β}

/-- Values that may fail are assigned until one does. -/
def insertAll (key : α → κ) (tryVal : α → Except ε β) :
    List α → Std.TreeMap κ β → Except ε (Std.TreeMap κ β)
  | [], d => .ok d
  | x :: xs, d =>
    match tryVal x with
    | .ok v => insertAll key tryVal xs (d.insert (key x) v)
    | .error e => .error e

omit [DecidableEq κ] [Std.TransOrd κ] [Std.LawfulEqOrd κ] in
theorem insertAll_append (xs ys : List α) (d : Std.TreeMap κ β) :
    insertAll key tryVal (xs ++ ys) d =
      (insertAll key tryVal xs d).bind (insertAll key tryVal ys) := by
  induction xs generalizing d with
  | nil => rfl
  | cons x xs ih =>
    rw [List.cons_append, insertAll, insertAll]
    cases tryVal x with
    | error e => rfl
    | ok v => exact ih _

omit [DecidableEq κ] [Std.TransOrd κ] [Std.LawfulEqOrd κ] in
theorem exists_insertAll_error_iff {xs : List α} {d : Std.TreeMap κ β} :
    (∃ e, insertAll key tryVal xs d = .error e) ↔ ∃ x ∈ xs, ∃ e, tryVal x = .error e := by
  induction xs generalizing d with
  | nil => simp [insertAll]
  | cons x xs ih =>
    rw [insertAll]
    cases hval : tryVal x with
    | error e => exact iff_of_true ⟨e, rfl⟩ ⟨x, List.mem_cons_self, e, hval⟩
    | ok v =>
      refine ih.trans ?_
      simp [hval]

theorem getElem?_of_insertAll {xs : List α} {d d' : Std.TreeMap κ β}
    (h : insertAll key tryVal xs d = .ok d') (k : κ) :
    d'[k]? = ((lastWith key k xs).bind fun x => (tryVal x).toOption).or d[k]? := by
  induction xs generalizing d with
  | nil =>
    cases h
    rfl
  | cons x xs ih =>
    rw [insertAll] at h
    cases hval : tryVal x with
    | error e =>
      rw [hval] at h
      cases h
    | ok v =>
      rw [hval] at h
      simp only at h
      rw [ih h, lastWith_cons, Std.TreeMap.getElem?_insert]
      cases hlast : lastWith key k xs with
      | some y =>
        obtain ⟨hy, -⟩ := mem_of_lastWith hlast
        have hok : (tryVal y).toOption.isSome := by
          cases hvaly : tryVal y with
          | ok w => rfl
          | error e =>
            have hfails : ∃ e, insertAll key tryVal xs (d.insert (key x) v) = .error e :=
              exists_insertAll_error_iff.mpr ⟨y, hy, e, hvaly⟩
            obtain ⟨e', herror⟩ := hfails
            cases herror.symm.trans h
        obtain ⟨w, hw⟩ := Option.isSome_iff_exists.mp hok
        simp [hw]
      | none =>
        rcases eq_or_ne (key x) k with rfl | hne
        · simp [hval, Except.toOption]
        · simp [hne, Std.LawfulEqCmp.compare_eq_iff_eq]

end Fallible

omit [DecidableEq κ] in
theorem nodup_keys (d : Std.TreeMap κ β) : d.keys.Nodup := by
  have hdistinct : d.keys.Pairwise fun a b => ¬compare a b = .eq := Std.TreeMap.distinct_keys
  refine hdistinct.imp fun {a b} (h : ¬compare a b = .eq) (heq : a = b) => ?_
  exact h (heq ▸ Std.ReflCmp.compare_self)

end Workflows.Dictionary
