import Workflows.Foundations.Json

/-!
# What a query is answered with

The fields of an object and the items of a list are completed one by one. What cannot be completed
takes the value around it along, up to the first place where null may stand: there the error is
reported, and null is the answer.
-/

namespace Workflows.Resolution

/-- A value, or the error to be reported further up, and the errors that were reported within. Of
the errors of siblings the first is passed on. -/
structure Completed where
  value : Except String Json
  reported : List String

namespace Completed

def scalar (j : Json) : Completed := ⟨.ok j, []⟩

def failed (err : String) : Completed := ⟨.error err, []⟩

def nullable (c : Completed) : Completed :=
  match c.value with
  | .ok _ => c
  | .error err => ⟨.ok .null, c.reported ++ [err]⟩

def values (fields : List (String × Completed)) : Except String (List (String × Json)) :=
  fields.mapM fun field => field.2.value.map (field.1, ·)

def items (completed : List Completed) : Except String (List Json) :=
  completed.mapM (·.value)

def object (fields : List (String × Completed)) : Completed where
  value := (values fields).map .object
  reported := fields.flatMap (·.2.reported)

def list (completed : List Completed) : Completed where
  value := (items completed).map .array
  reported := completed.flatMap (·.reported)

end Completed

section Except

variable {α β ε : Type}

theorem map_eq_ok_iff {f : α → β} {x : Except ε α} {b : β} :
    x.map f = .ok b ↔ ∃ a, x = .ok a ∧ f a = b := by
  cases x with
  | error err => exact iff_of_false nofun nofun
  | ok a =>
    constructor
    · intro h
      exact ⟨a, rfl, Except.ok.inj h⟩
    · rintro ⟨a', ha, rfl⟩
      obtain rfl := Except.ok.inj ha
      rfl

theorem exists_map_ok_iff {f : α → β} {x : Except ε α} :
    (∃ b, x.map f = .ok b) ↔ ∃ a, x = .ok a := by
  cases x with
  | error err => exact iff_of_false nofun nofun
  | ok a => exact iff_of_true ⟨_, rfl⟩ ⟨a, rfl⟩

theorem mapM_eq_ok_iff {f : α → Except ε β} {xs : List α} {ys : List β} :
    xs.mapM f = .ok ys ↔ List.Forall₂ (fun x y => f x = .ok y) xs ys := by
  induction xs generalizing ys with
  | nil =>
    rw [List.mapM_nil, List.forall₂_nil_left_iff]
    exact ⟨fun h => (Except.ok.inj h).symm, fun h => congrArg _ h.symm⟩
  | cons x xs ih =>
    rw [List.mapM_cons, List.forall₂_cons_left_iff]
    cases hx : f x with
    | error err =>
      refine iff_of_false nofun ?_
      rintro ⟨y, ys, hy, -⟩
      cases hy
    | ok y =>
      cases hxs : xs.mapM f with
      | error err =>
        refine iff_of_false nofun ?_
        rintro ⟨z, zs, -, hzs, -⟩
        cases hxs.symm.trans (ih.mpr hzs)
      | ok zs =>
        constructor
        · intro h
          exact ⟨y, zs, rfl, ih.mp hxs, (Except.ok.inj h).symm⟩
        · rintro ⟨z, zs', hz, hzs, rfl⟩
          obtain rfl := Except.ok.inj hz
          obtain rfl := Except.ok.inj (hxs.symm.trans (ih.mpr hzs))
          rfl

theorem exists_mapM_ok_iff {f : α → Except ε β} {xs : List α} :
    (∃ ys, xs.mapM f = .ok ys) ↔ ∀ x ∈ xs, ∃ y, f x = .ok y := by
  constructor
  · rintro ⟨ys, hys⟩
    have hall := mapM_eq_ok_iff.mp hys
    clear hys
    induction hall with
    | nil => exact nofun
    | cons hy _ ih => exact List.forall_mem_cons.mpr ⟨⟨_, hy⟩, ih⟩
  · intro h
    induction xs with
    | nil => exact ⟨[], rfl⟩
    | cons x xs ih =>
      obtain ⟨⟨y, hy⟩, hxs⟩ := List.forall_mem_cons.mp h
      obtain ⟨ys, hys⟩ := ih hxs
      exact ⟨y :: ys, mapM_eq_ok_iff.mpr (.cons hy (mapM_eq_ok_iff.mp hys))⟩

theorem forall_mem_iff_of_mapM {f : α → Except ε β} {xs : List α} {ys : List β}
    (h : xs.mapM f = .ok ys) {p : β → Prop} :
    (∀ y ∈ ys, p y) ↔ ∀ x ∈ xs, ∀ y, f x = .ok y → p y := by
  have hall := mapM_eq_ok_iff.mp h
  clear h
  induction hall with
  | nil => exact iff_of_true nofun nofun
  | cons hy _ ih => simp only [List.forall_mem_cons, hy, Except.ok.injEq, forall_eq', ih]

end Except

namespace Completed

/-- The value can be completed. -/
def Succeeds (c : Completed) : Prop := ∃ j, c.value = .ok j

@[simp] theorem succeeds_scalar (j : Json) : (scalar j).Succeeds := ⟨j, rfl⟩

@[simp] theorem not_succeeds_failed (err : String) : ¬(failed err).Succeeds := nofun

@[simp] theorem reported_scalar (j : Json) : (scalar j).reported = [] := rfl

@[simp] theorem reported_failed (err : String) : (failed err).reported = [] := rfl

/-- An object is completed when all its fields are, each under its key. -/
theorem object_eq_ok_iff {fields : List (String × Completed)} {j : Json} :
    (object fields).value = .ok j ↔ ∃ entries, j = .object entries ∧
      List.Forall₂ (fun field entry => field.1 = entry.1 ∧ field.2.value = .ok entry.2)
        fields entries := by
  rw [object, map_eq_ok_iff]
  refine exists_congr fun entries => ?_
  rw [values, mapM_eq_ok_iff, and_comm, eq_comm]
  refine and_congr_right fun _ => ?_
  have hfield : ∀ (field : String × Completed) (entry : String × Json),
      field.2.value.map (field.1, ·) = .ok entry ↔
        field.1 = entry.1 ∧ field.2.value = .ok entry.2 := by
    rintro ⟨key, c⟩ ⟨key', j⟩
    rw [map_eq_ok_iff]
    simp [and_comm]
  simp only [hfield]

theorem list_eq_ok_iff {completed : List Completed} {j : Json} :
    (list completed).value = .ok j ↔ ∃ items, j = .array items ∧
      List.Forall₂ (fun c item => c.value = .ok item) completed items := by
  rw [list, map_eq_ok_iff]
  refine exists_congr fun items => ?_
  rw [Completed.items, mapM_eq_ok_iff, and_comm, eq_comm]

theorem succeeds_map {α : Type} {f : α → Json} {x : Except String α} {reported : List String} :
    Succeeds ⟨x.map f, reported⟩ ↔ ∃ a, x = .ok a :=
  exists_map_ok_iff

theorem succeeds_object {fields : List (String × Completed)} :
    (object fields).Succeeds ↔ ∀ field ∈ fields, field.2.Succeeds := by
  rw [object, succeeds_map, values, exists_mapM_ok_iff]
  exact forall₂_congr fun field _ => exists_map_ok_iff

theorem succeeds_list {completed : List Completed} :
    (list completed).Succeeds ↔ ∀ c ∈ completed, c.Succeeds := by
  rw [list, succeeds_map, items, exists_mapM_ok_iff]
  rfl

theorem reported_object {fields : List (String × Completed)} :
    (object fields).reported = [] ↔ ∀ field ∈ fields, field.2.reported = [] :=
  List.flatMap_eq_nil_iff

theorem reported_list {completed : List Completed} :
    (list completed).reported = [] ↔ ∀ c ∈ completed, c.reported = [] :=
  List.flatMap_eq_nil_iff

/-- Null stands in for what failed, and nothing is taken along. -/
theorem succeeds_nullable (c : Completed) : c.nullable.Succeeds := by
  rw [nullable]
  cases hc : c.value with
  | error err => exact ⟨.null, rfl⟩
  | ok j => exact ⟨j, hc⟩

theorem nullable_of_succeeds {c : Completed} (h : c.Succeeds) : c.nullable = c := by
  obtain ⟨j, hj⟩ := h
  rw [nullable, hj]

theorem nullable_of_not_succeeds {c : Completed} (h : ¬c.Succeeds) :
    c.nullable.value = .ok .null ∧ c.nullable.reported ≠ [] := by
  rw [nullable]
  cases hc : c.value with
  | error err => exact ⟨rfl, by simp⟩
  | ok j => exact absurd ⟨j, hc⟩ h

end Completed

end Workflows.Resolution
