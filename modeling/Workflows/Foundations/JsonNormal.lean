import Workflows.Foundations.JsonText

/-!
# JSON values as they are kept

A value that is kept has the entries of each object sorted by their keys, the last one of a key
counting.
-/

namespace Workflows.Json

mutual

def normal : Json → Json
  | .array items => .array (normalItems items)
  | .object entries => .object (objectOf (normalEntries entries))
  | j => j

def normalItems : List Json → List Json
  | [] => []
  | item :: items => normal item :: normalItems items

def normalEntries : List (String × Json) → List (String × Json)
  | [] => []
  | (key, v) :: entries => (key, normal v) :: normalEntries entries

end

theorem normalItems_eq_map (items : List Json) : normalItems items = items.map normal := by
  induction items with
  | nil => rfl
  | cons item items ih => rw [normalItems, ih, List.map_cons]

theorem normalEntries_eq_map (entries : List (String × Json)) :
    normalEntries entries = entries.map fun e => (e.1, e.2.normal) := by
  induction entries with
  | nil => rfl
  | cons entry entries ih => rw [normalEntries, ih, List.map_cons]

@[elab_as_elim]
theorem inductOn {motive : Json → Prop} (j : Json)
    (scalar : ∀ j : Json, j.nesting = 0 → j.normal = j → motive j)
    (array : ∀ items : List Json, (∀ v ∈ items, motive v) → motive (.array items))
    (object : ∀ entries : List (String × Json), (∀ e ∈ entries, motive e.2) →
      motive (.object entries)) : motive j := by
  match j with
  | .null | .bool _ | .number _ | .string _ => exact scalar _ rfl rfl
  | .array items => exact array items fun v hv => inductOn v scalar array object
  | .object entries => exact object entries fun e he => inductOn e.2 scalar array object
termination_by sizeOf j
decreasing_by
  · have := List.sizeOf_lt_of_mem hv
    simp only [Json.array.sizeOf_spec]
    omega
  · obtain ⟨key, v⟩ := e
    have := List.sizeOf_lt_of_mem he
    simp only [Json.object.sizeOf_spec, Prod.mk.sizeOf_spec] at this ⊢
    omega

@[simp] theorem nesting_string (s : String) : (Json.string s).nesting = 0 := rfl

theorem nesting_normal_le (j : Json) : j.normal.nesting ≤ j.nesting := by
  induction j using inductOn with
  | scalar j _ hnormal => rw [hnormal]
  | array items ih =>
    rw [normal, normalItems_eq_map, nesting, nesting]
    refine Nat.succ_le_succ (itemsNesting_le_iff.mpr fun v hv => ?_)
    obtain ⟨item, hitem, rfl⟩ := List.mem_map.mp hv
    exact (ih item hitem).trans (itemsNesting_le_iff.mp le_rfl item hitem)
  | object entries ih =>
    rw [normal, normalEntries_eq_map, nesting, nesting]
    refine Nat.succ_le_succ (entriesNesting_le_iff.mpr fun e he => ?_)
    obtain ⟨entry, hentry, rfl⟩ := List.mem_map.mp ((objectOf_spec _).2 e he)
    exact (ih entry hentry).trans (entriesNesting_le_iff.mp le_rfl entry hentry)

theorem normal_normal (j : Json) : j.normal.normal = j.normal := by
  induction j using inductOn with
  | scalar j _ hnormal => rw [hnormal, hnormal]
  | array items ih =>
    simp only [normal, normalItems_eq_map, List.map_map, array.injEq]
    exact List.map_congr_left ih
  | object entries ih =>
    simp only [normal, normalEntries_eq_map, object.injEq]
    obtain ⟨hsorted, hmem⟩ := objectOf_spec (entries.map fun e => (e.1, e.2.normal))
    have hmap : (objectOf (entries.map fun e => (e.1, e.2.normal))).map
        (fun e => (e.1, e.2.normal)) = objectOf (entries.map fun e => (e.1, e.2.normal)) := by
      refine (List.map_congr_left fun e he => ?_).trans (List.map_id _)
      obtain ⟨entry, hentry, rfl⟩ := List.mem_map.mp (hmem e he)
      rw [id, ih entry hentry]
    rw [hmap, objectOf_of_sorted hsorted]

theorem normal_eq_null {j : Json} : j.normal = .null ↔ j = .null := by
  cases j <;> simp [normal]

@[ext]
structure Value where
  json : Json
  normal_json : json.normal = json

def Value.ofJson (j : Json) : Value := ⟨j.normal, normal_normal j⟩

@[simp] theorem Value.ofJson_json (v : Value) : ofJson v.json = v := Value.ext v.normal_json

end Workflows.Json
