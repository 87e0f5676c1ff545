import Workflows.Frontend.TasksFlow

/-!
# The tasks behind the OUTPUT button

The view walks the displayed tree down to its leaves. In a graph of tasks these are the tasks on
which no other depends, each of them taken once however many paths lead to it.
-/

namespace Workflows.Frontend

open Adjacency Filter Traversal

universe u

variable {ρ : Type u} {tasks : List (Task ρ)} {tree : TaskTree ρ}

def selectLeaf (tree : TaskTree ρ) (newOutputTaskIds : List String) (id : String) : List String :=
  if (tree.children id).isEmpty && !newOutputTaskIds.contains id then newOutputTaskIds ++ [id]
  else newOutputTaskIds

def outputTaskIds (localeCompare : String → String → Ordering) (fuel : Nat) (tree : TaskTree ρ) :
    Option (List String) :=
  traverse tree.children (sortTasks localeCompare) (fun _ => selectLeaf tree) fuel [] tree.roots []

/-- No task depends on it. -/
def IsFinal (tasks : List (Task ρ)) (task : Task ρ) : Prop :=
  ∀ other ∈ tasks, task.id ∉ other.parents

instance (task : Task ρ) : Decidable (IsFinal tasks task) := by
  unfold IsFinal
  infer_instance

theorem TaskTree.Displays.children_isEmpty_iff (h : tree.Displays tasks) {task : Task ρ}
    (htask : task ∈ tasks) : (tree.children task.id).isEmpty ↔ IsFinal tasks task := by
  rw [List.isEmpty_iff, List.eq_nil_iff_forall_not_mem]
  constructor
  · intro hleaf other hother hparent
    exact hleaf other.id ((h.mem_children_iff htask).mpr
      (mem_dependLinks_iff.mpr ⟨other, hother, rfl, hparent⟩))
  · intro hfinal id hchild
    obtain ⟨other, hother, -, hparent⟩ :=
      mem_dependLinks_iff.mp ((h.mem_children_iff htask).mp hchild)
    exact hfinal other hother hparent

/-- Only the leaves that are visited are kept. -/
theorem foldl_selectLeaf (tree : TaskTree ρ) (log : List (List String × String))
    (ids : List String) :
    log.foldl (fun ids entry => selectLeaf tree ids entry.2) ids =
      ((log.map (·.2)).filter fun id => (tree.children id).isEmpty).foldl (pushNew id) ids := by
  rw [List.foldl_filter, List.foldl_map]
  congr 1
  funext ids entry
  rw [selectLeaf, pushNew]
  cases (tree.children entry.2).isEmpty with
  | false => rfl
  | true =>
    have hany : (ids.any fun kept => decide (id kept = id entry.2)) = ids.contains entry.2 := by
      rw [Bool.eq_iff_iff]
      simp
    rw [hany]
    cases ids.contains entry.2 <;> rfl

/-- The walk ends, and what it selects are the final tasks. -/
theorem outputTaskIds_perm (hnodup : (tasks.map (·.id)).Nodup)
    (hclosed : ∀ task ∈ tasks, ∀ depId ∈ task.parents, ∃ parent ∈ tasks, parent.id = depId)
    (hacyclic : Acyclic fun parent id => (parent, id) ∈ dependLinks tasks)
    (localeCompare : String → String → Ordering) :
    ∃ tree ids, buildTaskTree tasks = .ok tree ∧
      (∀ᶠ fuel in atTop, outputTaskIds localeCompare fuel tree = some ids) ∧
      ids.Nodup ∧ ids.Perm ((tasks.filter fun task => IsFinal tasks task).map (·.id)) := by
  obtain ⟨tree, htree, h⟩ := buildTaskTree_displays hnodup hclosed hacyclic
  obtain ⟨log, hlog, hends⟩ := exists_visits (sortTasks_perm localeCompare)
    (fun root hroot => h.acc hacyclic hroot) []
  let leaves := (log.map (·.2)).filter fun id => (tree.children id).isEmpty
  have hids : (leaves.foldl (pushNew id) []).Nodup :=
    List.map_id (leaves.foldl (pushNew id) []) ▸ nodup_foldl_pushNew id leaves
  refine ⟨tree, leaves.foldl (pushNew id) [], htree, hends.mono fun fuel hfuel => ?_, hids, ?_⟩
  · rw [outputTaskIds, traverse_eq_foldl, hfuel, Option.map_some, foldl_selectLeaf]
  · have hkeys : ∀ a ∈ leaves, ∀ b ∈ leaves, id a = id b → a = b := fun _ _ _ _ heq => heq
    refine (List.perm_ext_iff_of_nodup hids (hnodup.sublist (List.filter_sublist.map _))).mpr ?_
    intro taskId
    rw [mem_foldl_pushNew_iff hkeys, List.mem_filter, List.mem_map, List.mem_map]
    constructor
    · rintro ⟨⟨⟨parents, _⟩, hentry, rfl⟩, hleaf⟩
      obtain ⟨task, htask, rfl⟩ := h.exists_visited_iff.mp ⟨parents, (hlog _).mp hentry⟩
      have hfinal := (h.children_isEmpty_iff htask).mp hleaf
      exact ⟨task, List.mem_filter.mpr ⟨htask, decide_eq_true hfinal⟩, rfl⟩
    · rintro ⟨task, hfilter, rfl⟩
      obtain ⟨htask, hfinal⟩ := List.mem_filter.mp hfilter
      obtain ⟨parents, hvisited⟩ := h.exists_visited_iff.mpr ⟨task, htask, rfl⟩
      exact ⟨⟨_, (hlog _).mpr hvisited, rfl⟩,
        (h.children_isEmpty_iff htask).mpr (of_decide_eq_true hfinal)⟩

/-- Both paths of the diamond lead to the one task that is selected. -/
theorem diamond_outputTaskIds :
    ∃ tree ids, buildTaskTree diamondTasks = .ok tree ∧
      (∀ᶠ fuel in atTop, outputTaskIds compare fuel tree = some ids) ∧ ids.Perm ["d"] := by
  obtain ⟨tree, ids, htree, hends, -, hperm⟩ :=
    outputTaskIds_perm (by decide) (by decide) diamondTasks_acyclic compare
  exact ⟨tree, ids, htree, hends, hperm⟩

end Workflows.Frontend
