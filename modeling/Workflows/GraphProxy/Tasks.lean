import Workflows.Foundations.Adjacency

/-!
# The tasks of a workflow

`into_tasks` turns the nodes of an Argo workflow, which name their children, into tasks, which name
the nodes they depend on. A child may name a node that is not there.
-/

namespace Workflows.GraphProxy

open Adjacency

universe u

variable {ρ : Type u}

/-- A node of the workflow's status; `rest` is what is only passed on. -/
structure NodeStatus (ρ : Type u) where
  id : String
  children : List String
  rest : ρ

structure Task (ρ : Type u) where
  nodeStatus : NodeStatus ρ
  depends : List String

/-- A hash map, with its entries in the order in which they are taken out. -/
structure TaskMap (ρ : Type u) where
  entries : List (String × NodeStatus ρ)
  nodup : (entries.map (·.1)).Nodup

def generateRelationshipMap (visited : List (String × NodeStatus ρ)) :
    Std.HashMap String (List String) :=
  visited.foldl
    (fun parentMap node =>
      node.2.children.foldl (fun parentMap child => push parentMap child node.1) parentMap)
    ∅

def collectTasks (relationshipMap : Std.HashMap String (List String)) :
    List (String × NodeStatus ρ) → List (Task ρ)
  | [] => []
  | (nodeName, nodeStatus) :: entries =>
    { nodeStatus, depends := relationshipMap.getD nodeName [] } ::
      collectTasks (relationshipMap.erase nodeName) entries

/-- The map is visited once for the relationships before it is taken apart, and a hash map promises
no order. -/
def TaskMap.intoTasks (self : TaskMap ρ) (visited : List (String × NodeStatus ρ)) : List (Task ρ) :=
  collectTasks (generateRelationshipMap visited) self.entries

section Relationships

/-- Each child with the node that names it. -/
def parentLinks (entries : List (String × NodeStatus ρ)) : List (String × String) :=
  entries.flatMap fun node => node.2.children.map (·, node.1)

theorem getD_generateRelationshipMap (visited : List (String × NodeStatus ρ)) (child : String) :
    (generateRelationshipMap visited).getD child [] = values (parentLinks visited) child := by
  have hfold : ∀ m : Std.HashMap String (List String),
      visited.foldl (fun m node => node.2.children.foldl (fun m child => push m child node.1) m) m =
        (parentLinks visited).foldl (fun m pair => push m pair.1 pair.2) m := by
    intro m
    rw [parentLinks, List.foldl_flatMap]
    simp only [List.foldl_map]
  rw [generateRelationshipMap, hfold, getD_foldl_push]
  simp

theorem collectTasks_eq (relationshipMap : Std.HashMap String (List String))
    {entries : List (String × NodeStatus ρ)} (hnodup : (entries.map (·.1)).Nodup) :
    collectTasks relationshipMap entries =
      entries.map fun node =>
        { nodeStatus := node.2, depends := relationshipMap.getD node.1 [] } := by
  induction entries generalizing relationshipMap with
  | nil => rfl
  | cons node entries ih =>
    rw [List.map_cons, List.nodup_cons] at hnodup
    rw [collectTasks, ih _ hnodup.2, List.map_cons]
    congr 1
    apply List.map_congr_left
    intro other hother
    have hne : node.1 ≠ other.1 := by
      intro heq
      exact hnodup.1 (heq ▸ List.mem_map_of_mem hother)
    rw [Std.HashMap.getD_erase]
    simp [hne]

theorem count_map_pair (children : List String) (parent child p : String) :
    (children.map (·, parent)).count (child, p) =
      if parent = p then children.count child else 0 := by
  induction children with
  | nil => simp
  | cons c children ih =>
    rw [List.map_cons, List.count_cons, ih, List.count_cons]
    rcases eq_or_ne parent p with rfl | hparent
    · simp
    · simp [hparent]

theorem mem_parentLinks_iff {entries : List (String × NodeStatus ρ)} {child parent : String} :
    (child, parent) ∈ parentLinks entries ↔
      ∃ node ∈ entries, node.1 = parent ∧ child ∈ node.2.children := by
  rw [parentLinks, List.mem_flatMap]
  constructor
  · rintro ⟨node, hnode, hlink⟩
    obtain ⟨c, hc, heq⟩ := List.mem_map.mp hlink
    cases heq
    exact ⟨node, hnode, rfl, hc⟩
  · rintro ⟨node, hnode, rfl, hchild⟩
    exact ⟨node, hnode, List.mem_map_of_mem hchild⟩

theorem count_parentLinks {entries : List (String × NodeStatus ρ)}
    (hnodup : (entries.map (·.1)).Nodup) {node : String × NodeStatus ρ} (hnode : node ∈ entries)
    (child : String) :
    (parentLinks entries).count (child, node.1) = node.2.children.count child := by
  induction entries with
  | nil => cases hnode
  | cons first entries ih =>
    rw [List.map_cons, List.nodup_cons] at hnodup
    rw [parentLinks, List.flatMap_cons, List.count_append, count_map_pair]
    rcases List.mem_cons.mp hnode with rfl | hrest
    · have hnone : (child, node.1) ∉ parentLinks entries := by
        rintro hlink
        obtain ⟨other, hother, hname, -⟩ := mem_parentLinks_iff.mp hlink
        exact hnodup.1 (hname ▸ List.mem_map_of_mem hother)
      have hzero := List.count_eq_zero.mpr hnone
      rw [parentLinks] at hzero
      simp [hzero]
    · have hne : first.1 ≠ node.1 := by
        intro heq
        exact hnodup.1 (heq ▸ List.mem_map_of_mem hrest)
      rw [if_neg hne, Nat.zero_add]
      exact ih hnodup.2 hrest

end Relationships

/-- The nodes of a workflow as Argo reports them. -/
structure ArgoNodes (ρ : Type u) extends TaskMap ρ where
  keyed : ∀ node ∈ entries, node.1 = node.2.id
  acyclic : Acyclic fun parent child =>
    ∃ node ∈ entries, node.2.id = parent ∧ child ∈ node.2.children

namespace TaskMap

variable {self : TaskMap ρ} {visited : List (String × NodeStatus ρ)}

theorem intoTasks_eq (self : TaskMap ρ) (visited : List (String × NodeStatus ρ)) :
    self.intoTasks visited = self.entries.map fun node =>
      { nodeStatus := node.2, depends := values (parentLinks visited) node.1 } := by
  rw [intoTasks, collectTasks_eq _ self.nodup]
  simp only [getD_generateRelationshipMap]

theorem nodeStatus_intoTasks (self : TaskMap ρ) (visited : List (String × NodeStatus ρ)) :
    (self.intoTasks visited).map (·.nodeStatus) = self.entries.map (·.2) := by
  rw [intoTasks_eq, List.map_map]
  rfl

end TaskMap

namespace ArgoNodes

variable {self : ArgoNodes ρ} {visited : List (String × NodeStatus ρ)}

theorem parentLinks_perm (h : visited.Perm self.entries) :
    (parentLinks visited).Perm (parentLinks self.entries) :=
  h.flatMap_right _

/-- A task names its parents as often as they name it. -/
theorem count_depends (h : visited.Perm self.entries) {task : Task ρ}
    (htask : task ∈ self.intoTasks visited) {parent : String × NodeStatus ρ}
    (hparent : parent ∈ self.entries) :
    task.depends.count parent.2.id = parent.2.children.count task.nodeStatus.id := by
  rw [TaskMap.intoTasks_eq] at htask
  obtain ⟨node, hnode, rfl⟩ := List.mem_map.mp htask
  rw [← self.keyed parent hparent, count_values, (parentLinks_perm h).count_eq,
    count_parentLinks self.nodup hparent, self.keyed node hnode]

theorem mem_depends_iff (h : visited.Perm self.entries) {task : Task ρ}
    (htask : task ∈ self.intoTasks visited) {id : String} :
    id ∈ task.depends ↔
      ∃ node ∈ self.entries, node.2.id = id ∧ task.nodeStatus.id ∈ node.2.children := by
  rw [TaskMap.intoTasks_eq] at htask
  obtain ⟨child, hchild, rfl⟩ := List.mem_map.mp htask
  rw [mem_values_iff, (parentLinks_perm h).mem_iff, mem_parentLinks_iff, self.keyed child hchild]
  constructor
  · rintro ⟨node, hnode, rfl, hmem⟩
    exact ⟨node, hnode, (self.keyed node hnode).symm, hmem⟩
  · rintro ⟨node, hnode, rfl, hmem⟩
    exact ⟨node, hnode, self.keyed node hnode, hmem⟩

theorem ids_intoTasks (self : ArgoNodes ρ) (visited : List (String × NodeStatus ρ)) :
    (self.intoTasks visited).map (·.nodeStatus.id) = self.entries.map (·.1) := by
  rw [TaskMap.intoTasks_eq, List.map_map]
  apply List.map_congr_left
  intro node hnode
  exact (self.keyed node hnode).symm

end ArgoNodes

end Workflows.GraphProxy
