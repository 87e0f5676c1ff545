import Workflows.GraphProxy.Tasks

/-!
# The displayed tree of tasks

`buildTaskTree` turns the tasks, which name what they depend on, back into nodes that hold their
children. Nodes are shared, so a node holds the ids under which the tree keeps its children. What
is displayed is the graph that Argo reported, whatever the order of the tasks.
-/

namespace Workflows.Frontend

open Adjacency Relation GraphProxy

universe u v

structure Task (ρ : Type u) where
  id : String
  depends : Option (List String)
  rest : ρ

/-- The mapping in `setFetchedTasks`, with what it makes of the other fields. -/
def fetchedTask {ρ : Type u} {τ : Type v} (fields : NodeStatus ρ → τ) (task : GraphProxy.Task ρ) :
    Task τ where
  id := task.nodeStatus.id
  depends := some task.depends
  rest := fields task.nodeStatus

variable {ρ : Type u}

def Task.parents (task : Task ρ) : List String := task.depends.getD []

structure TaskNode (ρ : Type u) where
  task : Task ρ
  children : List String

structure TaskTree (ρ : Type u) where
  taskMap : Std.HashMap String (TaskNode ρ)
  roots : List String

/-- Reading a property of undefined. -/
inductive TypeError where
  | undefined (property : String)
  deriving DecidableEq

def initialNodes (tasks : List (Task ρ)) : Std.HashMap String (TaskNode ρ) :=
  .ofList (tasks.map fun task => (task.id, { task, children := [] }))

def pushChild (child : String) (taskMap : Std.HashMap String (TaskNode ρ)) (depId : String) :
    Except TypeError (Std.HashMap String (TaskNode ρ)) :=
  match taskMap[depId]? with
  | some node => .ok (taskMap.insert depId { node with children := node.children ++ [child] })
  | none => .error (.undefined "children")

def linkTask (tree : TaskTree ρ) (task : Task ρ) : Except TypeError (TaskTree ρ) :=
  match task.depends with
  | some (depId :: depIds) =>
    ((depId :: depIds).foldlM (pushChild task.id) tree.taskMap).map fun taskMap =>
      { tree with taskMap }
  | _ => .ok { tree with roots := tree.roots ++ [task.id] }

def buildTaskTree (tasks : List (Task ρ)) : Except TypeError (TaskTree ρ) :=
  tasks.foldlM linkTask { taskMap := initialNodes tasks, roots := [] }

def TaskTree.Child (tree : TaskTree ρ) (parent child : String) : Prop :=
  ∃ node, tree.taskMap[parent]? = some node ∧ child ∈ node.children

structure TaskTree.Displays (tree : TaskTree ρ) (tasks : List (Task ρ)) : Prop where
  roots : tree.roots = (tasks.filter (·.parents = [])).map (·.id)
  node : ∀ task ∈ tasks, ∃ node, tree.taskMap[task.id]? = some node ∧ node.task = task ∧
    ∀ id, id ∈ node.children ↔ ∃ child ∈ tasks, child.id = id ∧ task.id ∈ child.parents
  reachable : ∀ task ∈ tasks, ∃ root ∈ tree.roots, ReflTransGen tree.Child root task.id

section Build

/-- Each dependency with the task that names it. -/
def dependLinks (tasks : List (Task ρ)) : List (String × String) :=
  tasks.flatMap fun task => task.parents.map (·, task.id)

theorem mem_dependLinks_iff {tasks : List (Task ρ)} {parent id : String} :
    (parent, id) ∈ dependLinks tasks ↔ ∃ task ∈ tasks, task.id = id ∧ parent ∈ task.parents := by
  rw [dependLinks, List.mem_flatMap]
  constructor
  · rintro ⟨task, htask, hlink⟩
    obtain ⟨p, hp, heq⟩ := List.mem_map.mp hlink
    cases heq
    exact ⟨task, htask, rfl, hp⟩
  · rintro ⟨task, htask, rfl, hparent⟩
    exact ⟨task, htask, List.mem_map_of_mem hparent⟩

/-- The nodes have got the children that the links name, in order. -/
def Grown (links : List (String × String)) (before after : Std.HashMap String (TaskNode ρ)) :
    Prop :=
  ∀ id : String, after[id]? =
    before[id]?.map fun node => { node with children := node.children ++ values links id }

theorem Grown.trans {links more : List (String × String)}
    {before between after : Std.HashMap String (TaskNode ρ)} (h : Grown links before between)
    (hmore : Grown more between after) : Grown (links ++ more) before after := by
  intro id
  rw [hmore id, h id, Option.map_map]
  apply congrArg (Option.map · before[id]?)
  funext node
  simp [values_append]

theorem Grown.mem_iff {links : List (String × String)}
    {before after : Std.HashMap String (TaskNode ρ)} (h : Grown links before after) {id : String} :
    id ∈ after ↔ id ∈ before := by
  rw [Std.HashMap.mem_iff_isSome_getElem?, Std.HashMap.mem_iff_isSome_getElem?, h id,
    Option.isSome_map]

theorem pushChild_eq_ok {taskMap : Std.HashMap String (TaskNode ρ)} {depId : String}
    (h : depId ∈ taskMap) (child : String) :
    ∃ after, pushChild child taskMap depId = .ok after ∧ Grown [(depId, child)] taskMap after := by
  obtain ⟨node, hnode⟩ := Option.isSome_iff_exists.mp
    (Std.HashMap.mem_iff_isSome_getElem?.mp h)
  refine ⟨_, by rw [pushChild, hnode], fun id => ?_⟩
  rw [Std.HashMap.getElem?_insert, values_cons]
  rcases eq_or_ne depId id with rfl | hne
  · simp [hnode]
  · simp [hne]

theorem foldlM_pushChild (child : String) {depIds : List String}
    {taskMap : Std.HashMap String (TaskNode ρ)} (h : ∀ depId ∈ depIds, depId ∈ taskMap) :
    ∃ after, depIds.foldlM (pushChild child) taskMap = .ok after ∧
      Grown (depIds.map (·, child)) taskMap after := by
  induction depIds generalizing taskMap with
  | nil => exact ⟨taskMap, rfl, fun id => by simp⟩
  | cons depId depIds ih =>
    obtain ⟨between, hbetween, hgrown⟩ := pushChild_eq_ok (h depId List.mem_cons_self) child
    obtain ⟨after, hafter, hrest⟩ := ih fun id hid =>
      hgrown.mem_iff.mpr (h id (List.mem_cons_of_mem _ hid))
    refine ⟨after, ?_, hgrown.trans hrest⟩
    rw [List.foldlM_cons, hbetween]
    exact hafter

theorem linkTask_eq_ok {tree : TaskTree ρ} {task : Task ρ}
    (h : ∀ depId ∈ task.parents, depId ∈ tree.taskMap) :
    ∃ after, linkTask tree task = .ok after ∧
      Grown (task.parents.map (·, task.id)) tree.taskMap after.taskMap ∧
      after.roots = tree.roots ++ ([task].filter (·.parents = [])).map (·.id) := by
  rw [linkTask]
  rw [Task.parents] at h
  split
  next depId depIds hdepends =>
    have hparents : task.parents = depId :: depIds := by rw [Task.parents, hdepends]; rfl
    rw [hdepends] at h
    obtain ⟨after, hafter, hgrown⟩ := foldlM_pushChild task.id h
    refine ⟨{ tree with taskMap := after }, ?_, hparents ▸ hgrown, by simp [hparents]⟩
    rw [Option.getD_some] at hafter
    rw [hafter]
    rfl
  next hroot =>
    have hparents : task.parents = [] := by
      cases hdepends : task.depends with
      | none => rw [Task.parents, hdepends]; rfl
      | some depIds =>
        cases depIds with
        | nil => rw [Task.parents, hdepends]; rfl
        | cons depId depIds => exact absurd hdepends (hroot depId depIds)
    exact ⟨_, rfl, fun id => by simp [hparents], by simp [hparents]⟩

theorem foldlM_linkTask {tasks : List (Task ρ)} {tree : TaskTree ρ}
    (h : ∀ task ∈ tasks, ∀ depId ∈ task.parents, depId ∈ tree.taskMap) :
    ∃ after, tasks.foldlM linkTask tree = .ok after ∧
      Grown (dependLinks tasks) tree.taskMap after.taskMap ∧
      after.roots = tree.roots ++ (tasks.filter (·.parents = [])).map (·.id) := by
  induction tasks generalizing tree with
  | nil => exact ⟨tree, rfl, fun id => by simp [dependLinks], by simp⟩
  | cons task tasks ih =>
    obtain ⟨between, hbetween, hgrown, hroots⟩ := linkTask_eq_ok (h task List.mem_cons_self)
    obtain ⟨after, hafter, hrest, hmore⟩ := ih fun other hother depId hdepId =>
      hgrown.mem_iff.mpr (h other (List.mem_cons_of_mem _ hother) depId hdepId)
    refine ⟨after, ?_, hgrown.trans hrest, ?_⟩
    · rw [List.foldlM_cons, hbetween]
      exact hafter
    · rw [hmore, hroots, List.append_assoc, ← List.map_append, ← List.filter_append]
      rfl

theorem mem_initialNodes_iff {tasks : List (Task ρ)} {id : String} :
    id ∈ initialNodes tasks ↔ ∃ task ∈ tasks, task.id = id := by
  simp [initialNodes]

theorem getElem?_initialNodes {tasks : List (Task ρ)} (hnodup : (tasks.map (·.id)).Nodup)
    {task : Task ρ} (htask : task ∈ tasks) :
    (initialNodes tasks)[task.id]? = some { task, children := [] } := by
  refine Std.HashMap.getElem?_ofList_of_mem (beq_self_eq_true task.id) ?_
    (List.mem_map_of_mem htask)
  rw [List.pairwise_map]
  exact (List.pairwise_map.mp hnodup).imp fun hne => beq_eq_false_iff_ne.mpr hne

end Build

/-- Tasks that depend on one another without a cycle are displayed in full. -/
theorem buildTaskTree_displays {tasks : List (Task ρ)} (hnodup : (tasks.map (·.id)).Nodup)
    (hclosed : ∀ task ∈ tasks, ∀ depId ∈ task.parents, ∃ parent ∈ tasks, parent.id = depId)
    (hacyclic : Acyclic fun parent id => (parent, id) ∈ dependLinks tasks) :
    ∃ tree, buildTaskTree tasks = .ok tree ∧ tree.Displays tasks := by
  have hmem : ∀ task ∈ tasks, ∀ depId ∈ task.parents, depId ∈ initialNodes tasks :=
    fun task htask depId hdepId => mem_initialNodes_iff.mpr (hclosed task htask depId hdepId)
  obtain ⟨tree, htree, hgrown, hroots⟩ : ∃ tree, buildTaskTree tasks = .ok tree ∧
      Grown (dependLinks tasks) (initialNodes tasks) tree.taskMap ∧
      tree.roots = [] ++ (tasks.filter (·.parents = [])).map (·.id) := foldlM_linkTask hmem
  have hnode : ∀ task ∈ tasks, tree.taskMap[task.id]? =
      some { task, children := values (dependLinks tasks) task.id } := by
    intro task htask
    rw [hgrown task.id, getElem?_initialNodes hnodup htask]
    rfl
  have hchild : ∀ parent id, (parent, id) ∈ dependLinks tasks → tree.Child parent id := by
    intro parent id hlink
    obtain ⟨child, hchild, rfl, hparent⟩ := mem_dependLinks_iff.mp hlink
    obtain ⟨task, htask, rfl⟩ := hclosed child hchild parent hparent
    exact ⟨_, hnode task htask, mem_values_iff.mpr hlink⟩
  refine ⟨tree, htree, ?_, ?_, ?_⟩
  · rw [hroots, List.nil_append]
  · intro task htask
    refine ⟨_, hnode task htask, rfl, fun id => ?_⟩
    rw [mem_values_iff, mem_dependLinks_iff]
  · intro task htask
    have hids : ∀ {id}, id ∈ (tasks.map (·.id)).toFinset ↔ ∃ task ∈ tasks, task.id = id := by
      simp
    obtain ⟨root, hroot, hpath, hsource⟩ := hacyclic.exists_source
      (s := (tasks.map (·.id)).toFinset) (x := task.id)
      (fun parent id hlink _ => by
        obtain ⟨child, hchild, -, hparent⟩ := mem_dependLinks_iff.mp hlink
        exact hids.mpr (hclosed child hchild parent hparent))
      (hids.mpr ⟨task, htask, rfl⟩)
    obtain ⟨top, htop, rfl⟩ := hids.mp hroot
    refine ⟨top.id, ?_, ReflTransGen.mono hchild _ _ hpath⟩
    rw [hroots, List.nil_append]
    refine List.mem_map_of_mem (List.mem_filter.mpr ⟨htop, decide_eq_true ?_⟩)
    rw [List.eq_nil_iff_forall_not_mem]
    intro parent hparent
    exact hsource parent (mem_dependLinks_iff.mpr ⟨top, htop, rfl, hparent⟩)

section Argo

variable {τ : Type v} {self : ArgoNodes ρ} {visited : List (String × NodeStatus ρ)}
  {fields : NodeStatus ρ → τ} {tasks : List (Task τ)}

theorem ids_perm (htasks : tasks.Perm ((self.intoTasks visited).map (fetchedTask fields))) :
    (tasks.map (·.id)).Perm (self.entries.map (·.1)) := by
  rw [← self.ids_intoTasks visited]
  refine (htasks.map _).trans ?_
  rw [List.map_map]
  rfl

theorem mem_dependLinks_of_perm (hvisited : visited.Perm self.entries)
    (htasks : tasks.Perm ((self.intoTasks visited).map (fetchedTask fields)))
    {parent id : String} (hlink : (parent, id) ∈ dependLinks tasks) :
    ∃ node ∈ self.entries, node.2.id = parent ∧ id ∈ node.2.children := by
  obtain ⟨task, htask, rfl, hparent⟩ := mem_dependLinks_iff.mp hlink
  obtain ⟨source, hsource, rfl⟩ := List.mem_map.mp (htasks.mem_iff.mp htask)
  exact (ArgoNodes.mem_depends_iff hvisited hsource).mp hparent

/-- The graph of the nodes goes to the tree that is displayed with no edge lost or added. -/
theorem argoNodes_displayed (hvisited : visited.Perm self.entries)
    (htasks : tasks.Perm ((self.intoTasks visited).map (fetchedTask fields))) :
    (self.intoTasks visited).map (·.nodeStatus) = self.entries.map (·.2) ∧
      (∀ task ∈ self.intoTasks visited, ∀ parent ∈ self.entries,
        task.depends.count parent.2.id = parent.2.children.count task.nodeStatus.id) ∧
      ∃ tree, buildTaskTree tasks = .ok tree ∧ tree.Displays tasks := by
  refine ⟨self.nodeStatus_intoTasks visited, fun task htask parent hparent =>
    ArgoNodes.count_depends hvisited htask hparent, ?_⟩
  have hids := ids_perm htasks
  refine buildTaskTree_displays (hids.nodup_iff.mpr self.nodup) ?_ ?_
  · intro task htask depId hdepId
    obtain ⟨node, hnode, hid, -⟩ := mem_dependLinks_of_perm hvisited htasks
      (mem_dependLinks_iff.mpr ⟨task, htask, rfl, hdepId⟩)
    have hkey : depId ∈ self.entries.map (·.1) :=
      List.mem_map.mpr ⟨node, hnode, (self.keyed node hnode).trans hid⟩
    exact List.mem_map.mp (hids.mem_iff.mpr hkey)
  · exact self.acyclic.mono fun parent id => mem_dependLinks_of_perm hvisited htasks

/-- A diamond, one of whose nodes also names a child that is not there. -/
def diamond : ArgoNodes Unit where
  entries := [("a", ⟨"a", ["b", "c"], ()⟩), ("b", ⟨"b", ["d", "gone"], ()⟩),
    ("c", ⟨"c", ["d"], ()⟩), ("d", ⟨"d", [], ()⟩)]
  nodup := by decide
  keyed := by decide
  acyclic := by
    apply Acyclic.of_lt fun id => if id = "a" then 0 else if id = "b" ∨ id = "c" then 1 else 2
    rintro parent child ⟨node, hnode, rfl, hchild⟩
    revert hchild
    revert child
    revert node
    decide

theorem diamond_displayed :
    ∃ tree, buildTaskTree ((diamond.intoTasks diamond.entries.reverse).map
        (fetchedTask fun _ => ())).reverse = .ok tree ∧
      tree.Displays ((diamond.intoTasks diamond.entries.reverse).map
        (fetchedTask fun _ => ())).reverse :=
  (argoNodes_displayed (List.reverse_perm _) (List.reverse_perm _)).2.2

end Argo

end Workflows.Frontend
