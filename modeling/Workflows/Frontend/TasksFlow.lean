import Workflows.Foundations.Traversal
import Workflows.Foundations.Utf16
import Workflows.Frontend.Identifiers
import Workflows.Frontend.ScanRangeForm
import Workflows.Frontend.TaskTree

/-!
# The drawn graph of tasks

`generateNodesAndEdges` walks the tree that `buildTaskTree` has made. A shared task is drawn once,
known by its id, and an edge once, known by a text in which the ids of its ends are joined.
-/

namespace Workflows.Frontend

open Adjacency Filter Relation Traversal Utf16

universe u

variable {ρ : Type u}

section Model

inductive TaskStatus where
  | pending
  | running
  | succeeded
  | skipped
  | failed
  | error
  | omitted
  deriving DecidableEq

structure Artifact where
  name : String
  url : String
  mimeType : String
  parentTask : String
  parentTaskId : String
  deriving DecidableEq

/-- What a task holds beside its place in the graph. -/
structure TaskFields where
  name : String
  status : TaskStatus
  artifacts : List Artifact
  workflow : String
  instrumentSession : Visit
  stepType : String
  deriving DecidableEq

structure NodeData where
  label : String
  taskId : String
  status : TaskStatus
  details : List Artifact
  workflow : String
  instrumentSession : Visit
  highlighted : Bool
  filled : Bool
  deriving DecidableEq

structure Node where
  id : String
  type : String
  data : NodeData
  position : Int × Int
  deriving DecidableEq

structure Edge where
  id : String
  source : String
  target : String
  animated : Bool
  deriving DecidableEq

structure Flow where
  nodes : List Node
  edges : List Edge
  deriving DecidableEq

/-- `parseInt` with no radix: behind `0x` the digits are hexadecimal. -/
def parseIntAnyRadix (cs : List Char) : Number :=
  let (negative, cs) :=
    match cs.dropWhile isWhiteSpace with
    | '-' :: cs => (true, cs)
    | '+' :: cs => (false, cs)
    | cs => (false, cs)
  let (base, cs) :=
    match cs with
    | '0' :: 'x' :: cs => (16, cs)
    | '0' :: 'X' :: cs => (16, cs)
    | cs => (10, cs)
  let digitOf (c : Char) : Option Nat :=
    if c.isDigit then some (c.toNat - '0'.toNat)
    else if 'a' ≤ c ∧ c ≤ 'f' ∧ base = 16 then some (c.toNat - 'a'.toNat + 10)
    else if 'A' ≤ c ∧ c ≤ 'F' ∧ base = 16 then some (c.toNat - 'A'.toNat + 10)
    else none
  match (cs.takeWhile fun c => (digitOf c).isSome).filterMap digitOf with
  | [] => .nan
  | digits =>
    let magnitude := Double.ofNat (digits.foldl (fun n digit => base * n + digit) 0)
    if negative then .negative magnitude else .nonneg magnitude

/-- `+ 1` -/
def Number.succ : Number → Number
  | .nan => .nan
  | .nonneg magnitude => .nonneg magnitude.succ
  | .negative magnitude =>
    if magnitude = ⊤ then .negative ⊤
    else if magnitude = 0 then .nonneg 1
    else if magnitude = 1 then .nonneg 0
    else .negative (Double.ofNat (magnitude.toNat - 1))

/-- The code units between the first and the last; one half of a letter reads as no digit. -/
def sliceInner (cs : List Char) : List Char :=
  ((codeUnits cs).drop 1).dropLast.map Char.ofNat

def extractStepNumber (nodeName : String) : String :=
  "Step " ++ String.ofList (parseIntAnyRadix (sliceInner nodeName.toList)).succ.toText

def isRedundantStep (task : Task TaskFields) : Bool :=
  (task.rest.stepType = "DAG" || task.rest.stepType = "Steps") && task.parents.isEmpty

def Node.ofTask (task : Task TaskFields) : Node where
  id := task.id
  type := "custom"
  data :=
    { label :=
        if task.rest.stepType = "StepGroup" then extractStepNumber task.rest.name
        else task.rest.name
      taskId := task.id
      status := task.rest.status
      details := task.rest.artifacts
      workflow := task.rest.workflow
      instrumentSession := task.rest.instrumentSession
      highlighted := false
      filled := false }
  position := (0, 0)

/-- A dependency as it is written into the id of an edge. -/
def linkText (link : String × String) : String := link.1 ++ "-" ++ link.2

def Edge.ofLink (link : String × String) : Edge where
  id := "e" ++ linkText link
  source := link.1
  target := link.2
  animated := true

/-- A node is referred to by its id, and is always found. -/
def TaskTree.children (tree : TaskTree ρ) (id : String) : List String :=
  match tree.taskMap[id]? with
  | none => []
  | some node => node.children

/-- `[...tasks].sort((a, b) => a.id.localeCompare(b.id))` -/
def sortTasks (localeCompare : String → String → Ordering) (ids : List String) : List String :=
  ids.mergeSort fun a b => localeCompare a b != .gt

def drawTask (tree : TaskTree TaskFields) (parents : List String) (flow : Flow) (id : String) :
    Flow :=
  match tree.taskMap[id]? with
  | none => flow
  | some { task, .. } =>
    { nodes :=
        if !flow.nodes.any (·.id = task.id) && !isRedundantStep task then
          flow.nodes ++ [.ofTask task]
        else flow.nodes
      edges := parents.foldl (fun edges parent =>
        let edge := Edge.ofLink (parent, task.id)
        if !edges.any (·.id = edge.id) then edges ++ [edge] else edges) flow.edges }

def generateNodesAndEdges (localeCompare : String → String → Ordering) (fuel : Nat)
    (tree : TaskTree TaskFields) : Option Flow :=
  traverse tree.children (sortTasks localeCompare) (drawTask tree) fuel [] tree.roots ⟨[], []⟩

end Model

section Walk

variable {tasks : List (Task ρ)} {tree : TaskTree ρ} {parents : List String} {id : String}

theorem sortTasks_perm (localeCompare : String → String → Ordering) (ids : List String) :
    (sortTasks localeCompare ids).Perm ids :=
  List.mergeSort_perm ids _

theorem TaskTree.mem_children_iff {parent : String} :
    id ∈ tree.children parent ↔ tree.Child parent id := by
  rw [TaskTree.children, TaskTree.Child]
  cases tree.taskMap[parent]? with
  | none => simp
  | some node => simp

theorem TaskTree.Displays.mem_children_iff (h : tree.Displays tasks) {task : Task ρ}
    (htask : task ∈ tasks) : id ∈ tree.children task.id ↔ (task.id, id) ∈ dependLinks tasks := by
  obtain ⟨node, hnode, -, hchildren⟩ := h.node task htask
  rw [TaskTree.children, hnode, mem_dependLinks_iff]
  exact hchildren id

theorem TaskTree.Displays.exists_root (h : tree.Displays tasks) (hid : id ∈ tree.roots) :
    ∃ task ∈ tasks, task.id = id := by
  rw [h.roots] at hid
  obtain ⟨task, htask, rfl⟩ := List.mem_map.mp hid
  exact ⟨task, (List.mem_filter.mp htask).1, rfl⟩

/-- Below the roots there is nothing but the listed tasks. -/
theorem TaskTree.Displays.exists_task (h : tree.Displays tasks) {top : String}
    (htop : ∃ task ∈ tasks, task.id = top)
    (hpath : ReflTransGen (fun a b => b ∈ tree.children a) top id) :
    ∃ task ∈ tasks, task.id = id := by
  induction hpath with
  | refl => exact htop
  | tail _ hchild ih =>
    obtain ⟨task, htask, rfl⟩ := ih
    obtain ⟨child, hmem, hid, -⟩ := mem_dependLinks_iff.mp ((h.mem_children_iff htask).mp hchild)
    exact ⟨child, hmem, hid⟩

theorem TaskTree.Displays.exists_path (h : tree.Displays tasks) {task : Task ρ}
    (htask : task ∈ tasks) :
    ∃ root ∈ tree.roots, ReflTransGen (fun a b => b ∈ tree.children a) root task.id := by
  obtain ⟨root, hroot, hpath⟩ := h.reachable task htask
  exact ⟨root, hroot, ReflTransGen.mono (fun _ _ => TaskTree.mem_children_iff.mpr) _ _ hpath⟩

/-- The walk passes every dependency, and comes to the roots from nowhere. -/
theorem TaskTree.Displays.visited_iff (h : tree.Displays tasks)
    (hclosed : ∀ task ∈ tasks, ∀ depId ∈ task.parents, ∃ parent ∈ tasks, parent.id = depId) :
    Visited tree.children [] tree.roots (parents, id) ↔
      parents = [] ∧ id ∈ tree.roots ∨ ∃ p, parents = [p] ∧ (p, id) ∈ dependLinks tasks := by
  constructor
  · rintro (hroot | ⟨htop, hpath, hchild⟩)
    · exact .inl ⟨rfl, hroot⟩
    · obtain ⟨task, htask, rfl⟩ := h.exists_task (h.exists_root htop) hpath
      exact .inr ⟨task.id, rfl, (h.mem_children_iff htask).mp hchild⟩
  · rintro (⟨rfl, hroot⟩ | ⟨p, rfl, hlink⟩)
    · exact .here hroot
    · obtain ⟨child, hchild, -, hparent⟩ := mem_dependLinks_iff.mp hlink
      obtain ⟨task, htask, rfl⟩ := hclosed child hchild p hparent
      obtain ⟨root, hroot, hpath⟩ := h.exists_path htask
      exact .below hroot hpath ((h.mem_children_iff htask).mpr hlink)

theorem TaskTree.Displays.exists_visited_iff (h : tree.Displays tasks) :
    (∃ parents, Visited tree.children [] tree.roots (parents, id)) ↔
      ∃ task ∈ tasks, task.id = id := by
  rw [Traversal.exists_visited_iff]
  constructor
  · rintro ⟨root, hroot, hpath⟩
    exact h.exists_task (h.exists_root hroot) hpath
  · rintro ⟨task, htask, rfl⟩
    exact h.exists_path htask

theorem TaskTree.Displays.acc (h : tree.Displays tasks)
    (hacyclic : Acyclic fun parent id => (parent, id) ∈ dependLinks tasks)
    (hroot : id ∈ tree.roots) : Acc (fun b a => b ∈ tree.children a) id := by
  have hfinite : ∀ parent child, (parent, child) ∈ dependLinks tasks →
      child ∈ (tasks.map (·.id)).toFinset := by
    intro parent child hlink
    obtain ⟨task, htask, rfl, -⟩ := mem_dependLinks_iff.mp hlink
    exact List.mem_toFinset.mpr (List.mem_map_of_mem htask)
  have htask := h.exists_root hroot
  clear hroot
  induction hacyclic.acc hfinite id with
  | intro id _ ih =>
    obtain ⟨task, htask, rfl⟩ := htask
    refine ⟨task.id, fun child hchild => ?_⟩
    have hlink := (h.mem_children_iff htask).mp hchild
    exact ih child hlink (h.exists_task ⟨task, htask, rfl⟩ (.single hchild))

end Walk

section Draw

variable {tasks : List (Task TaskFields)} {tree : TaskTree TaskFields}
  {log : List (List String × String)}

/-- The node that a visit asks for. -/
def nodeOf (tree : TaskTree TaskFields) (entry : List String × String) : Option Node :=
  match tree.taskMap[entry.2]? with
  | none => none
  | some node => if isRedundantStep node.task then none else some (.ofTask node.task)

/-- The edges that a visit asks for. -/
def edgesOf (tree : TaskTree TaskFields) (entry : List String × String) : List Edge :=
  match tree.taskMap[entry.2]? with
  | none => []
  | some node => entry.1.map fun parent => .ofLink (parent, node.task.id)

theorem foldl_edges (parents : List String) (id : String) (edges : List Edge) :
    (parents.foldl (fun edges parent =>
      let edge := Edge.ofLink (parent, id)
      if !edges.any (·.id = edge.id) then edges ++ [edge] else edges) edges) =
    (parents.map fun parent => Edge.ofLink (parent, id)).foldl (pushNew Edge.id) edges := by
  rw [List.foldl_map]
  congr 1
  funext edges parent
  simp only [pushNew]
  cases edges.any (·.id = (Edge.ofLink (parent, id)).id) <;> rfl

theorem drawTask_eq (tree : TaskTree TaskFields) (flow : Flow) (entry : List String × String) :
    drawTask tree entry.1 flow entry.2 =
      ⟨(nodeOf tree entry).toList.foldl (pushNew Node.id) flow.nodes,
        (edgesOf tree entry).foldl (pushNew Edge.id) flow.edges⟩ := by
  rw [drawTask, nodeOf, edgesOf]
  cases tree.taskMap[entry.2]? with
  | none => rfl
  | some node =>
    simp only [foldl_edges]
    congr 1
    by_cases hredundant : isRedundantStep node.task
    · simp [hredundant]
    · cases hany : flow.nodes.any (·.id = node.task.id) <;>
        simp [hredundant, pushNew, Node.ofTask, hany]

/-- What is drawn is what the visits ask for, each id once. -/
theorem foldl_drawTask (tree : TaskTree TaskFields) (log : List (List String × String))
    (flow : Flow) :
    log.foldl (fun flow entry => drawTask tree entry.1 flow entry.2) flow =
      ⟨(log.filterMap (nodeOf tree)).foldl (pushNew Node.id) flow.nodes,
        (log.flatMap (edgesOf tree)).foldl (pushNew Edge.id) flow.edges⟩ := by
  induction log generalizing flow with
  | nil => rfl
  | cons entry log ih =>
    rw [List.foldl_cons, ih, drawTask_eq, List.flatMap_cons, List.foldl_append,
      List.filterMap_cons]
    cases nodeOf tree entry <;> rfl

variable {log : List (List String × String)}

theorem nodeOf_eq (h : tree.Displays tasks) {task : Task TaskFields} (htask : task ∈ tasks)
    (parents : List String) :
    nodeOf tree (parents, task.id) = if isRedundantStep task then none else some (.ofTask task) := by
  obtain ⟨node, hnode, rfl, -⟩ := h.node task htask
  rw [nodeOf, hnode]

theorem edgesOf_eq (h : tree.Displays tasks) {task : Task TaskFields} (htask : task ∈ tasks)
    (parents : List String) :
    edgesOf tree (parents, task.id) = parents.map fun parent => .ofLink (parent, task.id) := by
  obtain ⟨node, hnode, rfl, -⟩ := h.node task htask
  rw [edgesOf, hnode]

theorem mem_nodes_iff (h : tree.Displays tasks)
    (hlog : ∀ entry, entry ∈ log ↔ Visited tree.children [] tree.roots entry) {node : Node} :
    node ∈ log.filterMap (nodeOf tree) ↔
      node ∈ (tasks.filter fun task => !isRedundantStep task).map Node.ofTask := by
  rw [List.mem_filterMap, List.mem_map]
  constructor
  · rintro ⟨⟨parents, id⟩, hentry, hnode⟩
    obtain ⟨task, htask, rfl⟩ := h.exists_visited_iff.mp ⟨parents, (hlog _).mp hentry⟩
    rw [nodeOf_eq h htask] at hnode
    split_ifs at hnode with hredundant
    exact ⟨task, List.mem_filter.mpr ⟨htask, by simp [hredundant]⟩, Option.some.inj hnode⟩
  · rintro ⟨task, hfilter, rfl⟩
    obtain ⟨htask, hdrawn⟩ := List.mem_filter.mp hfilter
    obtain ⟨parents, hvisited⟩ := h.exists_visited_iff.mpr ⟨task, htask, rfl⟩
    refine ⟨(parents, task.id), (hlog _).mpr hvisited, ?_⟩
    rw [nodeOf_eq h htask, if_neg (by simpa using hdrawn)]

theorem mem_edges_iff (h : tree.Displays tasks)
    (hclosed : ∀ task ∈ tasks, ∀ depId ∈ task.parents, ∃ parent ∈ tasks, parent.id = depId)
    (hlog : ∀ entry, entry ∈ log ↔ Visited tree.children [] tree.roots entry) {edge : Edge} :
    edge ∈ log.flatMap (edgesOf tree) ↔ edge ∈ (dependLinks tasks).dedup.map Edge.ofLink := by
  rw [List.mem_flatMap, List.mem_map]
  simp only [List.mem_dedup]
  constructor
  · rintro ⟨⟨parents, id⟩, hentry, hedge⟩
    have hvisited := (hlog _).mp hentry
    obtain ⟨task, htask, rfl⟩ := h.exists_visited_iff.mp ⟨parents, hvisited⟩
    rw [edgesOf_eq h htask] at hedge
    obtain ⟨parent, hparent, rfl⟩ := List.mem_map.mp hedge
    obtain ⟨rfl, -⟩ | ⟨p, rfl, hlink⟩ := (h.visited_iff hclosed).mp hvisited
    · cases hparent
    · obtain rfl := List.mem_singleton.mp hparent
      exact ⟨_, hlink, rfl⟩
  · rintro ⟨⟨parent, id⟩, hlink, rfl⟩
    obtain ⟨task, htask, rfl, -⟩ := mem_dependLinks_iff.mp hlink
    refine ⟨([parent], task.id), (hlog _).mpr ?_, ?_⟩
    · exact (h.visited_iff hclosed).mpr (.inr ⟨parent, rfl, hlink⟩)
    · rw [edgesOf_eq h htask]
      exact List.mem_singleton_self _

theorem Edge.ofLink_injective : Function.Injective Edge.ofLink := by
  intro link link' h
  exact Prod.ext (congrArg Edge.source h) (congrArg Edge.target h)

theorem Edge.ofLink_id_eq_iff {link link' : String × String} :
    (ofLink link).id = (ofLink link').id ↔ linkText link = linkText link' :=
  String.append_right_inj "e"

structure Flow.Draws (flow : Flow) (tasks : List (Task TaskFields)) : Prop where
  nodes : flow.nodes.Perm ((tasks.filter fun task => !isRedundantStep task).map Node.ofTask)
  edges : flow.edges.Perm ((dependLinks tasks).dedup.map Edge.ofLink)
  edgeIds : (flow.edges.map (·.id)).Nodup

/-- Every dependency has an edge, and the edges are known by their texts. -/
theorem Flow.Draws.eq_of_linkText_eq {flow : Flow} (h : flow.Draws tasks)
    {link link' : String × String} (hlink : link ∈ dependLinks tasks)
    (hlink' : link' ∈ dependLinks tasks) (htext : linkText link = linkText link') :
    link = link' := by
  have hmem : ∀ link ∈ dependLinks tasks, Edge.ofLink link ∈ flow.edges := by
    intro link hlink
    exact h.edges.mem_iff.mpr (List.mem_map_of_mem (List.mem_dedup.mpr hlink))
  apply Edge.ofLink_injective
  exact List.inj_on_of_nodup_map h.edgeIds (hmem link hlink) (hmem link' hlink')
    (Edge.ofLink_id_eq_iff.mpr htext)

theorem draws_iff (h : tree.Displays tasks) (hnodup : (tasks.map (·.id)).Nodup)
    (hclosed : ∀ task ∈ tasks, ∀ depId ∈ task.parents, ∃ parent ∈ tasks, parent.id = depId)
    (hlog : ∀ entry, entry ∈ log ↔ Visited tree.children [] tree.roots entry) :
    (log.foldl (fun flow entry => drawTask tree entry.1 flow entry.2) ⟨[], []⟩).Draws tasks ↔
      ∀ link ∈ dependLinks tasks, ∀ link' ∈ dependLinks tasks,
        linkText link = linkText link' → link = link' := by
  rw [foldl_drawTask]
  constructor
  · intro hdraws link hlink link' hlink' htext
    exact hdraws.eq_of_linkText_eq hlink hlink' htext
  · intro hdistinct
    have hnodes : ∀ node ∈ log.filterMap (nodeOf tree), ∀ node' ∈ log.filterMap (nodeOf tree),
        node.id = node'.id → node = node' := by
      intro node hnode node' hnode' hid
      obtain ⟨task, htask, rfl⟩ := List.mem_map.mp ((mem_nodes_iff h hlog).mp hnode)
      obtain ⟨task', htask', rfl⟩ := List.mem_map.mp ((mem_nodes_iff h hlog).mp hnode')
      exact congrArg Node.ofTask (List.inj_on_of_nodup_map hnodup (List.mem_filter.mp htask).1
        (List.mem_filter.mp htask').1 hid)
    have hedges : ∀ edge ∈ log.flatMap (edgesOf tree), ∀ edge' ∈ log.flatMap (edgesOf tree),
        edge.id = edge'.id → edge = edge' := by
      intro edge hedge edge' hedge' hid
      obtain ⟨link, hlink, rfl⟩ := List.mem_map.mp ((mem_edges_iff h hclosed hlog).mp hedge)
      obtain ⟨link', hlink', rfl⟩ := List.mem_map.mp ((mem_edges_iff h hclosed hlog).mp hedge')
      exact congrArg Edge.ofLink (hdistinct link (List.mem_dedup.mp hlink) link'
        (List.mem_dedup.mp hlink') (Edge.ofLink_id_eq_iff.mp hid))
    have hkeys := nodup_foldl_pushNew Edge.id (log.flatMap (edgesOf tree))
    refine ⟨?_, ?_, hkeys⟩
    · refine (List.perm_ext_iff_of_nodup ?_ ?_).mpr fun node => ?_
      · exact (nodup_foldl_pushNew Node.id _).of_map
      · apply List.Nodup.of_map Node.id
        rw [List.map_map]
        exact hnodup.sublist (List.filter_sublist.map _)
      · rw [mem_foldl_pushNew_iff hnodes, mem_nodes_iff h hlog]
    · refine (List.perm_ext_iff_of_nodup hkeys.of_map ?_).mpr fun edge => ?_
      · exact (List.nodup_dedup _).map Edge.ofLink_injective
      · rw [mem_foldl_pushNew_iff hedges, mem_edges_iff h hclosed hlog]

end Draw

/-- Enough fuel draws the tree that is built, and what is drawn is the graph of the tasks. -/
def DrawsTaskGraph (localeCompare : String → String → Ordering) (tasks : List (Task TaskFields)) :
    Prop :=
  ∃ tree flow, buildTaskTree tasks = .ok tree ∧
    (∀ᶠ fuel in atTop, generateNodesAndEdges localeCompare fuel tree = some flow) ∧
    flow.Draws tasks

theorem generateNodesAndEdges_ends {tasks : List (Task TaskFields)} {tree : TaskTree TaskFields}
    (h : tree.Displays tasks)
    (hacyclic : Acyclic fun parent id => (parent, id) ∈ dependLinks tasks)
    (localeCompare : String → String → Ordering) :
    ∃ log : List (List String × String),
      (∀ entry, entry ∈ log ↔ Visited tree.children [] tree.roots entry) ∧
      ∀ᶠ fuel in atTop, generateNodesAndEdges localeCompare fuel tree =
        some (log.foldl (fun flow entry => drawTask tree entry.1 flow entry.2) ⟨[], []⟩) := by
  obtain ⟨log, hlog, hends⟩ := exists_visits (sortTasks_perm localeCompare)
    (fun root hroot => h.acc hacyclic hroot) []
  refine ⟨log, hlog, hends.mono fun fuel hfuel => ?_⟩
  rw [generateNodesAndEdges, traverse_eq_foldl, hfuel]
  rfl

/-- The graph is drawn whole as long as no two dependencies are written the same. -/
theorem drawsTaskGraph_iff {tasks : List (Task TaskFields)} (hnodup : (tasks.map (·.id)).Nodup)
    (hclosed : ∀ task ∈ tasks, ∀ depId ∈ task.parents, ∃ parent ∈ tasks, parent.id = depId)
    (hacyclic : Acyclic fun parent id => (parent, id) ∈ dependLinks tasks)
    (localeCompare : String → String → Ordering) :
    DrawsTaskGraph localeCompare tasks ↔
      ∀ link ∈ dependLinks tasks, ∀ link' ∈ dependLinks tasks,
        link.1 ++ "-" ++ link.2 = link'.1 ++ "-" ++ link'.2 → link = link' := by
  obtain ⟨tree, htree, hdisplays⟩ := buildTaskTree_displays hnodup hclosed hacyclic
  obtain ⟨log, hlog, hends⟩ := generateNodesAndEdges_ends hdisplays hacyclic localeCompare
  refine Iff.trans ?_ (draws_iff hdisplays hnodup hclosed hlog)
  constructor
  · rintro ⟨tree', flow, htree', hflow, hdraws⟩
    obtain rfl := Except.ok.inj (htree.symm.trans htree')
    obtain ⟨fuel, hfuel, hlogged⟩ := (hflow.and hends).exists
    exact Option.some.inj (hfuel.symm.trans hlogged) ▸ hdraws
  · intro hdraws
    exact ⟨tree, _, htree, hends, hdraws⟩

section Examples

def podTask (id : String) (depends : List String) : Task TaskFields where
  id := id
  depends := some depends
  rest :=
    { name := id
      status := .pending
      artifacts := []
      workflow := "workflow"
      instrumentSession := ⟨"xx", 98765, 1⟩
      stepType := "Pod" }

theorem acyclic_of_rank {tasks : List (Task ρ)} (rank : String → Nat)
    (h : ∀ link ∈ dependLinks tasks, rank link.1 < rank link.2) :
    Acyclic fun parent id => (parent, id) ∈ dependLinks tasks :=
  Acyclic.of_lt rank fun parent id hlink => h (parent, id) hlink

def diamondTasks : List (Task TaskFields) :=
  [podTask "d" ["b", "c"], podTask "a" [], podTask "b" ["a"], podTask "c" ["a"]]

theorem diamondTasks_acyclic : Acyclic fun parent id => (parent, id) ∈ dependLinks diamondTasks := by
  apply acyclic_of_rank fun id => if id = "a" then 0 else if id = "b" ∨ id = "c" then 1 else 2
  decide

/-- The shared task is drawn once. -/
theorem diamondTasks_drawn : DrawsTaskGraph compare diamondTasks :=
  (drawsTaskGraph_iff (by decide) (by decide) diamondTasks_acyclic compare).mpr (by decide)

/-- The edges from `a` to `b-c` and from `a-b` to `c` have one id, and one of them is not drawn. -/
theorem ambiguous_edges_not_drawn :
    ¬∀ tasks : List (Task TaskFields), (tasks.map (·.id)).Nodup →
      (∀ task ∈ tasks, ∀ depId ∈ task.parents, ∃ parent ∈ tasks, parent.id = depId) →
      (Acyclic fun parent id => (parent, id) ∈ dependLinks tasks) →
      DrawsTaskGraph compare tasks := by
  intro hclaim
  let tasks := [podTask "a" [], podTask "a-b" [], podTask "b-c" ["a"], podTask "c" ["a-b"]]
  have hacyclic : Acyclic fun parent id => (parent, id) ∈ dependLinks tasks := by
    apply acyclic_of_rank fun id => if id = "a" ∨ id = "a-b" then 0 else 1
    decide
  obtain ⟨tree, flow, -, -, hdraws⟩ := hclaim tasks (by decide) (by decide) hacyclic
  have heq : ("a", "b-c") = ("a-b", "c") :=
    hdraws.eq_of_linkText_eq (by decide) (by decide) (by decide)
  exact absurd heq (by decide)

end Examples

end Workflows.Frontend
