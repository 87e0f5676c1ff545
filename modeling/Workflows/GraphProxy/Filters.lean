import Mathlib

/-!
# Filters and the label selectors made of them

The filters of `workflows` and `workflowTemplates`, and the text of the label selector that is sent
for them. A panic is an error that carries its message. The order in which a hash set is gone
through is a parameter.
-/

namespace Workflows.GraphProxy

abbrev Panic := String

inductive ScienceGroup where
  | mx | examples | magneticMaterials | condensedMatter | imaging | bioCryoImaging | surfaces
  | crystallography | spectroscopy
  deriving DecidableEq

inductive WorkflowLabelSelectorOperator where
  | eq | ne | isIn | notIn | exist | doesNotExist
  deriving DecidableEq

structure LabelSelector where
  key : String
  operator : WorkflowLabelSelectorOperator
  values : Option (List String)
  deriving DecidableEq

structure WorkflowStatusFilter where
  pending : Bool := false
  running : Bool := false
  succeeded : Bool := false
  failed : Bool := false
  error : Bool := false
  deriving DecidableEq

structure WorkflowTemplatesFilter where
  scienceGroup : Option (List ScienceGroup)

structure WorkflowFilter where
  workflowStatusFilter : Option WorkflowStatusFilter
  creator : Option String
  template : Option String
  labels : Option (List LabelSelector)

/-- The iterator of a `HashSet`. -/
structure HashOrder (α : Type) where
  iter : Finset α → List α
  nodup : ∀ s, (iter s).Nodup
  mem : ∀ s a, a ∈ iter s ↔ a ∈ s

/-- The labels that `generate_labels` leaves, or its panic. -/
abbrev Generated := Except Panic (List String)

def generateOption {α : Type} (generateLabels : α → List String → Generated) (filter : Option α)
    (labels : List String) : Generated :=
  match filter with
  | some filter => generateLabels filter labels
  | none => .ok labels

section Templates

def scienceGroupPrefix : String := "workflows.diamond.ac.uk/science-group-"

def ScienceGroup.key : ScienceGroup → String
  | .mx => "mx"
  | .crystallography => "crystallography"
  | .magneticMaterials => "magnetic-materials"
  | .examples => "examples"
  | .bioCryoImaging => "bio-cryo-imaging"
  | .condensedMatter => "condensed-matter"
  | .spectroscopy => "spectroscopy"
  | .imaging => "imaging"
  | .surfaces => "surfaces"

variable (order : HashOrder ScienceGroup)

def generateGroups (groups : List ScienceGroup) (labels : List String) : Generated :=
  .ok (labels ++ (order.iter groups.toFinset).map fun group =>
    scienceGroupPrefix ++ group.key ++ "=true")

def WorkflowTemplatesFilter.createLabelSelection (filter : WorkflowTemplatesFilter) :
    Except Panic String :=
  return ",".intercalate (← generateOption (generateGroups order) filter.scienceGroup [])

end Templates

section Status

def phaseKey : String := "workflows.argoproj.io/phase"

namespace WorkflowStatusFilter

variable (filter : WorkflowStatusFilter)

def isEnabled : Bool :=
  filter.pending || filter.running || filter.succeeded || filter.failed || filter.error

def toPhases : List String :=
  (if filter.pending then ["Pending"] else []) ++ (if filter.running then ["Running"] else []) ++
    (if filter.succeeded then ["Succeeded"] else []) ++ (if filter.failed then ["Failed"] else []) ++
    if filter.error then ["Error"] else []

def generateLabels (labels : List String) : Generated :=
  if filter.isEnabled then
    .ok (labels ++ [phaseKey ++ " in (" ++ ", ".intercalate filter.toPhases ++ ")"])
  else .ok labels

end WorkflowStatusFilter

end Status

def creatorKey : String := "workflows.argoproj.io/creator-preferred-username"

def templateKey : String := "workflows.argoproj.io/cluster-workflow-template"

/-- The labels of a creator and of a template. -/
def generateScalar (key value : String) (labels : List String) : Generated :=
  .ok (labels ++ [key ++ "=" ++ value])

def generateCreator : String → List String → Generated := generateScalar creatorKey

def generateTemplate : String → List String → Generated := generateScalar templateKey

/-- `Option::expect`. -/
def expect {α : Type} (message : Panic) : Option α → Except Panic α
  | some a => .ok a
  | none => .error message

/-- The element 0 of a `Vec`. -/
def first {α : Type} : List α → Except Panic α
  | a :: _ => .ok a
  | [] => .error "index out of bounds: the len is 0 but the index is 0"

namespace LabelSelector

def toLabelSelector (selector : LabelSelector) : Except Panic String :=
  match selector.operator with
  | .eq => do
    let value ← expect "EQ requires value" selector.values >>= first
    return selector.key ++ "=" ++ value
  | .ne => do
    let value ← expect "NE requires value" selector.values >>= first
    return selector.key ++ "!=" ++ value
  | .isIn => do
    let values ← expect "IN requires values" selector.values
    return selector.key ++ " in (" ++ ", ".intercalate values ++ ")"
  | .notIn => do
    let values ← expect "NOT_IN requires values" selector.values
    return selector.key ++ " notin (" ++ ", ".intercalate values ++ ")"
  | .exist => return selector.key
  | .doesNotExist => return "!" ++ selector.key

end LabelSelector

def generateSelectors (selectors : List LabelSelector) (labels : List String) : Generated :=
  selectors.foldlM (fun labels selector => return labels ++ [← selector.toLabelSelector]) labels

def WorkflowFilter.createLabelSelection (filter : WorkflowFilter) : Except Panic String := do
  let labels ← generateOption WorkflowStatusFilter.generateLabels filter.workflowStatusFilter []
  let labels ← generateOption generateCreator filter.creator labels
  let labels ← generateOption generateTemplate filter.template labels
  let labels ← generateOption generateSelectors filter.labels labels
  return ",".intercalate labels

/-- The groups of a set in the order in which they are declared. -/
def HashOrder.declared : HashOrder ScienceGroup where
  iter s := [.mx, .examples, .magneticMaterials, .condensedMatter, .imaging, .bioCryoImaging,
    .surfaces, .crystallography, .spectroscopy].filter (· ∈ s)
  nodup s := List.Nodup.filter _ (by decide)
  mem s group := by cases group <;> simp

example : WorkflowFilter.createLabelSelection ⟨some { running := true, failed := true },
    some "test", none, some [⟨"beamline", .eq, some ["i14"]⟩]⟩ =
    .ok ("workflows.argoproj.io/phase in (Running, Failed)," ++
      "workflows.argoproj.io/creator-preferred-username=test,beamline=i14") := by
  decide +kernel

/-- The operator finds the values that it reads. -/
def LabelSelector.HasValues (selector : LabelSelector) : Prop :=
  match selector.operator with
  | .eq | .ne => ∃ value rest, selector.values = some (value :: rest)
  | .isIn | .notIn => ∃ values, selector.values = some values
  | .exist | .doesNotExist => True

/-- The selectors of a filter. -/
def WorkflowFilter.selectors (filter : WorkflowFilter) : List LabelSelector :=
  filter.labels.getD []

section Panics

variable {α β : Type}

theorem exists_ok_map_iff (x : Except Panic α) (f : α → β) :
    (∃ b, (x >>= fun a => pure (f a)) = .ok b) ↔ ∃ a, x = .ok a := by
  cases x with
  | error message => simp [bind, Except.bind]
  | ok a => simp [bind, Except.bind, pure, Except.pure]

theorem exists_expect_iff (message : Panic) (x : Option α) :
    (∃ a, expect message x = .ok a) ↔ ∃ a, x = some a := by
  cases x <;> simp [expect]

theorem exists_expect_first_iff (message : Panic) (x : Option (List α)) :
    (∃ a, (expect message x >>= first) = .ok a) ↔ ∃ a rest, x = some (a :: rest) := by
  match x with
  | none => simp [expect, bind, Except.bind]
  | some [] => simp [expect, first, bind, Except.bind]
  | some (a :: rest) => simp [expect, first, bind, Except.bind]

theorem exists_toLabelSelector_iff {selector : LabelSelector} :
    (∃ label, selector.toLabelSelector = .ok label) ↔ selector.HasValues := by
  obtain ⟨key, operator, values⟩ := selector
  cases operator with
  | eq => exact (exists_ok_map_iff _ _).trans (exists_expect_first_iff _ _)
  | ne => exact (exists_ok_map_iff _ _).trans (exists_expect_first_iff _ _)
  | isIn => exact (exists_ok_map_iff _ _).trans (exists_expect_iff _ _)
  | notIn => exact (exists_ok_map_iff _ _).trans (exists_expect_iff _ _)
  | exist => exact iff_of_true ⟨_, rfl⟩ trivial
  | doesNotExist => exact iff_of_true ⟨_, rfl⟩ trivial

theorem exists_generateSelectors_iff {selectors : List LabelSelector} {labels : List String} :
    (∃ generated, generateSelectors selectors labels = .ok generated) ↔
      ∀ selector ∈ selectors, selector.HasValues := by
  induction selectors generalizing labels with
  | nil => exact iff_of_true ⟨labels, rfl⟩ (by simp)
  | cons selector selectors ih =>
    rw [List.forall_mem_cons, ← exists_toLabelSelector_iff, generateSelectors, List.foldlM_cons]
    cases hlabel : selector.toLabelSelector with
    | error message => simp [bind, Except.bind]
    | ok label =>
      exact ih.trans (and_iff_right ⟨label, rfl⟩).symm

theorem exists_generateStatus (filter : Option WorkflowStatusFilter) (labels : List String) :
    ∃ generated, generateOption WorkflowStatusFilter.generateLabels filter labels =
      .ok generated := by
  cases filter with
  | none => exact ⟨_, rfl⟩
  | some filter =>
    rw [generateOption, WorkflowStatusFilter.generateLabels]
    split_ifs
    · exact ⟨_, rfl⟩
    · exact ⟨_, rfl⟩

theorem exists_generateScalar (key : String) (filter : Option String) (labels : List String) :
    ∃ generated, generateOption (generateScalar key) filter labels = .ok generated := by
  cases filter with
  | none => exact ⟨_, rfl⟩
  | some filter => exact ⟨_, rfl⟩

end Panics

theorem exists_createLabelSelection_templates (order : HashOrder ScienceGroup)
    (filter : WorkflowTemplatesFilter) :
    ∃ label, filter.createLabelSelection order = .ok label := by
  obtain ⟨none | groups⟩ := filter
  · exact ⟨_, rfl⟩
  · exact ⟨_, rfl⟩

theorem exists_createLabelSelection_iff (filter : WorkflowFilter) :
    (∃ label, filter.createLabelSelection = .ok label) ↔
      ∀ selector ∈ filter.selectors, selector.HasValues := by
  obtain ⟨statusLabels, hstatus⟩ := exists_generateStatus filter.workflowStatusFilter []
  obtain ⟨creatorLabels, hcreator⟩ :=
    exists_generateScalar creatorKey filter.creator statusLabels
  obtain ⟨templateLabels, htemplate⟩ :=
    exists_generateScalar templateKey filter.template creatorLabels
  have hcreate : filter.createLabelSelection =
      (generateOption generateSelectors filter.labels templateLabels >>= fun labels =>
        pure (",".intercalate labels)) := by
    rw [WorkflowFilter.createLabelSelection, hstatus]
    change (generateOption (generateScalar creatorKey) filter.creator statusLabels >>= _) = _
    rw [hcreator]
    change (generateOption (generateScalar templateKey) filter.template creatorLabels >>= _) = _
    rw [htemplate]
    rfl
  rw [hcreate, exists_ok_map_iff, WorkflowFilter.selectors]
  cases filter.labels with
  | none => exact iff_of_true ⟨_, rfl⟩ (by simp)
  | some selectors => exact exists_generateSelectors_iff

/-- No selector panics but one whose operator reads a value that is not there. -/
theorem createLabelSelection_ok_iff (order : HashOrder ScienceGroup)
    (templates : WorkflowTemplatesFilter) (workflows : WorkflowFilter) :
    (∃ label, templates.createLabelSelection order = .ok label) ∧
      ((∃ label, workflows.createLabelSelection = .ok label) ↔
        ∀ selector ∈ workflows.selectors, selector.HasValues) :=
  ⟨exists_createLabelSelection_templates order templates, exists_createLabelSelection_iff workflows⟩

/-- A request that asks for a label to equal nothing. -/
def panicking : WorkflowFilter where
  workflowStatusFilter := none
  creator := none
  template := none
  labels := some [⟨"beamline", .eq, some []⟩]

theorem createLabelSelection_panics : ¬ ∃ label, panicking.createLabelSelection = .ok label := by
  have hpanic : panicking.createLabelSelection =
      .error "index out of bounds: the len is 0 but the index is 0" := by decide +kernel
  rintro ⟨label, h⟩
  cases hpanic.symm.trans h

end Workflows.GraphProxy
