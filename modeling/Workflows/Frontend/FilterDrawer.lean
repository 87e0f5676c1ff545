import Workflows.Frontend.ScanRange
import Workflows.GraphProxy.Selection

/-!
# The drawer of filters

What the user enters is checked and handed over as a filter, which the proxy turns into a label
selector. In whatever order the fields are edited, the selector of a filter that is applied asks for
what the fields show at that moment.
-/

namespace Workflows.Frontend

open GraphProxy Selectors

inductive StatusOption where
  | pending
  | running
  | succeeded
  | failed
  | error
  deriving DecidableEq

instance : Fintype StatusOption where
  elems := {.pending, .running, .succeeded, .failed, .error}
  complete option := by cases option <;> decide

namespace StatusOption

def all : List StatusOption := [.pending, .running, .succeeded, .failed, .error]

/-- The key with a capital letter, which is how an option is shown. -/
def label : StatusOption → String
  | .pending => "Pending"
  | .running => "Running"
  | .succeeded => "Succeeded"
  | .failed => "Failed"
  | .error => "Error"

theorem mem_all (option : StatusOption) : option ∈ all := by
  cases option <;> decide

end StatusOption

/-- The statuses are the keys that are `true`, in the order in which they are entered. -/
structure WorkflowQueryFilter where
  creator : Option String
  template : Option String
  workflowStatusFilter : Option (List StatusOption)
  deriving DecidableEq

structure FilterErrors where
  creator : Bool
  template : Bool
  deriving DecidableEq

structure FilterDrawer where
  isOpen : Bool
  creator : String
  template : String
  errors : FilterErrors
  status : List StatusOption
  deriving DecidableEq

def FilterDrawer.init : FilterDrawer where
  isOpen := false
  creator := ""
  template := ""
  errors := ⟨false, false⟩
  status := []

inductive DrawerEvent where
  | toggle (newOpen : Bool)
  | changeCreator (value : String)
  | changeTemplate (value : Option String)
  | changeStatus (value : List StatusOption)
  | clear
  | apply
  deriving DecidableEq

/-- `/^[a-z]+[0-9]+$/` -/
def creatorRegex : Regex Char :=
  .seq (.plus (.cls Char.isLower)) (.plus (.cls Char.isDigit))

def normaliseFilter (filter : WorkflowQueryFilter) : WorkflowQueryFilter :=
  { filter with
    creator := filter.creator.filter fun creator => trim creator.toList ≠ []
    template := filter.template.filter fun template => trim template.toList ≠ [] }

/-- Whether the creator is in error. An empty one never is. -/
def validateFilter (filter : WorkflowQueryFilter) : FilterErrors where
  creator := filter.creator.any fun creator =>
    creator ≠ "" && !creatorRegex.accepts creator.toList
  template := false

namespace FilterDrawer

variable (drawer : FilterDrawer)

def processFilter : WorkflowQueryFilter :=
  normaliseFilter
    { creator := some drawer.creator
      template := some drawer.template
      workflowStatusFilter :=
        if 0 < drawer.status.length then some (StatusOption.all.filter (· ∈ drawer.status))
        else none }

def step : DrawerEvent → FilterDrawer × Option WorkflowQueryFilter
  | .toggle newOpen => ({ drawer with isOpen := newOpen }, none)
  | .changeCreator value =>
    ({ drawer with
        creator := value
        errors := { drawer.errors with
          creator := !(value = "" || creatorRegex.accepts value.toList) } }, none)
  | .changeTemplate value =>
    ({ drawer with
        template := value.getD ""
        errors := { drawer.errors with template := false } }, none)
  | .changeStatus value => ({ drawer with status := value }, none)
  | .clear =>
    ({ drawer with creator := "", template := "", status := [], errors := ⟨false, false⟩ }, none)
  | .apply =>
    let errors := validateFilter drawer.processFilter
    if errors.creator || errors.template then ({ drawer with errors }, none)
    else ({ drawer with errors, isOpen := false }, some drawer.processFilter)

def run (events : List DrawerEvent) : FilterDrawer :=
  events.foldl (fun drawer event => (drawer.step event).1) .init

end FilterDrawer

/-- Keys that are absent take their default. -/
def statusInput (keys : List StatusOption) : WorkflowStatusFilter where
  pending := .pending ∈ keys
  running := .running ∈ keys
  succeeded := .succeeded ∈ keys
  failed := .failed ∈ keys
  error := .error ∈ keys

/-- The variable of the query. -/
def WorkflowQueryFilter.input (filter : WorkflowQueryFilter) : WorkflowFilter where
  workflowStatusFilter := filter.workflowStatusFilter.map statusInput
  creator := filter.creator
  template := filter.template
  labels := none

/-- What `WorkflowListFilterDisplay` shows of the statuses. -/
def workflowStatusToString (status : Option (List StatusOption)) : Option String :=
  let result := ", ".intercalate ((status.getD []).map StatusOption.label)
  if 0 < result.length then some result else none

/-- What the fields ask of the labels of a workflow. -/
structure FilterDrawer.Asks (drawer : FilterDrawer) (labels : Labels) : Prop where
  creator : trim drawer.creator.toList ≠ [] → labels.get creatorKey = some drawer.creator
  template : trim drawer.template.toList ≠ [] → labels.get templateKey = some drawer.template
  status : drawer.status ≠ [] →
    ∃ option ∈ drawer.status, labels.get phaseKey = some option.label

/-- The name of an object of the cluster. -/
structure IsObjectName (name : String) : Prop where
  letters : name.toList.all fun c => c.isLower || c.isDigit || c = '-' || c = '.'
  first : name.toList.head?.any Char.isAlphanum
  last : name.toList.getLast?.any Char.isAlphanum

section Names

variable {name : String}

theorem isObjectName_of_accepts (h : creatorRegex.accepts name.toList) : IsObjectName name := by
  rw [Regex.accepts_iff, creatorRegex, Regex.mem_lang_seq] at h
  obtain ⟨u, hu, v, hv, heq⟩ := h
  obtain ⟨hu, hlower⟩ := Regex.mem_lang_plus_cls.mp hu
  obtain ⟨hv, hdigit⟩ := Regex.mem_lang_plus_cls.mp hv
  refine ⟨List.all_eq_true.mpr fun c hc => ?_, ?_, ?_⟩
  · rw [← heq] at hc
    obtain hc | hc := List.mem_append.mp hc
    · simp [hlower c hc]
    · simp [hdigit c hc]
  · obtain ⟨c, u, rfl⟩ := List.exists_cons_of_ne_nil hu
    have hc : c.isLower := hlower c List.mem_cons_self
    rw [← heq]
    simp [Char.isAlphanum, Char.isAlpha, hc]
  · obtain ⟨v, c, rfl⟩ := (List.eq_nil_or_concat v).resolve_left hv
    have hc : c.isDigit := hdigit c (by simp)
    rw [← heq]
    simp [Char.isAlphanum, hc]

theorem IsObjectName.ne (h : IsObjectName name) : name.toList ≠ [] := by
  intro hnil
  have hfirst := h.first
  rw [hnil] at hfirst
  cases hfirst

theorem IsObjectName.isLabelValue_iff (h : IsObjectName name) :
    isLabelValue name ↔ name.toList.length ≤ 63 := by
  have hletters : name.toList.all isNameLetter := by
    refine List.all_eq_true.mpr fun c hc => ?_
    have hletter := List.all_eq_true.mp h.letters c hc
    simp only [Bool.or_eq_true, decide_eq_true_eq, or_assoc] at hletter
    obtain hc | hc | rfl | rfl := hletter
    · simp [isNameLetter, Char.isAlphanum, Char.isAlpha, hc]
    · simp [isNameLetter, Char.isAlphanum, hc]
    · decide
    · decide
  have hempty : name.toList.isEmpty = false := by
    rw [List.isEmpty_eq_false_iff]
    exact h.ne
  simp [isLabelValue, isName, hletters, h.first, h.last, hempty]

theorem IsObjectName.plain (h : IsObjectName name) : Plain name := by
  intro c hc
  have hall : separators.all (!(fun c : Char => c.isLower || c.isDigit || c = '-' || c = '.') ·) := by
    decide +kernel
  exact isSeparator_eq_false hall (List.all_eq_true.mp h.letters c hc)

end Names

section Applied

variable {drawer drawer' : FilterDrawer} {filter : WorkflowQueryFilter} {labels : Labels}

theorem step_apply_eq (h : drawer.step .apply = (drawer', some filter)) :
    filter = drawer.processFilter ∧ (validateFilter filter).creator = false := by
  simp only [FilterDrawer.step] at h
  split_ifs at h with herrors
  · cases h
  · cases h
    simp only [Bool.or_eq_true, not_or, Bool.not_eq_true] at herrors
    exact ⟨rfl, herrors.1⟩

theorem run_concat (events : List DrawerEvent) (event : DrawerEvent) :
    FilterDrawer.run (events ++ [event]) = ((FilterDrawer.run events).step event).1 := by
  rw [FilterDrawer.run, List.foldl_append]
  rfl

theorem step_apply_template : (drawer.step .apply).1.template = drawer.template := by
  simp only [FilterDrawer.step]
  split_ifs <;> rfl

/-- The template is one of those that were offered, or none. -/
theorem run_template {events : List DrawerEvent}
    (hnames : ∀ name, .changeTemplate (some name) ∈ events → IsObjectName name) :
    (FilterDrawer.run events).template = "" ∨ IsObjectName (FilterDrawer.run events).template := by
  induction events using List.reverseRecOn with
  | nil => exact .inl rfl
  | append_singleton events event ih =>
    have hrun := ih fun name hmem => hnames name (List.mem_append_left _ hmem)
    rw [run_concat]
    cases event with
    | changeTemplate value =>
      cases value with
      | none => exact .inl rfl
      | some name => exact .inr (hnames name (List.mem_append_right _ (List.mem_singleton_self _)))
    | clear => exact .inl rfl
    | apply =>
      rw [step_apply_template]
      exact hrun
    | toggle _ | changeCreator _ | changeStatus _ => exact hrun

theorem processFilter_creator : drawer.processFilter.creator =
    if trim drawer.creator.toList ≠ [] then some drawer.creator else none := by
  simp only [FilterDrawer.processFilter, normaliseFilter, Option.filter_some, decide_eq_true_eq]

theorem processFilter_template : drawer.processFilter.template =
    if trim drawer.template.toList ≠ [] then some drawer.template else none := by
  simp only [FilterDrawer.processFilter, normaliseFilter, Option.filter_some, decide_eq_true_eq]

theorem creator_of_valid {creator : String} (h : (validateFilter filter).creator = false)
    (hcreator : creator ∈ filter.creator) (hne : creator ≠ "") : IsObjectName creator := by
  rw [validateFilter, Option.any_eq_false] at h
  have hvalid := h creator hcreator
  simp only [hne, ne_eq, not_false_eq_true, decide_true, Bool.true_and,
    Bool.not_eq_false'] at hvalid
  exact isObjectName_of_accepts hvalid

/-- Both are the name of an object, where they are given. -/
theorem names_of_apply {events : List DrawerEvent}
    (hnames : ∀ name, .changeTemplate (some name) ∈ events → IsObjectName name)
    (h : (FilterDrawer.run events).step .apply = (drawer', some filter)) :
    (∀ creator ∈ filter.creator, IsObjectName creator) ∧
      ∀ template ∈ filter.template, IsObjectName template := by
  obtain ⟨rfl, hvalid⟩ := step_apply_eq h
  constructor
  · intro creator hcreator
    refine creator_of_valid hvalid hcreator fun hempty => ?_
    rw [processFilter_creator] at hcreator
    split_ifs at hcreator with htrim
    · refine htrim ?_
      rw [Option.some.inj hcreator, hempty]
      rfl
    · cases hcreator
  · intro template htemplate
    rw [processFilter_template] at htemplate
    split_ifs at htemplate with htrim
    · cases htemplate
      refine (run_template hnames).resolve_left fun hempty => htrim ?_
      rw [hempty]
      rfl
    · cases htemplate

theorem toPhases_statusInput (p : StatusOption → Bool) :
    (statusInput (StatusOption.all.filter p)).toPhases =
      (StatusOption.all.filter p).map StatusOption.label := by
  revert p
  decide +kernel

theorem isEnabled_statusInput (p : StatusOption → Bool) :
    (statusInput (StatusOption.all.filter p)).isEnabled = !(StatusOption.all.filter p).isEmpty := by
  revert p
  decide +kernel

theorem length_toPhases (p : StatusOption → Bool) (hne : StatusOption.all.filter p ≠ []) :
    0 < (", ".intercalate ((StatusOption.all.filter p).map StatusOption.label)).length := by
  revert p
  decide +kernel

/-- Statuses are shown as they stand in the selector. -/
theorem workflowStatusToString_eq :
    workflowStatusToString drawer.processFilter.workflowStatusFilter =
      drawer.processFilter.input.workflowStatusFilter.map fun status =>
        ", ".intercalate status.toPhases := by
  simp only [WorkflowQueryFilter.input, FilterDrawer.processFilter, normaliseFilter,
    List.length_pos_iff]
  split_ifs with hstatus
  · obtain ⟨option, hoption⟩ := List.exists_mem_of_ne_nil _ hstatus
    have hne : StatusOption.all.filter (· ∈ drawer.status) ≠ [] :=
      List.ne_nil_of_mem (List.mem_filter.mpr ⟨option.mem_all, by simpa using hoption⟩)
    simp only [Option.map_some, toPhases_statusInput, workflowStatusToString, Option.getD_some]
    rw [if_pos (length_toPhases _ hne)]
  · rfl

theorem isValid_status (filter : WorkflowStatusFilter) :
    ∀ r ∈ filter.requirements, r.isValid := by
  obtain ⟨pending, running, succeeded, failed, error⟩ := filter
  revert pending running succeeded failed error
  decide +kernel

theorem asks_status (status : List StatusOption) (hne : status ≠ []) :
    (statusInput (StatusOption.all.filter (· ∈ status))).Asks labels ↔
      ∃ option ∈ status, labels.get phaseKey = some option.label := by
  obtain ⟨option, rest, rfl⟩ := List.exists_cons_of_ne_nil hne
  have hmem : option ∈ StatusOption.all.filter (· ∈ option :: rest) :=
    List.mem_filter.mpr ⟨option.mem_all, by simp⟩
  have henabled : (statusInput (StatusOption.all.filter (· ∈ option :: rest))).isEnabled = true := by
    rw [isEnabled_statusInput, List.isEmpty_eq_false_iff_exists_mem.mpr ⟨option, hmem⟩]
    rfl
  rw [WorkflowStatusFilter.Asks, toPhases_statusInput]
  simp only [henabled, forall_const, List.mem_map, List.mem_filter, StatusOption.mem_all, true_and,
    decide_eq_true_eq]
  constructor
  · rintro ⟨phase, ⟨found, hfound, rfl⟩, hget⟩
    exact ⟨found, hfound, hget⟩
  · rintro ⟨found, hfound, hget⟩
    exact ⟨found.label, ⟨found, hfound, rfl⟩, hget⟩

theorem asks_processFilter : drawer.processFilter.input.Asks labels ↔ drawer.Asks labels := by
  have hcreator : (∀ creator ∈ drawer.processFilter.creator,
      labels.get creatorKey = some creator) ↔
        (trim drawer.creator.toList ≠ [] → labels.get creatorKey = some drawer.creator) := by
    rw [processFilter_creator]
    split_ifs with h <;> simp [h]
  have htemplate : (∀ template ∈ drawer.processFilter.template,
      labels.get templateKey = some template) ↔
        (trim drawer.template.toList ≠ [] → labels.get templateKey = some drawer.template) := by
    rw [processFilter_template]
    split_ifs with h <;> simp [h]
  have hstatus : (∀ status ∈ drawer.processFilter.input.workflowStatusFilter, status.Asks labels) ↔
      (drawer.status ≠ [] → ∃ option ∈ drawer.status, labels.get phaseKey = some option.label) := by
    simp only [WorkflowQueryFilter.input, FilterDrawer.processFilter, normaliseFilter,
      List.length_pos_iff]
    split_ifs with h
    · simp only [Option.map_some, Option.mem_some_iff, forall_eq', h, ne_eq, not_false_eq_true,
        forall_const]
      exact asks_status drawer.status h
    · simp [h]
  constructor
  · intro h
    exact ⟨hcreator.mp h.creator, htemplate.mp h.template, hstatus.mp h.status⟩
  · intro h
    refine ⟨hstatus.mpr h.status, hcreator.mpr h.creator, htemplate.mpr h.template, ?_⟩
    exact fun selector hselector => nomatch hselector

theorem isValid_scalar {key : String} (hkey : isQualifiedName key) {value : Option String}
    (hvalue : ∀ v ∈ value, IsObjectName v) :
    (∀ r ∈ scalarRequirements key value, r.isValid) ↔ ∀ v ∈ value, v.toList.length ≤ 63 := by
  cases value with
  | none => simp [scalarRequirements]
  | some v =>
    have hlabel := (hvalue v rfl).isLabelValue_iff
    simp [scalarRequirements, Requirement.isValid, hkey, hlabel]

theorem isValid_requirements (hcreator : ∀ creator ∈ filter.creator, IsObjectName creator)
    (htemplate : ∀ template ∈ filter.template, IsObjectName template) :
    (∀ r ∈ filter.input.requirements, r.isValid) ↔
      (∀ creator ∈ filter.creator, creator.toList.length ≤ 63) ∧
        ∀ template ∈ filter.template, template.toList.length ≤ 63 := by
  have hcreatorKey : isQualifiedName creatorKey := by decide +kernel
  have htemplateKey : isQualifiedName templateKey := by decide +kernel
  have hstatus : ∀ r ∈ filter.input.workflowStatusFilter.toList.flatMap
      WorkflowStatusFilter.requirements, r.isValid := by
    intro r hr
    obtain ⟨status, -, hr⟩ := List.mem_flatMap.mp hr
    exact isValid_status status r hr
  rw [← isValid_scalar hcreatorKey hcreator, ← isValid_scalar htemplateKey htemplate]
  have hselectors : filter.input.selectors.map LabelSelector.requirement = [] := rfl
  simp only [WorkflowFilter.requirements, hselectors, List.append_nil, List.forall_mem_append]
  exact ⟨fun h => ⟨h.1.2, h.2⟩, fun h => ⟨⟨hstatus, h.1⟩, h.2⟩⟩

/-- The selector of a filter that is applied asks for what the fields show, and is refused exactly
if a name is too long for a label. -/
theorem applied_selects {events : List DrawerEvent}
    (hnames : ∀ name, .changeTemplate (some name) ∈ events → IsObjectName name)
    (happly : (FilterDrawer.run events).step .apply = (drawer', some filter)) :
    ∃ text, filter.input.createLabelSelection = .ok text ∧
      Means text (FilterDrawer.run events).Asks ∧
      ((parse text).isSome ↔ (∀ creator ∈ filter.creator, creator.toList.length ≤ 63) ∧
        ∀ template ∈ filter.template, template.toList.length ≤ 63) := by
  obtain ⟨hcreator, htemplate⟩ := names_of_apply hnames happly
  obtain ⟨rfl, -⟩ := step_apply_eq happly
  have hplain : (FilterDrawer.run events).processFilter.input.IsPlain :=
    { creator := fun creator h => (hcreator creator h).plain
      template := fun template h => (htemplate template h).plain
      keys := fun selector h => nomatch h
      values := fun selector h => nomatch h }
  have htext := createLabelSelection_eq hplain.values
  have hmeans := means_of_isPlain hplain htext
  refine ⟨_, htext, fun rs hrs labels => ?_, ?_⟩
  · rw [hmeans rs hrs labels]
    exact asks_processFilter
  · rw [parse_print (plain_requirements hplain)]
    have hrequirements := isValid_requirements hcreator htemplate
    split_ifs with hvalid
    · simpa using hrequirements.mp (List.all_eq_true.mp hvalid)
    · simpa using mt hrequirements.mpr (mt List.all_eq_true.mpr hvalid)

def exampleEvents : List DrawerEvent :=
  [.toggle true, .changeCreator "abc", .changeTemplate (some "e02-mib2x"),
    .changeStatus [.failed, .running], .changeCreator "abc12345"]

theorem applied_selects_example :
    ∃ drawer filter, (FilterDrawer.run exampleEvents).step .apply = (drawer, some filter) ∧
      ∃ text, filter.input.createLabelSelection = .ok text ∧
        Means text (FilterDrawer.run exampleEvents).Asks ∧
        ((parse text).isSome ↔ (∀ creator ∈ filter.creator, creator.toList.length ≤ 63) ∧
          ∀ template ∈ filter.template, template.toList.length ≤ 63) := by
  have hfilter : ((FilterDrawer.run exampleEvents).step .apply).2 =
      some ⟨some "abc12345", some "e02-mib2x", some [.running, .failed]⟩ := by decide +kernel
  obtain ⟨drawer, hdrawer⟩ : ∃ drawer, drawer =
      ((FilterDrawer.run exampleEvents).step .apply).1 := ⟨_, rfl⟩
  have happly : (FilterDrawer.run exampleEvents).step .apply = (drawer, _) :=
    Prod.ext hdrawer.symm hfilter
  refine ⟨drawer, _, happly, applied_selects (fun name hname => ?_) happly⟩
  have hmem : name ∈ ["e02-mib2x"] := by
    simpa [exampleEvents] using hname
  obtain rfl := List.mem_singleton.mp hmem
  exact ⟨by decide +kernel, by decide +kernel, by decide +kernel⟩

end Applied

end Workflows.Frontend
