import Workflows.GraphProxy.Filters
import Workflows.Foundations.Selectors

/-!
# What a filter selects

The text of a label selector is read by the syntax of Kubernetes and compared with what the filter
asks for. Keys and values are put into the text as they are: where none of them contains a separator
the text is refused or means the filter.
-/

namespace Workflows.GraphProxy

open Selectors

/-- Where Kubernetes accepts the text, it selects the objects that are asked for. -/
def Means (text : String) (asks : Labels → Prop) : Prop :=
  ∀ rs, parse text = some rs → ∀ labels, (∀ r ∈ rs, r.Matches labels) ↔ asks labels

def WorkflowTemplatesFilter.Asks (filter : WorkflowTemplatesFilter) (labels : Labels) : Prop :=
  ∀ groups ∈ filter.scienceGroup, ∀ group ∈ groups,
    labels.get (scienceGroupPrefix ++ group.key) = some "true"

/-- An operator that denies is met by objects without the label, as in Kubernetes. -/
def LabelSelector.Asks (selector : LabelSelector) (labels : Labels) : Prop :=
  match selector.operator with
  | .eq | .isIn => ∃ value ∈ selector.values.getD [], labels.get selector.key = some value
  | .ne | .notIn => ∀ value ∈ selector.values.getD [], labels.get selector.key ≠ some value
  | .exist => labels.get selector.key ≠ none
  | .doesNotExist => labels.get selector.key = none

def WorkflowStatusFilter.Asks (filter : WorkflowStatusFilter) (labels : Labels) : Prop :=
  filter.isEnabled → ∃ phase ∈ filter.toPhases, labels.get phaseKey = some phase

structure WorkflowFilter.Asks (filter : WorkflowFilter) (labels : Labels) : Prop where
  status : ∀ status ∈ filter.workflowStatusFilter, status.Asks labels
  creator : ∀ creator ∈ filter.creator, labels.get creatorKey = some creator
  template : ∀ template ∈ filter.template, labels.get templateKey = some template
  selectors : ∀ selector ∈ filter.selectors, selector.Asks labels

/-- As many values as the operator takes, and no separator in them. -/
def LabelSelector.PlainValues (selector : LabelSelector) : Prop :=
  match selector.operator with
  | .eq | .ne => ∃ value, selector.values = some [value] ∧ Plain value
  | .isIn | .notIn =>
    ∃ values, selector.values = some values ∧ values ≠ [] ∧ ∀ value ∈ values, Plain value
  | .exist | .doesNotExist => True

structure WorkflowFilter.IsPlain (filter : WorkflowFilter) : Prop where
  creator : ∀ creator ∈ filter.creator, Plain creator
  template : ∀ template ∈ filter.template, Plain template
  keys : ∀ selector ∈ filter.selectors, selector.key ≠ "" ∧ Plain selector.key
  values : ∀ selector ∈ filter.selectors, selector.PlainValues

section Requirements

def ScienceGroup.requirement (group : ScienceGroup) : Requirement :=
  ⟨scienceGroupPrefix ++ group.key, .eq, ["true"]⟩

def WorkflowLabelSelectorOperator.operator : WorkflowLabelSelectorOperator → Operator
  | .eq => .eq
  | .ne => .ne
  | .isIn => .isIn
  | .notIn => .notIn
  | .exist => .exist
  | .doesNotExist => .doesNotExist

def LabelSelector.requirement (selector : LabelSelector) : Requirement where
  key := selector.key
  operator := selector.operator.operator
  values := match selector.operator with
    | .exist | .doesNotExist => []
    | _ => selector.values.getD []

def WorkflowStatusFilter.requirements (filter : WorkflowStatusFilter) : List Requirement :=
  if filter.isEnabled then [⟨phaseKey, .isIn, filter.toPhases⟩] else []

def scalarRequirements (key : String) (filter : Option String) : List Requirement :=
  filter.toList.map fun value => ⟨key, .eq, [value]⟩

def WorkflowFilter.requirements (filter : WorkflowFilter) : List Requirement :=
  filter.workflowStatusFilter.toList.flatMap WorkflowStatusFilter.requirements ++
    scalarRequirements creatorKey filter.creator ++ scalarRequirements templateKey filter.template ++
    filter.selectors.map LabelSelector.requirement

end Requirements

theorem plain_of_all {text : String} (h : text.toList.all (!isSeparator ·)) : Plain text := by
  intro c hc
  simpa using List.all_eq_true.mp h c hc

/-- Requirements that are written and read back mean what they match. -/
theorem means_print {rs : List Requirement} (h : ∀ r ∈ rs, r.Plain) {asks : Labels → Prop}
    (hasks : ∀ labels, (∀ r ∈ rs, r.Matches labels) ↔ asks labels) :
    Means (",".intercalate (rs.map (·.print))) asks := by
  intro found hfound labels
  rw [parse_print h] at hfound
  split_ifs at hfound
  cases hfound
  exact hasks labels

theorem print_eq (key value : String) :
    (Requirement.mk key .eq [value]).print = key ++ "=" ++ value := by
  simp [Requirement.print]

theorem print_ne (key value : String) :
    (Requirement.mk key .ne [value]).print = key ++ "!=" ++ value := by
  simp [Requirement.print]

section Templates

variable (order : HashOrder ScienceGroup)

def groupRequirements (filter : WorkflowTemplatesFilter) : List Requirement :=
  match filter.scienceGroup with
  | some groups => (order.iter groups.toFinset).map ScienceGroup.requirement
  | none => []

theorem createLabelSelection_templates (filter : WorkflowTemplatesFilter) :
    filter.createLabelSelection order =
      .ok (",".intercalate ((groupRequirements order filter).map (·.print))) := by
  obtain ⟨none | groups⟩ := filter
  · rfl
  · rw [groupRequirements, List.map_map]
    have hprint : (fun group : ScienceGroup => scienceGroupPrefix ++ group.key ++ "=true") =
        Requirement.print ∘ ScienceGroup.requirement := by
      funext group
      have hvalue : "=true" = "=" ++ "true" := rfl
      rw [Function.comp_apply, ScienceGroup.requirement, print_eq, hvalue, ← String.append_assoc]
    rw [← hprint]
    rfl

theorem plain_groupRequirement (group : ScienceGroup) : group.requirement.Plain where
  key_ne := by cases group <;> decide +kernel
  key := by cases group <;> exact plain_of_all (by decide +kernel)
  values := by
    intro value hvalue
    rw [List.mem_singleton.mp hvalue]
    exact plain_of_all (by decide +kernel)
  count := ⟨"true", rfl⟩

theorem matches_groupRequirements (filter : WorkflowTemplatesFilter) (labels : Labels) :
    (∀ r ∈ groupRequirements order filter, r.Matches labels) ↔ filter.Asks labels := by
  have hmatches : ∀ group : ScienceGroup, group.requirement.Matches labels ↔
      labels.get (scienceGroupPrefix ++ group.key) = some "true" := by
    intro group
    simp [ScienceGroup.requirement, Requirement.Matches]
  obtain ⟨none | groups⟩ := filter
  · simp [groupRequirements, WorkflowTemplatesFilter.Asks]
  · simp [groupRequirements, WorkflowTemplatesFilter.Asks, order.mem, hmatches]

end Templates

section Workflows

variable {labels : List String}

theorem generateStatus_eq (filter : Option WorkflowStatusFilter) :
    generateOption WorkflowStatusFilter.generateLabels filter labels =
      .ok (labels ++
        (filter.toList.flatMap WorkflowStatusFilter.requirements).map (·.print)) := by
  cases filter with
  | none => simp [generateOption]
  | some filter =>
    simp only [generateOption, WorkflowStatusFilter.generateLabels, Option.toList_some,
      List.flatMap_singleton, WorkflowStatusFilter.requirements]
    split_ifs
    · rfl
    · simp

theorem generateScalar_eq (key : String) (filter : Option String) :
    generateOption (generateScalar key) filter labels =
      .ok (labels ++ (scalarRequirements key filter).map (·.print)) := by
  cases filter with
  | none => simp [generateOption, scalarRequirements]
  | some value => simp [generateOption, generateScalar, scalarRequirements, print_eq]

theorem toLabelSelector_eq {selector : LabelSelector} (h : selector.PlainValues) :
    selector.toLabelSelector = .ok selector.requirement.print := by
  obtain ⟨key, operator, values⟩ := selector
  cases operator with
  | eq =>
    obtain ⟨value, rfl, -⟩ : ∃ value, values = some [value] ∧ Plain value := h
    exact congrArg Except.ok (print_eq key value).symm
  | ne =>
    obtain ⟨value, rfl, -⟩ : ∃ value, values = some [value] ∧ Plain value := h
    exact congrArg Except.ok (print_ne key value).symm
  | isIn =>
    obtain ⟨values, rfl, -⟩ : ∃ found, values = some found ∧ _ := h
    rfl
  | notIn =>
    obtain ⟨values, rfl, -⟩ : ∃ found, values = some found ∧ _ := h
    rfl
  | exist => rfl
  | doesNotExist => rfl

theorem generateSelectors_eq {selectors : List LabelSelector}
    (h : ∀ selector ∈ selectors, selector.PlainValues) :
    generateSelectors selectors labels =
      .ok (labels ++ (selectors.map LabelSelector.requirement).map (·.print)) := by
  induction selectors generalizing labels with
  | nil => simp [generateSelectors, pure, Except.pure]
  | cons selector selectors ih =>
    obtain ⟨hselector, hselectors⟩ := List.forall_mem_cons.mp h
    have hstep : generateSelectors (selector :: selectors) labels =
        (selector.toLabelSelector >>= fun label =>
          generateSelectors selectors (labels ++ [label])) := by
      rw [generateSelectors, List.foldlM_cons, bind_assoc]
      rfl
    rw [hstep, toLabelSelector_eq hselector]
    change generateSelectors selectors (labels ++ [selector.requirement.print]) = _
    rw [ih hselectors, List.append_assoc]
    rfl

theorem createLabelSelection_eq {filter : WorkflowFilter}
    (h : ∀ selector ∈ filter.selectors, selector.PlainValues) :
    filter.createLabelSelection =
      .ok (",".intercalate (filter.requirements.map (·.print))) := by
  have hselectors : ∀ labels, generateOption generateSelectors filter.labels labels =
      .ok (labels ++ (filter.selectors.map LabelSelector.requirement).map (·.print)) := by
    intro labels
    rw [WorkflowFilter.selectors] at h ⊢
    cases hlabels : filter.labels with
    | none => simp [generateOption]
    | some selectors =>
      rw [hlabels] at h
      exact generateSelectors_eq h
  rw [WorkflowFilter.createLabelSelection, generateStatus_eq]
  change (generateOption (generateScalar creatorKey) filter.creator _ >>= _) = _
  rw [generateScalar_eq]
  change (generateOption (generateScalar templateKey) filter.template _ >>= _) = _
  rw [generateScalar_eq]
  change (generateOption generateSelectors filter.labels _ >>= _) = _
  rw [hselectors]
  simp only [WorkflowFilter.requirements, List.map_append, List.nil_append]
  rfl

theorem phaseKey_plain : phaseKey ≠ "" ∧ Plain phaseKey :=
  ⟨by decide +kernel, plain_of_all (by decide +kernel)⟩

theorem creatorKey_plain : creatorKey ≠ "" ∧ Plain creatorKey :=
  ⟨by decide +kernel, plain_of_all (by decide +kernel)⟩

theorem templateKey_plain : templateKey ≠ "" ∧ Plain templateKey :=
  ⟨by decide +kernel, plain_of_all (by decide +kernel)⟩

theorem plain_phases {filter : WorkflowStatusFilter} {phase : String}
    (h : phase ∈ filter.toPhases) : Plain phase := by
  have hphase : phase ∈ ["Pending", "Running", "Succeeded", "Failed", "Error"] := by
    obtain ⟨pending, running, succeeded, failed, error⟩ := filter
    revert phase
    revert pending running succeeded failed error
    decide +kernel
  fin_cases hphase <;> exact plain_of_all (by decide +kernel)

theorem toPhases_ne_nil {filter : WorkflowStatusFilter} (h : filter.isEnabled) :
    filter.toPhases ≠ [] := by
  obtain ⟨pending, running, succeeded, failed, error⟩ := filter
  revert pending running succeeded failed error
  decide +kernel

theorem plain_status {filter : WorkflowStatusFilter} :
    ∀ r ∈ filter.requirements, r.Plain := by
  intro r hr
  rw [WorkflowStatusFilter.requirements] at hr
  split_ifs at hr with henabled
  · rw [List.mem_singleton.mp hr]
    exact
      { key_ne := phaseKey_plain.1
        key := phaseKey_plain.2
        values := fun value hvalue => plain_phases hvalue
        count := toPhases_ne_nil henabled }
  · cases hr

theorem plain_scalar {key : String} (hne : key ≠ "") (hkey : Plain key) {filter : Option String}
    (h : ∀ value ∈ filter, Plain value) : ∀ r ∈ scalarRequirements key filter, r.Plain := by
  intro r hr
  obtain ⟨value, hvalue, rfl⟩ := List.mem_map.mp hr
  exact
    { key_ne := hne
      key := hkey
      values := by
        intro found hfound
        rw [List.mem_singleton.mp hfound]
        exact h value (Option.mem_toList.mp hvalue)
      count := ⟨value, rfl⟩ }

theorem plain_selector {selector : LabelSelector} (hne : selector.key ≠ "")
    (hkey : Plain selector.key) (h : selector.PlainValues) : selector.requirement.Plain := by
  obtain ⟨key, operator, values⟩ := selector
  cases operator with
  | eq =>
    obtain ⟨value, rfl, hvalue⟩ : ∃ value, values = some [value] ∧ Plain value := h
    exact ⟨hne, hkey, by simpa [LabelSelector.requirement] using hvalue, value, rfl⟩
  | ne =>
    obtain ⟨value, rfl, hvalue⟩ : ∃ value, values = some [value] ∧ Plain value := h
    exact ⟨hne, hkey, by simpa [LabelSelector.requirement] using hvalue, value, rfl⟩
  | isIn =>
    obtain ⟨found, rfl, hsome, hvalues⟩ :
      ∃ found, values = some found ∧ found ≠ [] ∧ ∀ value ∈ found, Plain value := h
    exact ⟨hne, hkey, hvalues, hsome⟩
  | notIn =>
    obtain ⟨found, rfl, hsome, hvalues⟩ :
      ∃ found, values = some found ∧ found ≠ [] ∧ ∀ value ∈ found, Plain value := h
    exact ⟨hne, hkey, hvalues, hsome⟩
  | exist => exact ⟨hne, hkey, by simp [LabelSelector.requirement], rfl⟩
  | doesNotExist => exact ⟨hne, hkey, by simp [LabelSelector.requirement], rfl⟩

theorem plain_requirements {filter : WorkflowFilter} (h : filter.IsPlain) :
    ∀ r ∈ filter.requirements, r.Plain := by
  intro r hr
  rw [WorkflowFilter.requirements, List.mem_append, List.mem_append, List.mem_append] at hr
  rcases hr with ((hr | hr) | hr) | hr
  · obtain ⟨status, -, hr⟩ := List.mem_flatMap.mp hr
    exact plain_status r hr
  · exact plain_scalar creatorKey_plain.1 creatorKey_plain.2 h.creator r hr
  · exact plain_scalar templateKey_plain.1 templateKey_plain.2 h.template r hr
  · obtain ⟨selector, hselector, rfl⟩ := List.mem_map.mp hr
    obtain ⟨hne, hkey⟩ := h.keys selector hselector
    exact plain_selector hne hkey (h.values selector hselector)

theorem matches_status (filter : WorkflowStatusFilter) (labels : Labels) :
    (∀ r ∈ filter.requirements, r.Matches labels) ↔ filter.Asks labels := by
  rw [WorkflowStatusFilter.requirements, WorkflowStatusFilter.Asks]
  split_ifs with henabled
  · simp [henabled, Requirement.Matches]
  · simp [henabled]

theorem matches_scalar (key : String) (filter : Option String) (labels : Labels) :
    (∀ r ∈ scalarRequirements key filter, r.Matches labels) ↔
      ∀ value ∈ filter, labels.get key = some value := by
  cases filter with
  | none => simp [scalarRequirements]
  | some value => simp [scalarRequirements, Requirement.Matches]

theorem matches_selector (selector : LabelSelector) (labels : Labels) :
    selector.requirement.Matches labels ↔ selector.Asks labels := by
  obtain ⟨key, operator, values⟩ := selector
  cases operator <;> exact Iff.rfl

theorem matches_requirements (filter : WorkflowFilter) (labels : Labels) :
    (∀ r ∈ filter.requirements, r.Matches labels) ↔ filter.Asks labels := by
  simp only [WorkflowFilter.requirements, List.forall_mem_append, matches_scalar,
    List.forall_mem_map, matches_selector]
  constructor
  · rintro ⟨⟨⟨hstatus, hcreator⟩, htemplate⟩, hselectors⟩
    refine ⟨fun status hsome => ?_, hcreator, htemplate, hselectors⟩
    refine (matches_status status labels).mp fun r hr => hstatus r ?_
    exact List.mem_flatMap.mpr ⟨status, Option.mem_toList.mpr hsome, hr⟩
  · intro h
    refine ⟨⟨⟨fun r hr => ?_, h.creator⟩, h.template⟩, h.selectors⟩
    obtain ⟨status, hsome, hr⟩ := List.mem_flatMap.mp hr
    exact (matches_status status labels).mpr (h.status status (Option.mem_toList.mp hsome)) r hr

end Workflows

/-- Every object fails it, since the label that it asks for would contain a separator. -/
def LabelSelector.Unmet (selector : LabelSelector) : Prop :=
  match selector.operator with
  | .eq | .isIn =>
    selector.key = "" ∨ ¬ Plain selector.key ∨ ∀ value ∈ selector.values.getD [], ¬ Plain value
  | .exist => selector.key = "" ∨ ¬ Plain selector.key
  | .ne | .notIn | .doesNotExist => False

def WorkflowFilter.Unmet (filter : WorkflowFilter) : Prop :=
  (∃ creator ∈ filter.creator, ¬ Plain creator) ∨ (∃ template ∈ filter.template, ¬ Plain template) ∨
    ∃ selector ∈ filter.selectors, selector.Unmet

section Unmet

variable {labels : Labels}

theorem plain_of_get {key value : String} (h : labels.get key = some value) :
    key ≠ "" ∧ Plain key ∧ Plain value := by
  obtain ⟨hkey, hvalue⟩ := labels.valid key value h
  obtain ⟨hne, hplain⟩ := plain_of_isQualifiedName hkey
  exact ⟨hne, hplain, plain_of_isLabelValue hvalue⟩

theorem LabelSelector.Unmet.not_asks {selector : LabelSelector} (h : selector.Unmet) :
    ¬ selector.Asks labels := by
  obtain ⟨key, operator, values⟩ := selector
  have hsome : (key = "" ∨ ¬ Plain key ∨ ∀ value ∈ values.getD [], ¬ Plain value) →
      ¬ ∃ value ∈ values.getD [], labels.get key = some value := by
    rintro h ⟨value, hvalue, hget⟩
    obtain ⟨hne, hkey, hplain⟩ := plain_of_get hget
    rcases h with h | h | h
    · exact hne h
    · exact h hkey
    · exact h value hvalue hplain
  cases operator with
  | eq => exact hsome h
  | isIn => exact hsome h
  | exist =>
    intro hexists
    obtain ⟨value, hget⟩ := Option.ne_none_iff_exists'.mp hexists
    obtain ⟨hne, hkey, -⟩ := plain_of_get hget
    exact h.elim hne (· hkey)
  | ne => exact h.elim
  | notIn => exact h.elim
  | doesNotExist => exact h.elim

theorem WorkflowFilter.Unmet.not_asks {filter : WorkflowFilter} (h : filter.Unmet) :
    ¬ filter.Asks labels := by
  intro hasks
  rcases h with ⟨creator, hcreator, hplain⟩ | ⟨template, htemplate, hplain⟩ |
    ⟨selector, hselector, hunmet⟩
  · exact hplain (plain_of_get (hasks.creator creator hcreator)).2.2
  · exact hplain (plain_of_get (hasks.template template htemplate)).2.2
  · exact hunmet.not_asks (hasks.selectors selector hselector)

end Unmet

theorem means_templates {order : HashOrder ScienceGroup} {filter : WorkflowTemplatesFilter}
    {label : String} (h : filter.createLabelSelection order = .ok label) :
    Means label filter.Asks := by
  cases (createLabelSelection_templates order filter).symm.trans h
  refine means_print (fun r hr => ?_) (matches_groupRequirements order filter)
  obtain ⟨none | groups⟩ := filter
  · cases hr
  · obtain ⟨group, -, rfl⟩ := List.mem_map.mp hr
    exact plain_groupRequirement group

theorem means_of_isPlain {filter : WorkflowFilter} {label : String} (hplain : filter.IsPlain)
    (h : filter.createLabelSelection = .ok label) : Means label filter.Asks := by
  cases (createLabelSelection_eq hplain.values).symm.trans h
  exact means_print (plain_requirements hplain) (matches_requirements filter)

theorem means_iff_of_unmet {filter : WorkflowFilter} {label : String} (hunmet : filter.Unmet) :
    Means label filter.Asks ↔
      ∀ rs, parse label = some rs → ∀ labels, ¬ ∀ r ∈ rs, r.Matches labels := by
  constructor
  · intro hmeans rs hrs labels hmatches
    exact hunmet.not_asks ((hmeans rs hrs labels).mp hmatches)
  · intro hnone rs hrs labels
    exact iff_of_false (hnone rs hrs labels) hunmet.not_asks

/-- The selector of a template filter means it, and that of a workflow filter where the filter is
plain. A filter that asks for a label with a separator is only met where the selector is refused or
selects nothing. -/
theorem means_createLabelSelection (order : HashOrder ScienceGroup)
    (templates : WorkflowTemplatesFilter) (workflows : WorkflowFilter) (label : String) :
    (templates.createLabelSelection order = .ok label → Means label templates.Asks) ∧
      (workflows.createLabelSelection = .ok label →
        (workflows.IsPlain → Means label workflows.Asks) ∧
        (workflows.Unmet → (Means label workflows.Asks ↔
          ∀ rs, parse label = some rs → ∀ labels, ¬ ∀ r ∈ rs, r.Matches labels))) :=
  ⟨means_templates, fun h => ⟨fun hplain => means_of_isPlain hplain h, means_iff_of_unmet⟩⟩

-- a separator that is spliced in does no harm where another selector makes up for it
example : Means "k=a,k!=b,k!=c"
    (WorkflowFilter.mk none none none
      (some [⟨"k", .eq, some ["a"]⟩, ⟨"k", .ne, some ["b,k!=c"]⟩])).Asks := by
  have hparse : parse "k=a,k!=b,k!=c" =
      some [⟨"k", .eq, ["a"]⟩, ⟨"k", .ne, ["b"]⟩, ⟨"k", .ne, ["c"]⟩] := by decide +kernel
  intro rs hrs labels
  cases hparse.symm.trans hrs
  constructor
  · intro h
    have hget : labels.get "k" = some "a" := by
      simpa [Requirement.Matches] using h _ List.mem_cons_self
    exact ⟨by simp, by simp, by simp,
      by simp [WorkflowFilter.selectors, LabelSelector.Asks, hget]⟩
  · intro h
    have hget : labels.get "k" = some "a" := by
      simpa [LabelSelector.Asks] using h.selectors _ List.mem_cons_self
    simp [Requirement.Matches, hget]

def plainFilter : WorkflowFilter where
  workflowStatusFilter := some { running := true }
  creator := some "test"
  template := none
  labels := some [⟨"beamline", .eq, some ["i14"]⟩]

/-- A value with a comma. -/
def splicedFilter : WorkflowFilter where
  workflowStatusFilter := none
  creator := none
  template := none
  labels := some [⟨"beamline", .eq, some ["i14,owner"]⟩]

theorem means_createLabelSelection_example :
    Means "workflows.diamond.ac.uk/science-group-mx=true"
        (WorkflowTemplatesFilter.mk (some [.mx, .mx])).Asks ∧
      Means ("workflows.argoproj.io/phase in (Running)," ++
        "workflows.argoproj.io/creator-preferred-username=test,beamline=i14") plainFilter.Asks ∧
      (Means "beamline=i14,owner" splicedFilter.Asks ↔
        ∀ rs, parse "beamline=i14,owner" = some rs →
          ∀ labels, ¬ ∀ r ∈ rs, r.Matches labels) := by
  refine ⟨(means_createLabelSelection .declared _ plainFilter _).1 (by decide +kernel),
    ((means_createLabelSelection .declared ⟨none⟩ plainFilter _).2 (by decide +kernel)).1 ?_,
    ((means_createLabelSelection .declared ⟨none⟩ splicedFilter _).2 (by decide +kernel)).2 ?_⟩
  · refine ⟨?_, ?_, ?_, ?_⟩
    · rintro creator ⟨⟩
      exact plain_of_all (by decide +kernel)
    · rintro template ⟨⟩
    · intro selector hselector
      rw [List.mem_singleton.mp hselector]
      exact ⟨by decide, plain_of_all (by decide +kernel)⟩
    · intro selector hselector
      rw [List.mem_singleton.mp hselector]
      exact ⟨"i14", rfl, plain_of_all (by decide +kernel)⟩
  · refine .inr (.inr ⟨_, List.mem_singleton_self _, .inr (.inr ?_)⟩)
    intro value hvalue hplain
    rw [List.mem_singleton.mp hvalue] at hplain
    have hcomma := hplain ',' (by decide +kernel)
    revert hcomma
    decide

def exampleLabels : Labels where
  get key := if key = "beamline" then some "i14" else if key = "owner" then some "test" else none
  valid := by
    intro key value h
    split_ifs at h with hbeamline howner
    · cases h
      subst hbeamline
      decide +kernel
    · cases h
      subst howner
      decide +kernel

theorem not_means :
    splicedFilter.createLabelSelection = .ok "beamline=i14,owner" ∧
      ¬ Means "beamline=i14,owner" splicedFilter.Asks := by
  refine ⟨by decide +kernel, fun h => ?_⟩
  have hparse : parse "beamline=i14,owner" =
      some [⟨"beamline", .eq, ["i14"]⟩, ⟨"owner", .exist, []⟩] := by decide +kernel
  have hasks := (h _ hparse exampleLabels).mp
    (by simp [Requirement.Matches, exampleLabels])
  obtain ⟨value, hvalue, hget⟩ := hasks.selectors _ (List.mem_singleton_self _)
  rw [List.mem_singleton.mp hvalue] at hget
  revert hget
  decide +kernel

end Workflows.GraphProxy
