import Workflows.Events.Wiring

/-!
# Whether the two hooks agree on the kind of an event source

`customize` reads the kind from the keys of the event source's `spec` and looks for Triggers under
`message-bus`; `sync` reads it from the Trigger's label and looks for `generic`. No related Trigger
carries that label, so none gets a filter on the type of the message.
-/

namespace Workflows.Events

section Related

variable {parent : EventSource} {objects : List Trigger} {t : Trigger}

/-- The Trigger carries the beamline of the event source and one of its kinds. -/
structure BelongsTo (parent : EventSource) (t : Trigger) : Prop where
  source : ∃ key ∈ parent.specKeys, t.metadata.labels[sourceLabel]? = some (sourceType key)
  beamline : ∃ beamline ≠ "", parent.labels[beamlineLabel]? = some beamline ∧
    t.metadata.labels[beamlineLabel]? = some beamline

theorem mem_customize_iff {rule : ResourceRule} :
    rule ∈ customize parent ↔
      ∃ beamline ≠ "", parent.labels[beamlineLabel]? = some beamline ∧ parent.specKeys ≠ [] ∧
        rule = ⟨"workflows.diamond.ac.uk/v1alpha1", "triggers", parent.specKeys.map sourceType,
          beamline⟩ := by
  unfold customize
  cases h : truthy parent.labels[beamlineLabel]? with
  | none =>
    rw [truthy, Option.filter_eq_none_iff] at h
    refine ⟨(nomatch ·), ?_⟩
    rintro ⟨beamline, hne, hlabel, -, -⟩
    exact absurd (by simpa using hne) (h beamline hlabel)
  | some b =>
    obtain ⟨hlabel, hb⟩ := Option.filter_eq_some_iff.mp h
    by_cases hkeys : parent.specKeys = []
    · simp [hkeys]
    · simp only [hkeys, if_false, List.mem_singleton, hlabel, Option.some_inj]
      constructor
      · rintro rfl
        exact ⟨b, by simpa using hb, rfl, hkeys, rfl⟩
      · rintro ⟨_, -, rfl, -, rfl⟩
        rfl

theorem mem_related_iff : t ∈ related parent objects ↔ t ∈ objects ∧ BelongsTo parent t := by
  have hselects : ∀ rule : ResourceRule, rule.selects t = true ↔
      (∃ v ∈ rule.sourceValues, t.metadata.labels[sourceLabel]? = some v) ∧
        t.metadata.labels[beamlineLabel]? = some rule.beamline := by
    intro rule
    cases h : t.metadata.labels[sourceLabel]? <;> simp [ResourceRule.selects, h]
  rw [related, List.mem_filter, List.any_eq_true]
  refine and_congr_right fun _ => ?_
  constructor
  · rintro ⟨rule, hrule, hsel⟩
    obtain ⟨beamline, hne, hlabel, -, rfl⟩ := mem_customize_iff.mp hrule
    obtain ⟨⟨v, hv, hsource⟩, hbeamline⟩ := (hselects _).mp hsel
    obtain ⟨key, hkey, rfl⟩ := List.mem_map.mp hv
    exact ⟨⟨key, hkey, hsource⟩, beamline, hne, hlabel, hbeamline⟩
  · rintro ⟨⟨key, hkey, hsource⟩, beamline, hne, hlabel, hbeamline⟩
    refine ⟨_, mem_customize_iff.mpr ⟨beamline, hne, hlabel, List.ne_nil_of_mem hkey, rfl⟩, ?_⟩
    exact (hselects _).mpr ⟨⟨_, List.mem_map_of_mem hkey, hsource⟩, hbeamline⟩

theorem sourceType_ne_generic (key : String) : sourceType key ≠ "generic" := by
  unfold sourceType
  split
  next => decide
  next hne => exact hne

theorem messageFilters_of_mem_related (h : t ∈ related parent objects) : messageFilters t = [] := by
  obtain ⟨-, ⟨key, -, hlabel⟩, -⟩ := mem_related_iff.mp h
  unfold messageFilters
  split
  next =>
    apply if_neg
    rw [hlabel, Option.some_inj]
    exact sourceType_ne_generic key
  next => rfl

end Related

section Agreement

variable (parent : EventSource) (t : Trigger)

/-- The filters that the Trigger's spec asks for on this kind of event source. -/
def askedFilters : List DataFilter :=
  (match t.spec.workflow.triggerOnMessageType with
    | some messageType => if "generic" ∈ parent.specKeys then [messageFilter messageType] else []
    | none => []) ++ namespaceFilters t

/-- Each enabled Trigger of the list has in the Sensor, at its place, the filters it asks for. -/
def HasAskedFilters (triggers : List Trigger) (s : Sensor) : Prop :=
  ∀ (i : Nat) t, (enabledTriggers triggers)[i]? = some t →
    ∃ d, s.dependencies[i]? = some d ∧ d.name = t.metadata.name ∧
      d.filters.getD [] = askedFilters parent t

theorem hasAskedFilters_sensorOf_iff (triggers : List Trigger) :
    HasAskedFilters parent triggers (sensorOf parent triggers) ↔
      ∀ t ∈ enabledTriggers triggers, dataFilters t = askedFilters parent t := by
  constructor
  · intro h t ht
    obtain ⟨i, hi⟩ := List.mem_iff_getElem?.mp ht
    obtain ⟨d, hd, -, hfilters⟩ := h i t hi
    obtain rfl := Option.some_inj.mp ((getElem?_dependencies parent hi).symm.trans hd)
    rw [← hfilters, dependency_filters_getD]
  · intro h i t hi
    refine ⟨dependency parent.name t, getElem?_dependencies parent hi, rfl, ?_⟩
    rw [dependency_filters_getD]
    exact h t (List.mem_of_getElem? hi)

theorem namespaceFilters_eq_askedFilters_iff :
    namespaceFilters t = askedFilters parent t ↔
      "generic" ∉ parent.specKeys ∨ t.spec.workflow.triggerOnMessageType = none := by
  unfold askedFilters
  cases t.spec.workflow.triggerOnMessageType with
  | none => simp
  | some messageType =>
    by_cases hgeneric : "generic" ∈ parent.specKeys <;> simp [hgeneric]

/-- The hooks agree exactly when the event source is not generic, or no enabled Trigger related to
it asks for a type of message. -/
theorem sync_customize_agree_iff (objects : List Trigger) :
    (∃ s, (sync parent ((related parent objects).map .ok)).children = [s] ∧
      HasAskedFilters parent (related parent objects) s) ↔
      ("generic" ∉ parent.specKeys ∨ ∀ t ∈ objects, BelongsTo parent t → t.spec.enabled →
        t.spec.workflow.triggerOnMessageType = none) := by
  simp only [sync_ok, List.cons.injEq, and_true, exists_eq_left']
  rw [hasAskedFilters_sensorOf_iff]
  have hfilters : ∀ t ∈ enabledTriggers (related parent objects),
      (dataFilters t = askedFilters parent t ↔
        "generic" ∉ parent.specKeys ∨ t.spec.workflow.triggerOnMessageType = none) := by
    intro t ht
    rw [dataFilters, messageFilters_of_mem_related (List.mem_of_mem_filter ht), List.nil_append,
      namespaceFilters_eq_askedFilters_iff]
  have hmem : ∀ t, t ∈ enabledTriggers (related parent objects) ↔
      t ∈ objects ∧ BelongsTo parent t ∧ t.spec.enabled := by
    intro t
    rw [enabledTriggers, List.mem_filter, mem_related_iff, and_assoc]
  rw [forall₂_congr hfilters]
  constructor
  · intro h
    by_cases hgeneric : "generic" ∈ parent.specKeys
    · refine .inr fun t ht hbelongs henabled => ?_
      exact (h t ((hmem t).mpr ⟨ht, hbelongs, henabled⟩)).resolve_left (not_not_intro hgeneric)
    · exact .inl hgeneric
  · rintro (hgeneric | h) t ht
    · exact .inl hgeneric
    · obtain ⟨hobject, hbelongs, henabled⟩ := (hmem t).mp ht
      exact .inr (h t hobject hbelongs henabled)

/-- A Trigger on stop messages, as in the templates of the chart, gets no filter on them. -/
theorem sync_customize_not_agree :
    ¬∀ (parent : EventSource) (objects : List Trigger),
      ∃ s, (sync parent ((related parent objects).map .ok)).children = [s] ∧
        HasAskedFilters parent (related parent objects) s := by
  intro h
  obtain ⟨s, hs, hfilters⟩ := h exampleSource [exampleTrigger "cm37235-1" "ptypy"]
  rw [sync_ok] at hs
  obtain ⟨rfl, -⟩ := List.cons.inj hs
  obtain ⟨d, hd, -, hasked⟩ := hfilters 0 (exampleTrigger "cm37235-1" "ptypy") rfl
  obtain rfl : dependency exampleSource.name (exampleTrigger "cm37235-1" "ptypy") = d :=
    Option.some_inj.mp hd
  exact absurd hasked (by decide)

end Agreement

end Workflows.Events
