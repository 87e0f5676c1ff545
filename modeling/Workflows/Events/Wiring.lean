import Workflows.Events.Sync

/-!
# The wiring of a Sensor

Dependencies, conditions and parameter sources meet only through names. A Sensor is wired one to
one when every reference made for a Trigger reaches the dependency of that Trigger and no other.
Where a related object fails validation there is no Sensor for the others either.
-/

namespace Workflows.Events

/-- Of the dependencies only the `i`-th answers to the name. -/
def RefersOnlyTo (name : String) (dependencies : List Dependency) (i : Nat) : Prop :=
  ∀ (j : Nat) (d : Dependency), dependencies[j]? = some d → (name = d.name ↔ j = i)

/-- What the `i`-th enabled Trigger has in the Sensor. -/
structure WiredAt (s : Sensor) (i : Nat) (t : Trigger) : Prop where
  dependency : ∃ d, s.dependencies[i]? = some d ∧ d.name = t.metadata.name ∧
    d.eventName = t.spec.eventName
  trigger : ∃ st, s.triggers[i]? = some st ∧ st.name = t.metadata.name ∧
    RefersOnlyTo st.conditions s.dependencies i ∧
    ∀ p ∈ st.argoWorkflow.parameters, RefersOnlyTo p.src.dependencyName s.dependencies i

structure OneToOne (enabled : List Trigger) (s : Sensor) : Prop where
  dependencies_nodup : (s.dependencies.map (·.name)).Nodup
  triggers_nodup : (s.triggers.map (·.name)).Nodup
  dependencies_length : s.dependencies.length = enabled.length
  triggers_length : s.triggers.length = enabled.length
  wired : ∀ i t, enabled[i]? = some t → WiredAt s i t

def triggerNames (triggers : List Trigger) : List String :=
  (enabledTriggers triggers).map (·.metadata.name)

section Names

variable (parent : EventSource) (triggers : List Trigger)

theorem dependency_names :
    (sensorOf parent triggers).dependencies.map (·.name) = triggerNames triggers := by
  rw [sensorOf_dependencies, List.map_map]
  rfl

theorem trigger_names :
    (sensorOf parent triggers).triggers.map (·.name) = triggerNames triggers := by
  rw [sensorOf_triggers, List.map_map]
  rfl

end Names

theorem sensorParams_dependencyName {t : Trigger} {p : SensorParameter} (hp : p ∈ sensorParams t) :
    p.src.dependencyName = t.metadata.name := by
  rcases List.mem_cons.mp hp with rfl | hp
  · rfl
  · obtain ⟨userParam, -, rfl⟩ := List.mem_map.mp hp
    rfl

theorem refersOnlyTo_of_nodup (parent : EventSource) {triggers : List Trigger} {i : Nat}
    {t : Trigger} (hnames : (triggerNames triggers).Nodup)
    (ht : (enabledTriggers triggers)[i]? = some t) :
    RefersOnlyTo t.metadata.name (sensorOf parent triggers).dependencies i := by
  intro j d hd
  rw [sensorOf_dependencies, List.getElem?_map] at hd
  obtain ⟨u, hu, rfl⟩ := Option.map_eq_some_iff.mp hd
  have hname : ∀ (k : Nat) v, (enabledTriggers triggers)[k]? = some v →
      (triggerNames triggers)[k]? = some v.metadata.name := by
    intro k v hv
    rw [triggerNames, List.getElem?_map, hv, Option.map_some]
  constructor
  · intro heq
    have hlt : j < (triggerNames triggers).length := by
      obtain ⟨h, -⟩ := List.getElem?_eq_some_iff.mp (hname j u hu)
      exact h
    apply (List.getElem?_inj hlt hnames).mp
    rw [hname j u hu, hname i t ht, heq]
    rfl
  · rintro rfl
    obtain rfl : t = u := Option.some_inj.mp (ht.symm.trans hu)
    rfl

theorem wiredAt_of_nodup {parent : EventSource} {triggers : List Trigger} {i : Nat} {t : Trigger}
    (hnames : (triggerNames triggers).Nodup) (ht : (enabledTriggers triggers)[i]? = some t) :
    WiredAt (sensorOf parent triggers) i t := by
  have hrefers := refersOnlyTo_of_nodup parent hnames ht
  constructor
  · exact ⟨dependency parent.name t, getElem?_dependencies parent ht, rfl, rfl⟩
  · refine ⟨sensorTrigger t, getElem?_triggers parent ht, rfl, hrefers, ?_⟩
    intro p hp
    rw [sensorParams_dependencyName hp]
    exact hrefers

/-- The Sensor is wired one to one exactly when no two enabled Triggers share a name. -/
theorem sync_oneToOne_iff (parent : EventSource) (triggers : List Trigger) :
    (∃ s, (sync parent (triggers.map .ok)).children = [s] ∧
      OneToOne (enabledTriggers triggers) s) ↔ (triggerNames triggers).Nodup := by
  simp only [sync_ok, List.cons.injEq, and_true, exists_eq_left']
  constructor
  · intro h
    rw [← dependency_names parent]
    exact h.dependencies_nodup
  · intro hnames
    refine ⟨?_, ?_, ?_, ?_, fun i t ht => wiredAt_of_nodup hnames ht⟩
    · rwa [dependency_names]
    · rwa [trigger_names]
    · rw [sensorOf_dependencies, List.length_map]
    · rw [sensorOf_triggers, List.length_map]

/-- The Sensor has a dependency and a trigger for this Trigger. -/
structure Serves (parent : EventSource) (s : Sensor) (t : Trigger) : Prop where
  dependency : dependency parent.name t ∈ s.dependencies
  trigger : sensorTrigger t ∈ s.triggers

theorem serves_sensorOf (parent : EventSource) {triggers : List Trigger} {t : Trigger}
    (ht : t ∈ triggers) (henabled : t.spec.enabled = true) :
    Serves parent (sensorOf parent triggers) t := by
  have hmem : t ∈ enabledTriggers triggers := List.mem_filter.mpr ⟨ht, henabled⟩
  constructor
  · rw [sensorOf_dependencies]
    exact List.mem_map_of_mem hmem
  · rw [sensorOf_triggers]
    exact List.mem_map_of_mem hmem

/-- Some child serves every enabled object that validates. -/
def ServesAll (parent : EventSource) (objects : List (Except ValidationError Trigger)) : Prop :=
  ∃ s ∈ (sync parent objects).children,
    ∀ t, .ok t ∈ objects → t.spec.enabled = true → Serves parent s t

theorem exists_map_ok {objects : List (Except ValidationError Trigger)}
    (h : ¬∃ e, .error e ∈ objects) : ∃ triggers : List Trigger, objects = triggers.map .ok := by
  induction objects with
  | nil => exact ⟨[], rfl⟩
  | cons object objects ih =>
    cases object with
    | error e => exact absurd ⟨e, List.mem_cons_self⟩ h
    | ok t =>
      obtain ⟨triggers, rfl⟩ := ih fun ⟨e, he⟩ => h ⟨e, List.mem_cons_of_mem _ he⟩
      exact ⟨t :: triggers, rfl⟩

/-- All enabled Triggers are served, unless one object fails validation: then the answer is an error
without children. -/
theorem sync_error_or_servesAll (parent : EventSource)
    (objects : List (Except ValidationError Trigger)) :
    (∃ e, .error e ∈ objects) ∧ sync parent objects = { status := .error 500, children := [] } ∨
      (¬∃ e, .error e ∈ objects) ∧ ServesAll parent objects := by
  by_cases herror : ∃ e, .error e ∈ objects
  · obtain ⟨e, he⟩ := herror
    exact .inl ⟨⟨e, he⟩, sync_of_error_mem he⟩
  · apply Or.inr
    refine ⟨herror, ?_⟩
    obtain ⟨triggers, rfl⟩ := exists_map_ok herror
    rw [ServesAll, sync_ok]
    refine ⟨_, List.mem_singleton_self _, fun t ht henabled => ?_⟩
    obtain ⟨u, hu, heq⟩ := List.mem_map.mp ht
    obtain rfl : u = t := by simpa using heq
    exact serves_sensorOf parent hu henabled

section Example

def exampleLabels : Labels :=
  Std.TreeMap.ofList [(sourceLabel, "message-bus"), (beamlineLabel, "i15-1")]

def exampleTrigger (nameSpace template : String) : Trigger where
  metadata := { name := "on-stop", nameSpace, labels := exampleLabels }
  spec :=
    { enabled := true
      eventName := "i15-1-message"
      workflow :=
        { template
          triggerOnMessageType := some .stop
          parameters := [{ name := "visitdir", path := some "doc.data_session_directory" }] } }

def exampleSource : EventSource where
  name := some "i15-1"
  labels := Std.TreeMap.ofList [(beamlineLabel, "i15-1")]
  specKeys := ["generic"]

/-- Two sessions each with a Trigger of the same name: the objects are distinct and both belong to
the event source, but they meet in the Sensor. -/
theorem sync_not_oneToOne :
    ¬∀ (parent : EventSource) (objects : List Trigger),
      (objects.map fun t => (t.metadata.nameSpace, t.metadata.name)).Nodup →
      ∃ s, (sync parent ((related parent objects).map .ok)).children = [s] ∧
        OneToOne (enabledTriggers (related parent objects)) s := by
  intro h
  obtain ⟨s, hs, hone⟩ := h exampleSource
    [exampleTrigger "cm37235-1" "ptypy", exampleTrigger "cm40000-2" "numpy"] (by decide)
  rw [sync_ok] at hs
  obtain ⟨rfl, -⟩ := List.cons.inj hs
  exact absurd hone.dependencies_nodup (by decide)

/-- Beside an object that does not validate, the Trigger is not served. -/
theorem sync_not_servesAll :
    ¬∀ (parent : EventSource) (objects : List (Except ValidationError Trigger)),
      ServesAll parent objects := by
  intro h
  obtain ⟨s, hs, -⟩ := h exampleSource [.ok (exampleTrigger "cm37235-1" "ptypy"), .error ⟨⟩]
  rw [sync_of_error_mem (List.mem_cons_of_mem _ (List.mem_singleton_self _))] at hs
  cases hs

end Example

end Workflows.Events
