import Workflows.Events.Wiring

/-!
# Which events a session's Trigger fires for

A data filter of type string searches the event's value for each listed value as a regular
expression, and the namespace of the submitted Workflow is read from the event. A search for a
namespace's name also finds the longer names that contain it.
-/

namespace Workflows.Events

/-- An event as a sensor sees it: where it comes from, and the text at each path of its payload. -/
structure Event where
  eventSourceName : String
  eventName : String
  value : String → Option String

section Sensor

-- `search pattern text`: the regular expression is found in the text.
variable (search : String → String → Bool)

def DataFilter.accepts (f : DataFilter) (e : Event) : Prop :=
  f.type = "string" ∧ ∃ text, e.value f.path = some text ∧ ∃ pattern ∈ f.value, search pattern text

def Dependency.accepts (d : Dependency) (e : Event) : Prop :=
  d.eventSourceName = some e.eventSourceName ∧ d.eventName = e.eventName ∧
    ∀ f ∈ d.filters.getD [], f.accepts search e

def Submits (s : Sensor) (st : SensorTrigger) (e : Event) (nameSpace : String) : Prop :=
  ∃ d ∈ s.dependencies, d.name = st.conditions ∧ d.accepts search e ∧
    ∃ p ∈ st.argoWorkflow.parameters, p.dest = namespaceDest ∧ p.src.dependencyName = d.name ∧
      p.src.dataKey.bind e.value = some nameSpace

end Sensor

section Labels

def labelChar (c : Char) : Bool :=
  ('a' ≤ c && c ≤ 'z') || ('0' ≤ c && c ≤ '9') || c = '-'

def isDnsLabel (name : String) : Bool :=
  name.toList.all labelChar && name.toList.length ≤ 63 && name.toList ≠ [] &&
    name.toList.head? ≠ some '-' && name.toList.getLast? ≠ some '-'

theorem labelChar_of_isDnsLabel {name : String} (h : isDnsLabel name) :
    name.toList.all labelChar := by
  simp only [isDnsLabel, Bool.and_eq_true] at h
  exact h.1.1.1.1

/-- A regular expression without special characters is searched for as it stands. -/
def SearchesLiterally (search : String → String → Bool) : Prop :=
  ∀ pattern text : String, pattern.toList.all labelChar →
    (search pattern text = true ↔ pattern.toList <:+: text.toList)

end Labels

section Accepts

variable {search : String → String → Bool}

theorem messageFilter_accepts_iff (hsearch : SearchesLiterally search) (messageType : MessageType)
    (e : Event) :
    (messageFilter messageType).accepts search e ↔
      ∃ name, e.value "body.name" = some name ∧ messageType.text.toList <:+: name.toList := by
  have hchars : messageType.text.toList.all labelChar := by
    cases messageType <;> decide
  simp [DataFilter.accepts, messageFilter, hsearch _ _ hchars]

theorem namespaceFilter_accepts_iff (hsearch : SearchesLiterally search) {nameSpace : String}
    (hlabel : isDnsLabel nameSpace) (e : Event) :
    (namespaceFilter nameSpace).accepts search e ↔
      ∃ session, e.value instrumentSessionKey = some session ∧
        nameSpace.toList <:+: session.toList := by
  simp [DataFilter.accepts, namespaceFilter, hsearch _ _ (labelChar_of_isDnsLabel hlabel)]

/-- The event comes under the name that the Trigger listens to and has its type of message. -/
structure Addressed (parent : EventSource) (t : Trigger) (e : Event) : Prop where
  source : parent.name = some e.eventSourceName
  event : t.spec.eventName = e.eventName
  message : ∀ messageType, t.spec.workflow.triggerOnMessageType = some messageType →
    t.metadata.labels[sourceLabel]? = some "generic" →
    ∃ name, e.value "body.name" = some name ∧ messageType.text.toList <:+: name.toList

theorem messageFilters_accept_iff (hsearch : SearchesLiterally search) (t : Trigger) (e : Event) :
    (∀ f ∈ messageFilters t, f.accepts search e) ↔
      ∀ messageType, t.spec.workflow.triggerOnMessageType = some messageType →
        t.metadata.labels[sourceLabel]? = some "generic" →
        ∃ name, e.value "body.name" = some name ∧ messageType.text.toList <:+: name.toList := by
  unfold messageFilters
  cases t.spec.workflow.triggerOnMessageType with
  | none => simp
  | some messageType =>
    split
    next hgeneric => simp [hgeneric, messageFilter_accepts_iff hsearch]
    next hgeneric => simp [hgeneric]

theorem dependency_accepts_iff (hsearch : SearchesLiterally search) (parent : EventSource)
    {t : Trigger} (hlabel : isDnsLabel t.metadata.nameSpace)
    (hevents : t.metadata.nameSpace ≠ "events") (e : Event) :
    (dependency parent.name t).accepts search e ↔
      Addressed parent t e ∧ ∃ session, e.value instrumentSessionKey = some session ∧
        t.metadata.nameSpace.toList <:+: session.toList := by
  have hnamespace : namespaceFilters t = [namespaceFilter t.metadata.nameSpace] := if_pos hevents
  rw [Dependency.accepts, dependency_filters_getD, dataFilters, List.forall_mem_append,
    messageFilters_accept_iff hsearch, hnamespace, List.forall_mem_singleton,
    namespaceFilter_accepts_iff hsearch hlabel]
  constructor
  · rintro ⟨hsource, hevent, hmessage, hsession⟩
    exact ⟨⟨hsource, hevent, hmessage⟩, hsession⟩
  · rintro ⟨⟨hsource, hevent, hmessage⟩, hsession⟩
    exact ⟨hsource, hevent, hmessage, hsession⟩

end Accepts

section Submits

variable {search : String → String → Bool}

theorem head?_append_of_head? {a b : String} {c : Char} (h : a.toList.head? = some c) :
    (a ++ b).toList.head? = some c := by
  rw [String.toList_append, List.head?_append, h, Option.some_or]

theorem userParamDest_ne_namespaceDest (param_name : String) :
    userParamDest param_name ≠ namespaceDest := by
  intro h
  have hhead : (userParamDest param_name).toList.head? = some 's' :=
    head?_append_of_head? (head?_append_of_head? (by decide))
  rw [h] at hhead
  exact absurd hhead (by decide)
theorem sensorParams_namespaceDest_iff {t : Trigger} {p : SensorParameter} :
    p ∈ sensorParams t ∧ p.dest = namespaceDest ↔ p = namespaceParam t.metadata.name := by
  constructor
  · rintro ⟨hp, hdest⟩
    rcases List.mem_cons.mp hp with heq | hp
    · exact heq
    · obtain ⟨userParam, -, rfl⟩ := List.mem_map.mp hp
      exact absurd hdest (userParamDest_ne_namespaceDest _)
  · rintro rfl
    exact ⟨List.mem_cons_self, rfl⟩

variable {triggers : List Trigger} {t : Trigger}

/-- Where names are distinct, the entry made for an enabled Trigger is the one under its name. -/
theorem mem_map_name_iff {β : Type} {f : Trigger → β} {name : β → String}
    (hname : ∀ u, name (f u) = u.metadata.name) (hnames : (triggerNames triggers).Nodup)
    (ht : t ∈ enabledTriggers triggers) {b : β} :
    b ∈ (enabledTriggers triggers).map f ∧ name b = t.metadata.name ↔ b = f t := by
  constructor
  · rintro ⟨hb, heq⟩
    obtain ⟨u, hu, rfl⟩ := List.mem_map.mp hb
    rw [hname] at heq
    rw [List.inj_on_of_nodup_map hnames hu ht heq]
  · rintro rfl
    exact ⟨List.mem_map_of_mem ht, hname t⟩

theorem mem_dependencies_iff (parent : EventSource) (hnames : (triggerNames triggers).Nodup)
    (ht : t ∈ enabledTriggers triggers) {d : Dependency} :
    d ∈ (sensorOf parent triggers).dependencies ∧ d.name = t.metadata.name ↔
      d = dependency parent.name t := by
  have hname : ∀ u, (dependency parent.name u).name = u.metadata.name := fun _ => rfl
  exact mem_map_name_iff hname hnames ht

theorem mem_triggers_iff (parent : EventSource) (hnames : (triggerNames triggers).Nodup)
    (ht : t ∈ enabledTriggers triggers) {st : SensorTrigger} :
    st ∈ (sensorOf parent triggers).triggers ∧ st.name = t.metadata.name ↔
      st = sensorTrigger t := by
  have hname : ∀ u, (sensorTrigger u).name = u.metadata.name := fun _ => rfl
  exact mem_map_name_iff hname hnames ht

theorem submits_iff (parent : EventSource) (hnames : (triggerNames triggers).Nodup)
    (ht : t ∈ enabledTriggers triggers) {e : Event} {nameSpace : String} :
    Submits search (sensorOf parent triggers) (sensorTrigger t) e nameSpace ↔
      (dependency parent.name t).accepts search e ∧
        e.value instrumentSessionKey = some nameSpace := by
  constructor
  · rintro ⟨d, hd, hname, haccepts, p, hp, hdest, -, hvalue⟩
    obtain rfl := (mem_dependencies_iff parent hnames ht).mp ⟨hd, hname⟩
    obtain rfl := sensorParams_namespaceDest_iff.mp ⟨hp, hdest⟩
    exact ⟨haccepts, hvalue⟩
  · rintro ⟨haccepts, hvalue⟩
    exact ⟨dependency parent.name t, List.mem_map_of_mem ht, rfl, haccepts,
      namespaceParam t.metadata.name, List.mem_cons_self, rfl, rfl, hvalue⟩

end Submits

section OwnSession

variable {search : String → String → Bool} {triggers : List Trigger} {t : Trigger}

/-- The Trigger fires for the event only for its own session. -/
structure OwnSession (search : String → String → Bool) (s : Sensor) (t : Trigger) (e : Event) :
    Prop where
  accepts : ∀ d ∈ s.dependencies, d.name = t.metadata.name → d.accepts search e →
    e.value instrumentSessionKey = some t.metadata.nameSpace
  submits : ∀ st ∈ s.triggers, st.name = t.metadata.name → ∀ nameSpace,
    Submits search s st e nameSpace → nameSpace = t.metadata.nameSpace

theorem ownSession_sensorOf_iff (parent : EventSource) (hnames : (triggerNames triggers).Nodup)
    (ht : t ∈ enabledTriggers triggers) (e : Event) :
    OwnSession search (sensorOf parent triggers) t e ↔
      ((dependency parent.name t).accepts search e →
        e.value instrumentSessionKey = some t.metadata.nameSpace) := by
  constructor
  · intro h
    exact h.accepts _ (List.mem_map_of_mem ht) rfl
  · intro h
    constructor
    · intro d hd hname
      rw [(mem_dependencies_iff parent hnames ht).mp ⟨hd, hname⟩]
      exact h
    · intro st hst hname nameSpace hsubmits
      rw [(mem_triggers_iff parent hnames ht).mp ⟨hst, hname⟩, submits_iff parent hnames ht]
        at hsubmits
      obtain ⟨haccepts, hvalue⟩ := hsubmits
      exact Option.some_inj.mp (hvalue.symm.trans (h haccepts))

/-- A Trigger keeps to its session exactly on the events that are not addressed to it under a
session name that contains the name of its namespace and is another. -/
theorem sync_ownSession_iff (hsearch : SearchesLiterally search) (parent : EventSource)
    (hnames : (triggerNames triggers).Nodup) (ht : t ∈ enabledTriggers triggers)
    (hlabel : isDnsLabel t.metadata.nameSpace) (hevents : t.metadata.nameSpace ≠ "events")
    (e : Event) :
    (∃ s, (sync parent (triggers.map .ok)).children = [s] ∧ OwnSession search s t e) ↔
      ¬∃ session, Addressed parent t e ∧ e.value instrumentSessionKey = some session ∧
        t.metadata.nameSpace.toList <:+: session.toList ∧ session ≠ t.metadata.nameSpace := by
  simp only [sync_ok, List.cons.injEq, and_true, exists_eq_left']
  rw [ownSession_sensorOf_iff parent hnames ht,
    dependency_accepts_iff hsearch parent hlabel hevents]
  constructor
  · rintro h ⟨session, haddressed, hvalue, hinfix, hne⟩
    have hown := h ⟨haddressed, session, hvalue, hinfix⟩
    exact hne (Option.some_inj.mp (hvalue.symm.trans hown))
  · rintro h ⟨haddressed, session, hvalue, hinfix⟩
    by_contra hne
    refine h ⟨session, haddressed, hvalue, hinfix, ?_⟩
    rintro rfl
    exact hne hvalue

def exampleSearch (pattern text : String) : Bool :=
  decide (pattern.toList <:+: text.toList)

theorem exampleSearch_literally : SearchesLiterally exampleSearch := by
  intro pattern text _
  exact decide_eq_true_iff

def exampleEvent (session : String) : Event where
  eventSourceName := "i15-1"
  eventName := "i15-1-message"
  value path := if path = instrumentSessionKey then some session else none

theorem sync_ownSession_example :
    ∃ s, (sync exampleSource ([exampleTrigger "cm37235-1" "ptypy"].map .ok)).children = [s] ∧
      OwnSession exampleSearch s (exampleTrigger "cm37235-1" "ptypy")
        (exampleEvent "cm37235-1") := by
  refine (sync_ownSession_iff exampleSearch_literally exampleSource (by decide)
    (by simp [enabledTriggers, exampleTrigger]) (by decide) (by decide) _).mpr ?_
  rintro ⟨session, -, hvalue, -, hne⟩
  exact hne (Option.some_inj.mp hvalue).symm

/-- The Trigger of visit 1 takes an event of visit 12. -/
theorem sync_not_ownSession :
    ¬∀ search, SearchesLiterally search → ∀ (parent : EventSource) (triggers : List Trigger),
      (triggerNames triggers).Nodup → ∀ nameSpace, isDnsLabel nameSpace → nameSpace ≠ "events" →
      (∀ t ∈ triggers, t.spec.enabled ∧ t.metadata.nameSpace = nameSpace) →
      ∀ e, ∃ s, (sync parent (triggers.map .ok)).children = [s] ∧
        ∀ t ∈ triggers, OwnSession search s t e := by
  intro h
  obtain ⟨s, hs, hown⟩ := h exampleSearch exampleSearch_literally exampleSource
    [exampleTrigger "cm37235-1" "ptypy"] (by decide) "cm37235-1" (by decide) (by decide)
    (by simp [exampleTrigger]) (exampleEvent "cm37235-12")
  rw [sync_ok] at hs
  obtain ⟨rfl, -⟩ := List.cons.inj hs
  have haccepts : (dependency exampleSource.name (exampleTrigger "cm37235-1" "ptypy")).accepts
      exampleSearch (exampleEvent "cm37235-12") := by
    rw [dependency_accepts_iff exampleSearch_literally exampleSource (by decide) (by decide)]
    refine ⟨⟨rfl, rfl, fun _ _ hgeneric => absurd hgeneric (by decide)⟩, "cm37235-12", rfl, ?_⟩
    decide
  have hvalue := (hown _ (List.mem_singleton_self _)).accepts _
    (List.mem_map_of_mem (by simp [enabledTriggers, exampleTrigger])) rfl haccepts
  exact absurd hvalue (by decide)

end OwnSession

end Workflows.Events
