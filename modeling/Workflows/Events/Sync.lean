import Mathlib

/-!
# The hooks of the trigger controller

`customize` names the Triggers that belong to an event source, and `sync` builds one Sensor from
them. A related object that fails validation makes `sync` answer without a Sensor.
-/

namespace Workflows.Events

abbrev Labels := Std.TreeMap String String

inductive MessageType where
  | start | stop
  deriving DecidableEq

def MessageType.text : MessageType → String
  | .start => "start"
  | .stop => "stop"

structure WorkflowParameter where
  name : String
  path : Option String := none
  default : Option String := none
  deriving DecidableEq

structure TriggerWorkflow where
  template : String
  triggerOnMessageType : Option MessageType := none
  parameters : List WorkflowParameter

structure TriggerSpec where
  enabled : Bool
  eventName : String
  workflow : TriggerWorkflow

structure TriggerMetadata where
  name : String
  nameSpace : String
  labels : Labels

structure Trigger where
  metadata : TriggerMetadata
  spec : TriggerSpec

/-- An object that does not validate as a `Trigger`. -/
structure ValidationError

/-- The parent of the hooks; a missing `metadata`, `labels` or `spec` counts as an empty one. -/
structure EventSource where
  name : Option String
  labels : Labels
  specKeys : List String

structure DataFilter where
  path : String
  type : String
  value : List String
  deriving DecidableEq

structure Dependency where
  name : String
  eventSourceName : Option String
  eventName : String
  filters : Option (List DataFilter)
  deriving DecidableEq

structure ParameterSource where
  dependencyName : String
  dataKey : Option String
  value : Option String
  deriving DecidableEq

structure SensorParameter where
  src : ParameterSource
  dest : String
  deriving DecidableEq

structure TemplateArgument where
  name : String
  value : String
  deriving DecidableEq

structure WorkflowResource where
  apiVersion : String
  kind : String
  generateName : String
  triggeruid : Option String
  serviceAccountName : String
  workflowTemplateRef : String
  clusterScope : Bool
  arguments : List TemplateArgument
  deriving DecidableEq

structure ArgoWorkflow where
  parameters : List SensorParameter
  operation : String
  source : WorkflowResource
  deriving DecidableEq

structure SensorTrigger where
  name : String
  conditions : String
  argoWorkflow : ArgoWorkflow
  deriving DecidableEq

structure Sensor where
  apiVersion : String
  kind : String
  name : String
  serviceAccountName : String
  dependencies : List Dependency
  triggers : List SensorTrigger

inductive SyncStatus where
  | error (code : Nat)
  | triggers (count : Nat)
  deriving DecidableEq

structure SyncResponse where
  status : SyncStatus
  children : List Sensor

def sourceLabel : String := "workflows.diamond.ac.uk/source"

def beamlineLabel : String := "workflows.diamond.ac.uk/beamline"

def posixuidLabel : String := "workflows.diamond.ac.uk/posixuid"

def instrumentSessionKey : String := "body.doc.instrument_session"

def namespaceDest : String := "metadata.namespace"

section Sync

variable (eventSourceName : Option String) (trigger : Trigger)

def messageFilter (messageType : MessageType) : DataFilter where
  path := "body.name"
  type := "string"
  value := [messageType.text]

def namespaceFilter (nameSpace : String) : DataFilter where
  path := instrumentSessionKey
  type := "string"
  value := [nameSpace]

def messageFilters : List DataFilter :=
  match trigger.spec.workflow.triggerOnMessageType with
  | some messageType =>
    if trigger.metadata.labels[sourceLabel]? = some "generic" then [messageFilter messageType]
    else []
  | none => []

def namespaceFilters : List DataFilter :=
  if trigger.metadata.nameSpace ≠ "events" then [namespaceFilter trigger.metadata.nameSpace]
  else []

def dataFilters : List DataFilter :=
  messageFilters trigger ++ namespaceFilters trigger

def dependency : Dependency where
  name := trigger.metadata.name
  eventSourceName := eventSourceName
  eventName := trigger.spec.eventName
  filters := if dataFilters trigger ≠ [] then some (dataFilters trigger) else none

/-- An optional string counts as false also when it is empty. -/
def truthy (s : Option String) : Option String :=
  s.filter (· ≠ "")

def userParamDest (param_name : String) : String :=
  "spec.arguments.parameters.#(name==\"" ++ param_name ++ "\").value"

def userSensorParam (name : String) (userParam : WorkflowParameter) : SensorParameter where
  src :=
    { dependencyName := name
      dataKey := (truthy userParam.path).map ("body." ++ ·)
      value := truthy userParam.default }
  dest := userParamDest userParam.name

def namespaceParam (name : String) : SensorParameter where
  src := { dependencyName := name, dataKey := some instrumentSessionKey, value := none }
  dest := namespaceDest

def sensorParams : List SensorParameter :=
  namespaceParam trigger.metadata.name ::
    trigger.spec.workflow.parameters.map (userSensorParam trigger.metadata.name)

def templateArgs : List TemplateArgument :=
  trigger.spec.workflow.parameters.map fun userParam => { name := userParam.name, value := "" }

def workflowResource : WorkflowResource where
  apiVersion := "argoproj.io/v1alpha1"
  kind := "Workflow"
  generateName := trigger.spec.workflow.template ++ "-event-"
  triggeruid := trigger.metadata.labels[posixuidLabel]?
  serviceAccountName := "argo-workflow"
  workflowTemplateRef := trigger.spec.workflow.template
  clusterScope := true
  arguments := templateArgs trigger

def sensorTrigger : SensorTrigger where
  name := trigger.metadata.name
  conditions := trigger.metadata.name
  argoWorkflow :=
    { parameters := sensorParams trigger
      operation := "submit"
      source := workflowResource trigger }

structure Gathered where
  triggers : List SensorTrigger
  dependencies : List Dependency
  errored_triggers : Nat

def gather (acc : Gathered) : Except ValidationError Trigger → Gathered
  | .error _ => { acc with errored_triggers := acc.errored_triggers + 1 }
  | .ok trigger =>
    if ¬trigger.spec.enabled then acc
    else
      { acc with
        triggers := acc.triggers ++ [sensorTrigger trigger]
        dependencies := acc.dependencies ++ [dependency eventSourceName trigger] }

def gatherAll (sourceTriggers : List (Except ValidationError Trigger)) : Gathered :=
  sourceTriggers.foldl (gather eventSourceName) ⟨[], [], 0⟩

def sensor (gathered : Gathered) : Sensor where
  apiVersion := "argoproj.io/v1alpha1"
  kind := "Sensor"
  name := eventSourceName.getD "None"
  serviceAccountName := "operate-workflow-sa"
  dependencies := gathered.dependencies
  triggers := gathered.triggers

def sync (parent : EventSource) (sourceTriggers : List (Except ValidationError Trigger)) :
    SyncResponse :=
  let gathered := gatherAll parent.name sourceTriggers
  if gathered.errored_triggers ≠ 0 then { status := .error 500, children := [] }
  else
    { status := .triggers gathered.triggers.length
      children := [sensor parent.name gathered] }

end Sync

section Customize

/-- A label selector: the values asked for under the source label and under the beamline label. -/
structure ResourceRule where
  apiVersion : String
  resource : String
  sourceValues : List String
  beamline : String
  deriving DecidableEq

def sourceType (key : String) : String :=
  if key = "generic" then "message-bus" else key

def customize (parent : EventSource) : List ResourceRule :=
  match truthy parent.labels[beamlineLabel]? with
  | none => []
  | some beamline =>
    if parent.specKeys = [] then []
    else
      [{ apiVersion := "workflows.diamond.ac.uk/v1alpha1"
         resource := "triggers"
         sourceValues := parent.specKeys.map sourceType
         beamline }]

/-- How the API server reads a label selector. -/
def ResourceRule.selects (rule : ResourceRule) (trigger : Trigger) : Bool :=
  (trigger.metadata.labels[sourceLabel]?).any (· ∈ rule.sourceValues) &&
    trigger.metadata.labels[beamlineLabel]? = some rule.beamline

def related (parent : EventSource) (objects : List Trigger) : List Trigger :=
  objects.filter fun trigger => (customize parent).any (·.selects trigger)

end Customize

section Loop

variable {eventSourceName : Option String}

def enabledTriggers (triggers : List Trigger) : List Trigger :=
  triggers.filter (·.spec.enabled)

theorem foldl_gather_ok (triggers : List Trigger) (acc : Gathered) :
    (triggers.map Except.ok).foldl (gather eventSourceName) acc =
      { triggers := acc.triggers ++ (enabledTriggers triggers).map sensorTrigger
        dependencies := acc.dependencies ++
          (enabledTriggers triggers).map (dependency eventSourceName)
        errored_triggers := acc.errored_triggers } := by
  induction triggers generalizing acc with
  | nil => simp [enabledTriggers]
  | cons t ts ih =>
    rw [List.map_cons, List.foldl_cons, ih]
    cases h : t.spec.enabled <;> simp [gather, enabledTriggers, h]

def sensorOf (parent : EventSource) (triggers : List Trigger) : Sensor :=
  sensor parent.name
    { triggers := (enabledTriggers triggers).map sensorTrigger
      dependencies := (enabledTriggers triggers).map (dependency parent.name)
      errored_triggers := 0 }

theorem sync_ok (parent : EventSource) (triggers : List Trigger) :
    sync parent (triggers.map .ok) =
      { status := .triggers (enabledTriggers triggers).length
        children := [sensorOf parent triggers] } := by
  simp [sync, gatherAll, foldl_gather_ok, sensorOf]

theorem le_foldl_gather_errored (eventSourceName : Option String)
    (objects : List (Except ValidationError Trigger)) (acc : Gathered) :
    acc.errored_triggers ≤ (objects.foldl (gather eventSourceName) acc).errored_triggers := by
  induction objects generalizing acc with
  | nil => exact Nat.le_refl _
  | cons o os ih =>
    have hstep : acc.errored_triggers ≤ (gather eventSourceName acc o).errored_triggers := by
      cases o with
      | error e => exact Nat.le_succ _
      | ok t =>
        simp only [gather]
        split <;> exact Nat.le_refl _
    exact hstep.trans (ih _)

/-- One object that does not validate takes the whole Sensor away. -/
theorem sync_of_error_mem {parent : EventSource} {e : ValidationError}
    {objects : List (Except ValidationError Trigger)} (h : .error e ∈ objects) :
    sync parent objects = { status := .error 500, children := [] } := by
  obtain ⟨front, back, rfl⟩ := List.append_of_mem h
  have hpos : (gatherAll parent.name (front ++ .error e :: back)).errored_triggers ≠ 0 := by
    rw [gatherAll, List.foldl_append, List.foldl_cons]
    have hle := le_foldl_gather_errored parent.name back
      (gather parent.name (gatherAll parent.name front) (.error e))
    exact Nat.ne_of_gt (Nat.lt_of_lt_of_le (Nat.succ_pos _) hle)
  simp [sync, hpos]

@[simp] theorem sensorOf_dependencies (parent : EventSource) (triggers : List Trigger) :
    (sensorOf parent triggers).dependencies =
      (enabledTriggers triggers).map (dependency parent.name) := rfl

@[simp] theorem sensorOf_triggers (parent : EventSource) (triggers : List Trigger) :
    (sensorOf parent triggers).triggers = (enabledTriggers triggers).map sensorTrigger := rfl

section Places

variable (parent : EventSource) {triggers : List Trigger} {i : Nat} {t : Trigger}
  (ht : (enabledTriggers triggers)[i]? = some t)

include ht

theorem getElem?_dependencies :
    (sensorOf parent triggers).dependencies[i]? = some (dependency parent.name t) := by
  rw [sensorOf_dependencies, List.getElem?_map, ht, Option.map_some]

theorem getElem?_triggers :
    (sensorOf parent triggers).triggers[i]? = some (sensorTrigger t) := by
  rw [sensorOf_triggers, List.getElem?_map, ht, Option.map_some]

end Places

theorem dependency_filters_getD (eventSourceName : Option String) (trigger : Trigger) :
    (dependency eventSourceName trigger).filters.getD [] = dataFilters trigger := by
  by_cases h : dataFilters trigger = [] <;> simp [dependency, h]

end Loop

end Workflows.Events
