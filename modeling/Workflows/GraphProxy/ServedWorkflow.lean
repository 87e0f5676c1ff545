import Workflows.Foundations.Resolution
import Workflows.GraphProxy.Identifiers
import Workflows.GraphProxy.Parameters
import Workflows.GraphProxy.Tasks

/-!
# The workflows that are served

The resolvers of a workflow, of its status and of its tasks and their artifacts fail where the
manifest lacks what is asked for. Of these only the status of a workflow may be null.
-/

namespace Workflows.GraphProxy

open Resolution Completed

inductive WorkflowParsingError where
  | unrecognisedPhase
  | missingStartTime
  | missingEndTime
  | unrecognisedTaskPhase
  | unrecognisedTaskDisplayName
  | missingWorkflowStatus
  | unrecognisedArtifactStore
  | missingArtifactKey
  | missingS3Client
  | missingS3Bucket
  | invalidPresignedS3Url

def WorkflowParsingError.message : WorkflowParsingError → String
  | unrecognisedPhase => "status.phase was not a recognised value"
  | missingStartTime => "status.start_time was expected but was not present"
  | missingEndTime => "status.end_time was expected but was not present"
  | unrecognisedTaskPhase => "value.phase was not a recognised value"
  | unrecognisedTaskDisplayName => "value.display_name was not a recognised value"
  | missingWorkflowStatus => "status was expected but was not present"
  | unrecognisedArtifactStore => "artifact.s3 was expected but was not present"
  | missingArtifactKey => "artifact.s3.key was expected but was not present"
  | missingS3Client => "s3 client was expected but not present"
  | missingS3Bucket => "s3 bucket was expected but not present"
  | invalidPresignedS3Url => "invalid presigned s3 url"

section Manifest

structure S3Artifact where
  key : Option String

structure ArgoArtifact where
  s3 : Option S3Artifact

/-- What a node holds besides its id and its children; a time is the text that it is served as. -/
structure NodeFields where
  displayName : Option String
  phase : Option String
  type : String
  startedAt : Option String
  finishedAt : Option String
  message : Option String
  outputs : Option (List ArgoArtifact)

structure ArgoWorkflowStatus where
  phase : Option String
  startedAt : Option String
  finishedAt : Option String
  message : Option String
  nodes : TaskMap NodeFields

structure ArgoWorkflow where
  name : Option String
  uid : Option String
  labels : List (String × String)
  arguments : Option (List Parameter)
  workflowTemplateRef : Option (Option String)
  status : Option ArgoWorkflowStatus

structure Workflow where
  manifest : ArgoWorkflow
  metadata : Metadata

/-- An error is the message of a panic. -/
def Workflow.new (visit : Visit) (manifest : ArgoWorkflow) : Except String Workflow :=
  match manifest.name with
  | none => .error "Workflow missing name"
  | some name =>
    match manifest.uid with
    | none => .error "Workflow missing uid"
    | some uid => .ok { manifest, metadata := { name, visit, uid } }

end Manifest

section Phases

inductive StatusType where
  | pending
  | running
  | succeeded
  | failed
  | errored
  deriving DecidableEq

namespace StatusType

def phase : StatusType → String
  | pending => "Pending"
  | running => "Running"
  | succeeded => "Succeeded"
  | failed => "Failed"
  | errored => "Error"

def typename : StatusType → String
  | pending => "WorkflowPendingStatus"
  | running => "WorkflowRunningStatus"
  | succeeded => "WorkflowSucceededStatus"
  | failed => "WorkflowFailedStatus"
  | errored => "WorkflowErroredStatus"

def all : List StatusType := [pending, running, succeeded, failed, errored]

def ofPhase (phase : String) : Option StatusType := all.find? (·.phase = phase)

end StatusType

inductive TaskStatus where
  | pending
  | running
  | succeeded
  | skipped
  | failed
  | error
  | omitted
  deriving DecidableEq

namespace TaskStatus

def phase : TaskStatus → String
  | pending => "Pending"
  | running => "Running"
  | succeeded => "Succeeded"
  | skipped => "Skipped"
  | failed => "Failed"
  | error => "Error"
  | omitted => "Omitted"

def name : TaskStatus → String
  | pending => "PENDING"
  | running => "RUNNING"
  | succeeded => "SUCCEEDED"
  | skipped => "SKIPPED"
  | failed => "FAILED"
  | error => "ERROR"
  | omitted => "OMITTED"

def all : List TaskStatus := [pending, running, succeeded, skipped, failed, error, omitted]

def tryFrom (status : String) : Except WorkflowParsingError TaskStatus :=
  match all.find? (·.phase = status) with
  | some status => .ok status
  | none => .error .unrecognisedTaskPhase

end TaskStatus

/-- `WorkflowStatus::new` -/
def newWorkflowStatus (workflow : ArgoWorkflow) :
    Except WorkflowParsingError (Option (StatusType × ArgoWorkflowStatus)) :=
  match workflow.status with
  | none => .error .missingWorkflowStatus
  | some status =>
    match status.phase with
    | none => .ok none
    | some phase =>
      match StatusType.ofPhase phase with
      | some type => .ok (some (type, status))
      | none => .error .unrecognisedPhase

end Phases

section Query

inductive ArtifactField where
  | name
  | url
  | mimeType

inductive TaskField where
  | id
  | name
  | status
  | depends
  | dependencies
  | artifacts (fields : List ArtifactField)
  | stepType
  | startTime
  | endTime
  | message

inductive StatusField where
  | typename
  | startTime
  | endTime
  | message
  | tasks (fields : List TaskField)

/-- A query asks for fields of each type of status; only those that the type has pass validation. -/
def StatusType.has : StatusType → StatusField → Bool
  | _, .typename | _, .message => true
  | .pending, _ => false
  | .running, .endTime => false
  | _, _ => true

inductive WorkflowField where
  | id
  | name
  | visit
  | status (selection : StatusType → List StatusField)
  | parameters
  | templateRef
  | creator

def ArtifactField.key : ArtifactField → String
  | name => "name"
  | url => "url"
  | mimeType => "mimeType"

def TaskField.key : TaskField → String
  | id => "id"
  | name => "name"
  | status => "status"
  | depends => "depends"
  | dependencies => "dependencies"
  | artifacts _ => "artifacts"
  | stepType => "stepType"
  | startTime => "startTime"
  | endTime => "endTime"
  | message => "message"

def StatusField.key : StatusField → String
  | typename => "__typename"
  | startTime => "startTime"
  | endTime => "endTime"
  | message => "message"
  | tasks _ => "tasks"

def WorkflowField.key : WorkflowField → String
  | id => "id"
  | name => "name"
  | visit => "visit"
  | status _ => "status"
  | parameters => "parameters"
  | templateRef => "templateRef"
  | creator => "creator"

end Query

section Resolvers

/-- The S3 client presigns the URL of a key in a bucket, and the Argo server is asked for the nodes
of a workflow. -/
structure Server where
  serde : SerdeJson
  s3Client : Option (String → String → Option String)
  s3Bucket : Option String
  mimeGuess : String → Option String
  workflowNodes : Visit → String → Except String (TaskMap NodeFields)

def resolved : Except WorkflowParsingError Json → Completed
  | .ok j => scalar j
  | .error err => failed err.message

def optionalText (text : Option String) : Completed := scalar ((text.map Json.string).getD .null)

def requiredText (text : Option String) (err : WorkflowParsingError) : Completed :=
  match text with
  | some text => scalar (.string text)
  | none => failed err.message

def texts (ids : List String) : Completed := scalar (.array (ids.map .string))

def artifactKey (artifact : ArgoArtifact) : Except WorkflowParsingError String :=
  match artifact.s3 with
  | none => .error .unrecognisedArtifactStore
  | some { key := none } => .error .missingArtifactKey
  | some { key := some key } => .ok key

/-- `Path::file_name` -/
def fileName (path : String) : Option String :=
  match ((path.toList.splitOn '/').filter fun part => part ≠ [] ∧ part ≠ ['.']).getLast? with
  | some ['.', '.'] => none
  | part => part.map String.ofList

def artifactFilename (artifact : ArgoArtifact) : Except WorkflowParsingError String :=
  (artifactKey artifact).map fun key => (fileName key).getD ""

variable (server : Server)

def presignedUrl (artifact : ArgoArtifact) : Except WorkflowParsingError String :=
  match server.s3Client with
  | none => .error .missingS3Client
  | some client =>
    match server.s3Bucket with
    | none => .error .missingS3Bucket
    | some bucket =>
      match artifactKey artifact with
      | .error err => .error err
      | .ok key =>
        match client bucket key with
        | some url => .ok url
        | none => .error .invalidPresignedS3Url

def serveArtifactField (artifact : ArgoArtifact) : ArtifactField → Completed
  | .name => resolved ((artifactFilename artifact).map .string)
  | .url => resolved ((presignedUrl server artifact).map .string)
  | .mimeType =>
    resolved ((artifactFilename artifact).map fun filename =>
      .string ((server.mimeGuess filename).getD "application/octet-stream"))

def serveArtifact (fields : List ArtifactField) (artifact : ArgoArtifact) : Completed :=
  object (fields.map fun field => (field.key, serveArtifactField server artifact field))

def serveTaskField (task : Task NodeFields) : TaskField → Completed
  | .id => scalar (.string task.nodeStatus.id)
  | .name => requiredText task.nodeStatus.rest.displayName .unrecognisedTaskDisplayName
  | .status =>
    match task.nodeStatus.rest.phase with
    | none => failed WorkflowParsingError.unrecognisedTaskPhase.message
    | some phase => resolved ((TaskStatus.tryFrom phase).map fun status => .string status.name)
  | .depends => texts task.depends
  | .dependencies => texts task.nodeStatus.children
  | .artifacts fields =>
    list ((task.nodeStatus.rest.outputs.getD []).map (serveArtifact server fields))
  | .stepType => scalar (.string task.nodeStatus.rest.type)
  | .startTime => optionalText task.nodeStatus.rest.startedAt
  | .endTime => optionalText task.nodeStatus.rest.finishedAt
  | .message => optionalText task.nodeStatus.rest.message

def serveTask (fields : List TaskField) (task : Task NodeFields) : Completed :=
  object (fields.map fun field => (field.key, serveTaskField server task field))

def fetchMissingTaskInfo (manifest : ArgoWorkflowStatus) (metadata : Metadata) :
    Except String (TaskMap NodeFields) :=
  if manifest.nodes.entries.isEmpty then server.workflowNodes metadata.visit metadata.name
  else .ok manifest.nodes

def serveStatusField (metadata : Metadata) (type : StatusType) (manifest : ArgoWorkflowStatus) :
    StatusField → Completed
  | .typename => scalar (.string type.typename)
  | .startTime => requiredText manifest.startedAt .missingStartTime
  | .endTime => requiredText manifest.finishedAt .missingEndTime
  | .message => optionalText manifest.message
  | .tasks fields =>
    match fetchMissingTaskInfo server manifest metadata with
    | .error err => failed err
    | .ok nodes => list ((nodes.intoTasks nodes.entries).map (serveTask server fields))

def serveStatus (selection : StatusType → List StatusField) (workflow : Workflow) : Completed :=
  match newWorkflowStatus workflow.manifest with
  | .error err => failed err.message
  | .ok none => scalar .null
  | .ok (some (type, status)) =>
    object (((selection type).filter type.has).map fun field =>
      (field.key, serveStatusField server workflow.metadata type status field))

def creatorId (labels : List (String × String)) : String :=
  ((labels.lookup "workflows.argoproj.io/creator-preferred-username").or
    (labels.lookup "workflows.argoproj.io/creator")).getD ""

def serveWorkflowField (workflow : Workflow) : WorkflowField → Completed
  | .id => scalar (.string workflow.metadata.id)
  | .name => scalar (.string workflow.metadata.name)
  | .visit =>
    scalar (.object [("proposalCode", .string workflow.metadata.visit.proposalCode),
      ("proposalNumber", .number (toString workflow.metadata.visit.proposalNumber)),
      ("number", .number (toString workflow.metadata.visit.number))])
  | .status selection => (serveStatus server selection workflow).nullable
  | .parameters =>
    scalar (((parameters server.serde workflow.manifest.arguments).map fun map =>
      Json.object (map.entries.map fun entry => (entry.1, entry.2))).getD .null)
  | .templateRef => optionalText workflow.manifest.workflowTemplateRef.join
  | .creator =>
    scalar (.object [("creatorId", .string (creatorId workflow.manifest.labels))])

def serveWorkflow (fields : List WorkflowField) (workflow : Workflow) : Completed :=
  object (fields.map fun field => (field.key, serveWorkflowField server workflow field))

/-- The nodes of a page of workflows, or the panic that ends the request. -/
def serveWorkflows (fields : List WorkflowField) (visit : Visit) (items : List ArgoWorkflow) :
    Except String Completed :=
  (items.mapM (Workflow.new visit)).map fun workflows =>
    list (workflows.map (serveWorkflow server fields))

end Resolvers

section Servable

variable (server : Server)

/-- What the manifest must have for a field that is asked for. -/
def ArtifactField.Servable (artifact : ArgoArtifact) : ArtifactField → Prop
  | .name | .mimeType => ∃ key, artifact.s3 = some { key := some key }
  | .url => ∃ key client bucket url, artifact.s3 = some { key := some key } ∧
      server.s3Client = some client ∧ server.s3Bucket = some bucket ∧ client bucket key = some url

def TaskField.Servable (node : NodeFields) : TaskField → Prop
  | .name => ∃ displayName, node.displayName = some displayName
  | .status => ∃ status : TaskStatus, node.phase = some status.phase
  | .artifacts fields => ∀ artifact ∈ node.outputs.getD [], ∀ field ∈ fields,
      ArtifactField.Servable server artifact field
  | _ => True

def StatusField.Servable (metadata : Metadata) (manifest : ArgoWorkflowStatus) :
    StatusField → Prop
  | .startTime => ∃ time, manifest.startedAt = some time
  | .endTime => ∃ time, manifest.finishedAt = some time
  | .tasks fields => ∃ nodes, fetchMissingTaskInfo server manifest metadata = .ok nodes ∧
      ∀ node ∈ nodes.entries, ∀ field ∈ fields, TaskField.Servable server node.2.rest field
  | _ => True

/-- The status has a known phase and all that is asked for of one with that phase. -/
def StatusServable (selection : StatusType → List StatusField) (workflow : Workflow) : Prop :=
  ∃ type status, workflow.manifest.status = some status ∧
    status.phase = some (StatusType.phase type) ∧
    ∀ field ∈ selection type, type.has field →
      StatusField.Servable server workflow.metadata status field

end Servable

section Served

variable {server : Server}

theorem succeeds_resolved {x : Except WorkflowParsingError Json} :
    (resolved x).Succeeds ↔ ∃ j, x = .ok j := by
  cases x with
  | error err => exact iff_of_false nofun nofun
  | ok j => exact iff_of_true ⟨j, rfl⟩ ⟨j, rfl⟩

@[simp] theorem reported_resolved (x : Except WorkflowParsingError Json) :
    (resolved x).reported = [] := by
  cases x <;> rfl

theorem succeeds_requiredText {text : Option String} {err : WorkflowParsingError} :
    (requiredText text err).Succeeds ↔ ∃ s, text = some s := by
  cases text with
  | none => exact iff_of_false nofun nofun
  | some s => exact iff_of_true ⟨_, rfl⟩ ⟨s, rfl⟩

@[simp] theorem reported_requiredText (text : Option String) (err : WorkflowParsingError) :
    (requiredText text err).reported = [] := by
  cases text <;> rfl

theorem artifactKey_eq_ok_iff {artifact : ArgoArtifact} {key : String} :
    artifactKey artifact = .ok key ↔ artifact.s3 = some { key := some key } := by
  obtain ⟨_ | ⟨_ | key'⟩⟩ := artifact <;> simp [artifactKey]

theorem exists_artifactFilename_iff {artifact : ArgoArtifact} :
    (∃ filename, artifactFilename artifact = .ok filename) ↔
      ∃ key, artifact.s3 = some { key := some key } := by
  simp only [artifactFilename, map_eq_ok_iff, artifactKey_eq_ok_iff]
  constructor
  · rintro ⟨filename, key, hkey, -⟩
    exact ⟨key, hkey⟩
  · rintro ⟨key, hkey⟩
    exact ⟨_, key, hkey, rfl⟩

theorem presignedUrl_eq_ok_iff {artifact : ArgoArtifact} {url : String} :
    presignedUrl server artifact = .ok url ↔ ∃ key client bucket,
      artifact.s3 = some { key := some key } ∧ server.s3Client = some client ∧
        server.s3Bucket = some bucket ∧ client bucket key = some url := by
  rw [presignedUrl]
  cases hclient : server.s3Client with
  | none => simp
  | some client =>
    cases hbucket : server.s3Bucket with
    | none => simp
    | some bucket =>
      cases hkey : artifactKey artifact with
      | error err => simp [← artifactKey_eq_ok_iff, hkey]
      | ok key =>
        have hs3 := artifactKey_eq_ok_iff.mp hkey
        cases hurl : client bucket key <;> simp [hs3, hurl]

theorem succeeds_serveArtifactField {artifact : ArgoArtifact} {field : ArtifactField} :
    (serveArtifactField server artifact field).Succeeds ↔ field.Servable server artifact := by
  cases field with
  | name =>
    rw [serveArtifactField, succeeds_resolved, exists_map_ok_iff, exists_artifactFilename_iff]
    rfl
  | mimeType =>
    rw [serveArtifactField, succeeds_resolved, exists_map_ok_iff, exists_artifactFilename_iff]
    rfl
  | url =>
    rw [serveArtifactField, succeeds_resolved, exists_map_ok_iff]
    simp only [presignedUrl_eq_ok_iff]
    constructor
    · rintro ⟨url, key, client, bucket, h⟩
      exact ⟨key, client, bucket, url, h⟩
    · rintro ⟨key, client, bucket, url, h⟩
      exact ⟨url, key, client, bucket, h⟩

theorem exists_tryFrom_iff {phase : String} :
    (∃ status, TaskStatus.tryFrom phase = .ok status) ↔
      ∃ status : TaskStatus, phase = status.phase := by
  rw [TaskStatus.tryFrom]
  cases hfind : TaskStatus.all.find? (·.phase = phase) with
  | none =>
    refine iff_of_false nofun ?_
    rintro ⟨status, rfl⟩
    have hmem : status ∈ TaskStatus.all := by cases status <;> decide
    simpa using List.find?_eq_none.mp hfind status hmem
  | some status =>
    have hphase := List.find?_some hfind
    exact iff_of_true ⟨status, rfl⟩ ⟨status, (of_decide_eq_true hphase).symm⟩

theorem succeeds_serveTaskField {task : Task NodeFields} {field : TaskField} :
    (serveTaskField server task field).Succeeds ↔
      field.Servable server task.nodeStatus.rest := by
  cases field with
  | name => exact succeeds_requiredText
  | status =>
    rw [serveTaskField, TaskField.Servable]
    cases task.nodeStatus.rest.phase with
    | none => exact iff_of_false nofun nofun
    | some phase =>
      simp only [Option.some.injEq]
      rw [succeeds_resolved, exists_map_ok_iff, exists_tryFrom_iff]
  | artifacts fields =>
    rw [serveTaskField, succeeds_list, TaskField.Servable, List.forall_mem_map]
    refine forall₂_congr fun artifact _ => ?_
    rw [serveArtifact, succeeds_object, List.forall_mem_map]
    exact forall₂_congr fun field _ => succeeds_serveArtifactField
  | _ => exact iff_of_true ⟨_, rfl⟩ trivial

theorem nodes_of_intoTasks {nodes : TaskMap NodeFields} {p : NodeFields → Prop} :
    (∀ task ∈ nodes.intoTasks nodes.entries, p task.nodeStatus.rest) ↔
      ∀ node ∈ nodes.entries, p node.2.rest := by
  rw [TaskMap.intoTasks_eq, List.forall_mem_map]

theorem succeeds_serveStatusField {metadata : Metadata} {type : StatusType}
    {status : ArgoWorkflowStatus} {field : StatusField} :
    (serveStatusField server metadata type status field).Succeeds ↔
      field.Servable server metadata status := by
  cases field with
  | startTime => exact succeeds_requiredText
  | endTime => exact succeeds_requiredText
  | tasks fields =>
    rw [serveStatusField, StatusField.Servable]
    cases fetchMissingTaskInfo server status metadata with
    | error err => simp
    | ok nodes =>
      have htask : ∀ task : Task NodeFields, (serveTask server fields task).Succeeds ↔
          ∀ field ∈ fields, field.Servable server task.nodeStatus.rest := by
        intro task
        rw [serveTask, succeeds_object, List.forall_mem_map]
        exact forall₂_congr fun field _ => succeeds_serveTaskField
      rw [succeeds_list, List.forall_mem_map]
      simp only [htask, Except.ok.injEq, exists_eq_left']
      exact nodes_of_intoTasks (p := fun node => ∀ field ∈ fields, field.Servable server node)
  | _ => exact iff_of_true ⟨_, rfl⟩ trivial

/-- The status says nothing of its phase. -/
def Unphased (workflow : ArgoWorkflow) : Prop :=
  ∃ status, workflow.status = some status ∧ status.phase = none

theorem ofPhase_eq_some_iff {phase : String} {type : StatusType} :
    StatusType.ofPhase phase = some type ↔ phase = type.phase := by
  constructor
  · intro hfind
    have hphase : decide (type.phase = phase) = true :=
      List.find?_some (p := fun type : StatusType => decide (type.phase = phase)) hfind
    exact (of_decide_eq_true hphase).symm
  · rintro rfl
    cases type <;> decide +kernel

theorem newWorkflowStatus_eq_none_iff {workflow : ArgoWorkflow} :
    newWorkflowStatus workflow = .ok none ↔ Unphased workflow := by
  obtain ⟨name, uid, labels, arguments, workflowTemplateRef, _ | ⟨phase, started, rest⟩⟩ := workflow
  · exact iff_of_false nofun nofun
  · cases phase with
    | none => exact iff_of_true rfl ⟨_, rfl, rfl⟩
    | some phase =>
      simp only [newWorkflowStatus, Unphased]
      cases StatusType.ofPhase phase <;> simp

theorem newWorkflowStatus_eq_some_iff {workflow : ArgoWorkflow} {type : StatusType}
    {status : ArgoWorkflowStatus} :
    newWorkflowStatus workflow = .ok (some (type, status)) ↔
      workflow.status = some status ∧ status.phase = some type.phase := by
  obtain ⟨name, uid, labels, arguments, workflowTemplateRef, _ | found⟩ := workflow
  · exact iff_of_false nofun nofun
  · have hfound : newWorkflowStatus ⟨name, uid, labels, arguments, workflowTemplateRef,
        some found⟩ = .ok (some (type, status)) ↔
        found = status ∧ found.phase = some type.phase := by
      simp only [newWorkflowStatus]
      cases found.phase with
      | none => exact iff_of_false nofun nofun
      | some phase =>
        dsimp only
        rw [Option.some.injEq, ← ofPhase_eq_some_iff]
        cases StatusType.ofPhase phase with
        | none => simp
        | some other => simp [and_comm]
    rw [hfound, Option.some.injEq]
    exact and_congr_right fun heq => by rw [heq]

theorem statusServable_iff {selection : StatusType → List StatusField} {workflow : Workflow} :
    StatusServable server selection workflow ↔ ∃ type status,
      newWorkflowStatus workflow.manifest = .ok (some (type, status)) ∧
        ∀ field ∈ selection type, type.has field →
          StatusField.Servable server workflow.metadata status field := by
  simp only [StatusServable, newWorkflowStatus_eq_some_iff, and_assoc]

theorem reported_serveStatus (selection : StatusType → List StatusField) (workflow : Workflow) :
    (serveStatus server selection workflow).reported = [] := by
  have hartifact : ∀ (artifact : ArgoArtifact) (field : ArtifactField),
      (serveArtifactField server artifact field).reported = [] := by
    intro artifact field
    cases field <;> exact reported_resolved _
  have htask : ∀ (task : Task NodeFields) (field : TaskField),
      (serveTaskField server task field).reported = [] := by
    intro task field
    cases field with
    | name => exact reported_requiredText _ _
    | status =>
      rw [serveTaskField]
      cases task.nodeStatus.rest.phase <;> simp
    | artifacts fields =>
      rw [serveTaskField, reported_list, List.forall_mem_map]
      intro artifact _
      rw [serveArtifact, reported_object, List.forall_mem_map]
      exact fun field _ => hartifact artifact field
    | _ => rfl
  rw [serveStatus]
  rcases newWorkflowStatus workflow.manifest with err | _ | ⟨type, status⟩
  · rfl
  · rfl
  · rw [reported_object, List.forall_mem_map]
    intro field _
    cases field with
    | startTime | endTime => exact reported_requiredText _ _
    | tasks fields =>
      simp only [serveStatusField]
      cases fetchMissingTaskInfo server status workflow.metadata with
      | error err => rfl
      | ok nodes =>
        rw [reported_list, List.forall_mem_map]
        intro task _
        rw [serveTask, reported_object, List.forall_mem_map]
        exact fun field _ => htask task field
    | _ => rfl

theorem succeeds_serveStatus (selection : StatusType → List StatusField) (workflow : Workflow) :
    (serveStatus server selection workflow).Succeeds ↔
      StatusServable server selection workflow ∨ Unphased workflow.manifest := by
  rw [statusServable_iff, ← newWorkflowStatus_eq_none_iff, serveStatus]
  rcases newWorkflowStatus workflow.manifest with err | _ | ⟨type, status⟩
  · simp
  · simp
  · dsimp only
    rw [succeeds_object, List.forall_mem_map]
    simp [List.mem_filter, succeeds_serveStatusField]

theorem serveStatus_eq_null_iff (server : Server) (selection : StatusType → List StatusField) (workflow : Workflow) :
    (serveStatus server selection workflow).value = .ok .null ↔ Unphased workflow.manifest := by
  rw [← newWorkflowStatus_eq_none_iff, serveStatus]
  rcases newWorkflowStatus workflow.manifest with err | _ | ⟨type, status⟩
  · exact iff_of_false nofun nofun
  · exact iff_of_true rfl rfl
  · refine iff_of_false (fun hnull => ?_) nofun
    obtain ⟨entries, hentries, -⟩ := object_eq_ok_iff.mp hnull
    cases hentries

theorem not_unphased_of_statusServable {selection : StatusType → List StatusField}
    {workflow : Workflow} (h : StatusServable server selection workflow) :
    ¬Unphased workflow.manifest := by
  rintro ⟨status, hstatus, hnone⟩
  obtain ⟨type, found, hfound, hphase, -⟩ := h
  obtain rfl := Option.some.inj (hstatus.symm.trans hfound)
  cases hnone.symm.trans hphase

/-- Null is served for a status without a phase, and for one that lacks anything that is asked for;
only the latter is an error. -/
theorem serveStatus_spec (selection : StatusType → List StatusField) (workflow : Workflow) :
    (∀ j, (serveStatus server selection workflow).nullable.value = .ok j →
      (j ≠ .null ↔ StatusServable server selection workflow)) ∧
    ((serveStatus server selection workflow).nullable.reported = [] ↔
      StatusServable server selection workflow ∨ Unphased workflow.manifest) := by
  rw [← succeeds_serveStatus]
  by_cases hsucceeds : (serveStatus server selection workflow).Succeeds
  · rw [nullable_of_succeeds hsucceeds]
    refine ⟨?_, iff_of_true (reported_serveStatus selection workflow) hsucceeds⟩
    intro j hj
    obtain hservable | hunphased := (succeeds_serveStatus selection workflow).mp hsucceeds
    · refine iff_of_true ?_ hservable
      rintro rfl
      exact not_unphased_of_statusServable hservable ((serveStatus_eq_null_iff server _ _).mp hj)
    · have hnull := (serveStatus_eq_null_iff server selection workflow).mpr hunphased
      obtain rfl := Except.ok.inj (hj.symm.trans hnull)
      exact iff_of_false (fun hne => hne rfl) fun h => not_unphased_of_statusServable h hunphased
  · obtain ⟨hnull, herror⟩ := nullable_of_not_succeeds hsucceeds
    refine ⟨?_, iff_of_false herror hsucceeds⟩
    intro j hj
    obtain rfl := Except.ok.inj (hj.symm.trans hnull)
    refine iff_of_false (fun hne => hne rfl) fun h => ?_
    exact hsucceeds ((succeeds_serveStatus selection workflow).mpr (.inl h))

end Served

section Page

variable {server : Server} {fields : List WorkflowField} {visit : Visit}

theorem succeeds_serveWorkflowField (workflow : Workflow) (field : WorkflowField) :
    (serveWorkflowField server workflow field).Succeeds := by
  cases field with
  | status selection => exact succeeds_nullable _
  | _ => exact ⟨_, rfl⟩

/-- What is served for a workflow, whatever its manifest lacks: an entry for each field, and a
status unless it lacks what is asked for of it. -/
def Serves (server : Server) (fields : List WorkflowField) (workflow : Workflow) (answer : Json) :
    Prop :=
  ∃ entries, answer = .object entries ∧
    List.Forall₂ (fun field (entry : String × Json) => entry.1 = field.key ∧
      ∀ selection, field = WorkflowField.status selection →
        (entry.2 ≠ .null ↔ StatusServable server selection workflow)) fields entries

theorem serveWorkflow_spec (server : Server) (fields : List WorkflowField) (workflow : Workflow) :
    ∃ answer, (serveWorkflow server fields workflow).value = .ok answer ∧
      Serves server fields workflow answer := by
  have hsucceeds : (serveWorkflow server fields workflow).Succeeds := by
    rw [serveWorkflow, succeeds_object, List.forall_mem_map]
    exact fun field _ => succeeds_serveWorkflowField workflow field
  obtain ⟨answer, hanswer⟩ := hsucceeds
  obtain ⟨entries, rfl, hentries⟩ := object_eq_ok_iff.mp hanswer
  refine ⟨_, hanswer, entries, rfl, ?_⟩
  refine (List.forall₂_map_left_iff.mp hentries).imp fun field entry h => ⟨h.1.symm, ?_⟩
  rintro selection rfl
  exact (serveStatus_spec selection workflow).1 entry.2 h.2

theorem reported_serveWorkflow (workflow : Workflow) :
    (serveWorkflow server fields workflow).reported = [] ↔
      ∀ selection, .status selection ∈ fields →
        StatusServable server selection workflow ∨ Unphased workflow.manifest := by
  rw [serveWorkflow, reported_object, List.forall_mem_map]
  constructor
  · intro h selection hselection
    exact (serveStatus_spec selection workflow).2.mp (h _ hselection)
  · intro h field hfield
    cases field with
    | status selection => exact (serveStatus_spec selection workflow).2.mpr (h selection hfield)
    | _ => rfl

theorem new_eq_ok_iff {manifest : ArgoWorkflow} {workflow : Workflow} :
    Workflow.new visit manifest = .ok workflow ↔ ∃ name uid, manifest.name = some name ∧
      manifest.uid = some uid ∧ workflow = { manifest, metadata := { name, visit, uid } } := by
  rw [Workflow.new]
  cases manifest.name with
  | none => simp
  | some name => cases manifest.uid <;> simp [eq_comm]

/-- What a page answers for one of its workflows is what is answered for that workflow alone. -/
structure ServedAs (server : Server) (fields : List WorkflowField) (visit : Visit)
    (manifest : ArgoWorkflow) (answer : Json) (workflow : Workflow) : Prop where
  new_eq : Workflow.new visit manifest = .ok workflow
  value_eq : (serveWorkflow server fields workflow).value = .ok answer
  serves : Serves server fields workflow answer

theorem servedAs_of_forall₂ {items : List ArgoWorkflow} {workflows : List Workflow}
    {answers : List Json}
    (hnew : List.Forall₂ (fun manifest workflow => Workflow.new visit manifest = .ok workflow) items
      workflows)
    (hanswers : List.Forall₂
      (fun workflow answer => (serveWorkflow server fields workflow).value = .ok answer) workflows
      answers) :
    List.Forall₂ (fun manifest answer =>
      ∃ workflow, ServedAs server fields visit manifest answer workflow) items answers := by
  induction hnew generalizing answers with
  | nil =>
    cases hanswers
    exact .nil
  | @cons manifest workflow _ _ hworkflow _ ih =>
    obtain _ | ⟨hanswer, hrest⟩ := hanswers
    obtain ⟨answer, hvalue, hserves⟩ := serveWorkflow_spec server fields workflow
    obtain rfl := Except.ok.inj (hvalue.symm.trans hanswer)
    exact .cons ⟨workflow, hworkflow, hvalue, hserves⟩ (ih hrest)

end Page

end Workflows.GraphProxy
