import Workflows.GraphProxy.SubmitWorkflow

/-!
# Submitting a manifest from the command line

`submit_from_str` rewrites the raw manifest and hands it to `argo submit` as JSON. It treats a
manifest as the mutation does where the manifest has a name and where the mutation cannot read the
`generateName` of one that has none.
-/

namespace Workflows.Cli

open Yaml GraphProxy

inductive Failure where
  | error (message : String)
  | panic
  deriving DecidableEq

def renameMetadata (metadata : Mapping) : Except Failure Mapping :=
  match Mapping.get metadata "name" with
  | none => .error (.error "Could not find name of template")
  | some name =>
    match name.asStr with
    | none => .error .panic
    | some name =>
      .ok (Mapping.insert (Mapping.remove metadata "name") "generateName" (.string (name ++ "-")))

def rewriteManifest (entries : Mapping) : Except Failure Mapping :=
  let entries := Mapping.insert entries "kind" (.string "Workflow")
  match Mapping.get entries "metadata" with
  | none => .error (.error "Could not find metadata tag in template")
  | some (.mapping metadata) =>
    (renameMetadata metadata).map fun metadata =>
      Mapping.insert entries "metadata" (.mapping metadata)
  | some _ => .ok entries

/-- The manifest that is handed to `argo submit`. -/
def submitFromStr (reader : ManifestReader) (rawManifest : String) : Except Failure Yaml :=
  match reader.read rawManifest with
  | .error e => .error (.error ("Could not parse the manifest " ++ e))
  | .ok parsed =>
    (parsed.modifyMapping (.error "Malformed manifest. Expected a dictionary.")
      rewriteManifest).bind fun manifest =>
        if manifest.isJson then .ok manifest else .error .panic

/-- The parts of a submitted manifest that tell Argo what it is and how it is named. -/
structure Submitted where
  kind : Option String
  name : Option String
  generateName : Option String
  deriving DecidableEq

def submittedWorkflow {Fields : Type} (workflow : WorkflowManifest Fields) : Submitted where
  kind := workflow.kind
  name := workflow.name
  generateName := workflow.generateName

def submittedManifest (manifest : Yaml) : Submitted :=
  let metadata := ((Mapping.get manifest.entries "metadata").map entries).getD []
  { kind := (Mapping.get manifest.entries "kind").bind asStr
    name := (Mapping.get metadata "name").bind asStr
    generateName := (Mapping.get metadata "generateName").bind asStr }

/-- Both reject the manifest, or both submit a Workflow under the same names. -/
def Agree {Fields : Type} : Except String (WorkflowManifest Fields) → Except Failure Yaml → Prop
  | .error _, .error (.error _) => True
  | .ok workflow, .ok manifest =>
    submittedWorkflow workflow = submittedManifest manifest ∧ workflow.kind = some "Workflow"
  | _, _ => False

/-- A manifest of which all fields but the two names have the types that the manifest type asks
for. -/
structure Document (reader : ManifestReader) where
  text : String
  entries : Mapping
  metadata : Mapping
  read_eq : reader.read text = .ok (.mapping entries)
  metadata_eq : Mapping.get entries "metadata" = some (.mapping metadata)
  spec : (Mapping.get entries "spec").isSome
  kind : (reader.readField entries "kind").isOk
  fields : (reader.readFields entries metadata).isOk

namespace Document

variable {reader : ManifestReader} (doc : Document reader)

def name : Option Yaml := Mapping.get doc.metadata "name"

def readsGenerateName : Bool := (reader.readField doc.metadata "generateName").isOk

/-- What is left of the manifest beside its kind and names can be written as JSON. -/
def isJson : Bool :=
  entriesJson (Mapping.remove (Mapping.remove doc.entries "metadata") "kind") &&
    entriesJson (Mapping.remove (Mapping.remove doc.metadata "name") "generateName")

section CommandLine

variable {doc : Document reader}

theorem get_metadata_kind (doc : Document reader) :
    Mapping.get (Mapping.insert doc.entries "kind" (.string "Workflow")) "metadata" =
      some (.mapping doc.metadata) := by
  rw [Mapping.get_insert_of_ne (by decide), doc.metadata_eq]

theorem rewriteManifest_eq (doc : Document reader) :
    rewriteManifest doc.entries = (renameMetadata doc.metadata).map fun metadata =>
      Mapping.insert (Mapping.insert doc.entries "kind" (.string "Workflow")) "metadata"
        (.mapping metadata) := by
  simp only [rewriteManifest, doc.get_metadata_kind]

theorem submitFromStr_of_error {failure : Failure} (h : renameMetadata doc.metadata = .error failure) :
    submitFromStr reader doc.text = .error failure := by
  simp only [submitFromStr, doc.read_eq, modifyMapping, doc.rewriteManifest_eq, h]
  rfl

/-- The manifest sent for one whose name is the given text. -/
def renamed (doc : Document reader) (name : String) : Yaml :=
  .mapping (Mapping.insert (Mapping.insert doc.entries "kind" (.string "Workflow")) "metadata"
    (.mapping (Mapping.insert (Mapping.remove doc.metadata "name") "generateName"
      (.string (name ++ "-")))))

theorem isJson_renamed (doc : Document reader) (name : String) :
    (doc.renamed name).isJson = doc.isJson := by
  rw [renamed, Document.isJson, Yaml.isJson, Mapping.entriesJson_insert,
    Mapping.remove_insert_of_ne (by decide), Mapping.entriesJson_insert, Yaml.isJson,
    Mapping.entriesJson_insert]
  simp [Yaml.isJson]

theorem submitFromStr_of_asStr {v : Yaml} {name : String} (hname : doc.name = some v)
    (hstr : v.asStr = some name) :
    submitFromStr reader doc.text =
      if doc.isJson then .ok (doc.renamed name) else .error .panic := by
  have hrename : renameMetadata doc.metadata = .ok (Mapping.insert
      (Mapping.remove doc.metadata "name") "generateName" (.string (name ++ "-"))) := by
    rw [Document.name] at hname
    simp only [renameMetadata, hname, hstr]
  rw [← doc.isJson_renamed name]
  simp only [submitFromStr, doc.read_eq, modifyMapping, doc.rewriteManifest_eq, hrename]
  rfl

theorem submittedManifest_renamed (doc : Document reader) (name : String) :
    submittedManifest (doc.renamed name) =
      { kind := some "Workflow", name := none, generateName := some (name ++ "-") } := by
  have hne : ("generateName" : String) ≠ "name" := by decide
  have hkind : ("metadata" : String) ≠ "kind" := by decide
  simp [submittedManifest, renamed, Yaml.entries, Mapping.get_insert_of_ne hkind,
    Mapping.get_insert_of_ne hne, asStr]

end CommandLine

section Mutation

variable {doc : Document reader}

theorem readManifest_eq (doc : Document reader) :
    ∃ kind fields, reader.readManifest (.mapping doc.entries) = do
      let name ← reader.readField doc.metadata "name"
      let generateName ← reader.readField doc.metadata "generateName"
      return { kind, name, generateName, fields } := by
  have hkind := doc.kind
  have hfields := doc.fields
  cases hreadKind : reader.readField doc.entries "kind" with
  | error e => simp [hreadKind, Except.isOk, Except.toBool] at hkind
  | ok kind =>
    cases hreadFields : reader.readFields doc.entries doc.metadata with
    | error e => simp [hreadFields, Except.isOk, Except.toBool] at hfields
    | ok fields =>
      refine ⟨kind, fields, ?_⟩
      simp only [ManifestReader.readManifest, doc.metadata_eq, hreadKind, hreadFields]
      rfl

theorem submitWorkflow_of_error {e : String} {name : Option String}
    (hname : reader.readField doc.metadata "name" = .ok name)
    (hgenerate : reader.readField doc.metadata "generateName" = .error e) :
    submitWorkflow reader doc.text = .error ("Could not parse workflow manifest: " ++ e) := by
  obtain ⟨kind, fields, hread⟩ := doc.readManifest_eq
  rw [hname, hgenerate] at hread
  simp only [submitWorkflow, doc.read_eq, Except.bind, hread]
  rfl

theorem submitWorkflow_of_ok {name generateName : Option String}
    (hname : reader.readField doc.metadata "name" = .ok name)
    (hgenerate : reader.readField doc.metadata "generateName" = .ok generateName) :
    ∃ workflow, submitWorkflow reader doc.text = .ok workflow ∧ submittedWorkflow workflow =
      { kind := some "Workflow", name := none
        generateName := (name.map (· ++ "-")).or generateName } := by
  obtain ⟨kind, fields, hread⟩ := doc.readManifest_eq
  rw [hname, hgenerate] at hread
  cases name with
  | none =>
    refine ⟨{ kind := some "Workflow", name := none, generateName, fields }, ?_, rfl⟩
    simp only [submitWorkflow, doc.read_eq, Except.bind, hread]
    rfl
  | some name =>
    refine ⟨{ kind := some "Workflow", name := none, generateName := some (name ++ "-"),
              fields }, ?_, rfl⟩
    simp only [submitWorkflow, doc.read_eq, Except.bind, hread]
    rfl

end Mutation

theorem agree_iff_of_asStr {v : Yaml} {name : String} (hname : doc.name = some v)
    (hstr : v.asStr = some name) :
    Agree (submitWorkflow reader doc.text) (submitFromStr reader doc.text) ↔
      doc.readsGenerateName ∧ doc.isJson := by
  have hread : reader.readField doc.metadata "name" = .ok (some name) := by
    rw [Document.name] at hname
    rw [ManifestReader.readField, hname]
    exact reader.optionString_of_asStr hstr
  rw [submitFromStr_of_asStr hname hstr, readsGenerateName]
  cases hgenerate : reader.readField doc.metadata "generateName" with
  | error e =>
    rw [submitWorkflow_of_error hread hgenerate]
    split_ifs with hjson
    · simp [Agree, Except.isOk, Except.toBool]
    · simp [Agree, hjson]
  | ok generateName =>
    obtain ⟨workflow, hworkflow, hsubmitted⟩ := submitWorkflow_of_ok hread hgenerate
    rw [hworkflow]
    split_ifs with hjson
    · have hkind : workflow.kind = some "Workflow" := congrArg Submitted.kind hsubmitted
      simp [Agree, hsubmitted, submittedManifest_renamed, hkind, hjson, Except.isOk, Except.toBool]
    · simp [Agree, hjson]

theorem agree_iff_of_none (hname : doc.name = none) :
    Agree (submitWorkflow reader doc.text) (submitFromStr reader doc.text) ↔
      doc.readsGenerateName = false := by
  rw [Document.name] at hname
  have hread : reader.readField doc.metadata "name" = .ok none := by
    rw [ManifestReader.readField, hname]
  have hrename : renameMetadata doc.metadata = .error (.error "Could not find name of template") := by
    simp only [renameMetadata, hname]
  rw [submitFromStr_of_error hrename, readsGenerateName]
  cases hgenerate : reader.readField doc.metadata "generateName" with
  | error e =>
    rw [submitWorkflow_of_error hread hgenerate]
    simp [Agree, Except.isOk, Except.toBool]
  | ok generateName =>
    obtain ⟨workflow, hworkflow, -⟩ := submitWorkflow_of_ok hread hgenerate
    rw [hworkflow]
    simp [Agree, Except.isOk, Except.toBool]

/-- The two submissions agree on a manifest that is named by a string, if both can read and write
the rest, and on one without a name that both reject. -/
theorem submissions_agree_iff :
    Agree (submitWorkflow reader doc.text) (submitFromStr reader doc.text) ↔
      (∃ v, doc.name = some v ∧ v.asStr.isSome ∧ doc.readsGenerateName ∧ doc.isJson) ∨
        (doc.name = none ∧ doc.readsGenerateName = false) := by
  cases hname : doc.name with
  | none => simp [agree_iff_of_none doc hname]
  | some v =>
    cases hstr : v.asStr with
    | some name => simp [agree_iff_of_asStr doc hname hstr, hstr]
    | none =>
      have hrename : renameMetadata doc.metadata = .error .panic := by
        rw [Document.name] at hname
        simp only [renameMetadata, hname, hstr]
      rw [submitFromStr_of_error hrename]
      cases submitWorkflow reader doc.text <;> simp [Agree, hstr]

end Document

def namelessText : String := "metadata:\n  labels:\n    a: b\nspec:\n  entrypoint: main\n"

def namelessEntries : Mapping :=
  [(.string "metadata", .mapping [(.string "labels", .mapping [(.string "a", .string "b")])]),
    (.string "spec", .mapping [(.string "entrypoint", .string "main")])]

/-- A reader that knows one text, and takes plain scalars for strings. -/
def exampleReader : ManifestReader where
  Fields := Unit
  read text := if text = namelessText then .ok (.mapping namelessEntries) else .error "unknown"
  optionString v :=
    match v.asStr, v with
    | some s, _ => .ok (some s)
    | none, .null _ => .ok none
    | none, .bool text => .ok (some text)
    | none, .number text _ => .ok (some text)
    | none, _ => .error "invalid type"
  optionString_of_asStr h := by simp only [h]
  fields _ _ := .ok ()
  other _ := .error "invalid type"

def namelessDocument : Document exampleReader where
  text := namelessText
  entries := namelessEntries
  metadata := [(.string "labels", .mapping [(.string "a", .string "b")])]
  read_eq := rfl
  metadata_eq := rfl
  spec := rfl
  kind := rfl
  fields := rfl

/-- The mutation submits a manifest without a name, and the command line rejects it. -/
theorem nameless_manifest_disagrees :
    ¬∀ (reader : ManifestReader) (doc : Document reader),
      Agree (submitWorkflow reader doc.text) (submitFromStr reader doc.text) := by
  intro h
  exact h exampleReader namelessDocument
end Workflows.Cli
