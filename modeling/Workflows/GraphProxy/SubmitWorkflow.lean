import Workflows.Foundations.Yaml

/-!
# Submitting a manifest through the graph

The mutation `submitWorkflow` reads a manifest as an Argo Workflow, sets its kind, and turns a fixed
name into a prefix for generated names.
-/

namespace Workflows.GraphProxy

open Yaml

/-- The manifest type: its kind, `metadata.name`, `metadata.generateName` and its other fields. -/
structure WorkflowManifest (Fields : Type) where
  kind : Option String
  name : Option String
  generateName : Option String
  fields : Fields

/-- How `serde_yaml` reads a text, and how it reads values of the generated manifest type: `fields`
reads what the manifest and its metadata hold besides their kind and names, and `other` reads a
document whose metadata is no mapping. -/
structure ManifestReader where
  Fields : Type
  read : String → Except String Yaml
  optionString : Yaml → Except String (Option String)
  optionString_of_asStr : ∀ {v : Yaml} {s : String}, v.asStr = some s →
    optionString v = .ok (some s)
  fields : Mapping → Mapping → Except String Fields
  other : Yaml → Except String (WorkflowManifest Fields)

namespace ManifestReader

variable (reader : ManifestReader)

def readField (m : Mapping) (name : String) : Except String (Option String) :=
  match Mapping.get m name with
  | some value => reader.optionString value
  | none => .ok none

def readFields (entries metadata : Mapping) : Except String reader.Fields :=
  reader.fields (Mapping.remove (Mapping.remove entries "metadata") "kind")
    (Mapping.remove (Mapping.remove metadata "name") "generateName")

def readManifest : Yaml → Except String (WorkflowManifest reader.Fields)
  | .mapping entries =>
    match Mapping.get entries "metadata" with
    | some (.mapping metadata) => do
      let kind ← reader.readField entries "kind"
      let name ← reader.readField metadata "name"
      let generateName ← reader.readField metadata "generateName"
      let fields ← reader.readFields entries metadata
      return { kind, name, generateName, fields }
    | _ => reader.other (.mapping entries)
  | value => reader.other value

end ManifestReader

/-- The manifest that is sent to the Argo server. -/
def submitWorkflow (reader : ManifestReader) (manifest : String) :
    Except String (WorkflowManifest reader.Fields) :=
  match (reader.read manifest).bind reader.readManifest with
  | .error err => .error ("Could not parse workflow manifest: " ++ err)
  | .ok workflow =>
    let workflow := { workflow with kind := some "Workflow" }
    match workflow.name with
    | some name => .ok { workflow with name := none, generateName := some (name ++ "-") }
    | none => .ok workflow

end Workflows.GraphProxy
