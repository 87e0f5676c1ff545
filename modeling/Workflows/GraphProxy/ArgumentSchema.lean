import Workflows.GraphProxy.References
import Workflows.GraphProxy.Parameters
import Workflows.Foundations.Dictionary

/-!
# The arguments that a Workflow Template asks for

The parameters that a user gives a value are those of the spec's arguments and of the inputs of the
entrypoint's template, without those that take their value from somewhere else. Each gets the schema
of its annotation, or one made from its own fields; of parameters with one name the last counts.
-/

namespace Workflows.GraphProxy

open Json Dictionary

structure SpecParameter where
  name : String
  description : Option String := none
  enum : List String := []
  value : Option String := none
  default : Option String := none
  valueFrom : Option Json := none

structure TemplateSpec where
  name : Option String
  inputs : Option (List SpecParameter)

structure WorkflowSpec where
  arguments : Option (List SpecParameter)
  entrypoint : Option String
  templates : List TemplateSpec

inductive ParameterSchemaError where
  | missingAnnotation : String → ParameterSchemaError
  | unparsable : String → ParameterSchemaError
  deriving DecidableEq

abbrev Annotations := Std.TreeMap String String

abbrev ArgumentSchema := Std.TreeMap String Json

def annotationOf (name : String) : String := "workflows.diamond.ac.uk/parameter-schema." ++ name

namespace ArgumentSchema

section Infer

def optionalEntry (key : String) (text : Option String) : List (String × Json) :=
  text.toList.map fun text => (key, .string text)

def inferStringSchema (description value default : Option String) : Json :=
  .object ([("type", .string "string")] ++ optionalEntry "description" description ++
    optionalEntry "default" (value.or default))

def inferEnumSchema (description : Option String) (options : List String)
    (value default : Option String) : Json :=
  .object ([("type", .string "string"), ("enum", .array (options.map .string))] ++
    optionalEntry "description" description ++ optionalEntry "default" (value.or default))

end Infer

variable (serde : SerdeJson)

def getAnnotationSchema (name : String) (annotations : Annotations) :
    Except ParameterSchemaError Json :=
  match annotations[annotationOf name]? with
  | none => .error <| ParameterSchemaError.missingAnnotation (annotationOf name)
  | some schema =>
    match serde.fromStr schema with
    | some schema => .ok schema
    | none => .error (.unparsable (annotationOf name))

/-- The schema that a parameter is added with. -/
def parameterSchema (annotations : Annotations) (parameter : SpecParameter) :
    Except ParameterSchemaError Json :=
  match getAnnotationSchema serde parameter.name annotations with
  | .ok schema => .ok schema
  | .error ( ParameterSchemaError.missingAnnotation _) =>
    match parameter.enum with
    | [] => .ok (inferStringSchema parameter.description parameter.value parameter.default)
    | options =>
      .ok (inferEnumSchema parameter.description options parameter.value parameter.default)
  | .error err => .error err

def addParameter (annotations : Annotations) (schema : ArgumentSchema)
    (parameter : SpecParameter) : Except ParameterSchemaError ArgumentSchema :=
  return schema.insert parameter.name (← parameterSchema serde annotations parameter)

/-- The loop over parameters, which leaves out those with a source of their own. -/
def addParameters (annotations : Annotations) (parameters : List SpecParameter)
    (schema : ArgumentSchema) : Except ParameterSchemaError ArgumentSchema :=
  (parameters.filter (·.valueFrom.isNone)).foldlM (addParameter serde annotations) schema

def argumentParameters (spec : WorkflowSpec) : List SpecParameter :=
  spec.arguments.getD []

def entrypointParameters (spec : WorkflowSpec) : List SpecParameter :=
  match spec.entrypoint with
  | none => []
  | some entrypoint =>
    match spec.templates.find? (·.name = some entrypoint) with
    | none => []
    | some template => template.inputs.getD []

def new (spec : WorkflowSpec) (annotations : Annotations) :
    Except ParameterSchemaError ArgumentSchema := do
  let schema ← addParameters serde annotations (argumentParameters spec) ∅
  addParameters serde annotations (entrypointParameters spec) schema

/-- The parameters that a user gives a value, those of the entrypoint last. -/
def userParameters (spec : WorkflowSpec) : List SpecParameter :=
  (argumentParameters spec ++ entrypointParameters spec).filter (·.valueFrom.isNone)

/-- A schema made from the fields of a parameter. -/
structure Inferred (parameter : SpecParameter) (schema : Json) : Prop where
  type : schema.child "type" = some (.string "string")
  enum : schema.child "enum" =
    if parameter.enum = [] then none else some (.array (parameter.enum.map .string))
  description : schema.child "description" = parameter.description.map .string
  default : schema.child "default" = (parameter.value.or parameter.default).map .string
  others : ∀ key ∉ ["type", "enum", "description", "default"], schema.child key = none

/-- The schema of the annotation, or else one from the parameter's own fields. -/
structure SchemaFor (annotations : Annotations) (parameter : SpecParameter) (schema : Json) :
    Prop where
  annotated : ∀ text, annotations[annotationOf parameter.name]? = some text →
    serde.fromStr text = some schema
  inferred : annotations[annotationOf parameter.name]? = none → Inferred parameter schema

section Spec

variable {serde} {annotations : Annotations} {spec : WorkflowSpec}

theorem addParameters_eq (parameters : List SpecParameter) (schema : ArgumentSchema) :
    addParameters serde annotations parameters schema =
      insertAll SpecParameter.name (parameterSchema serde annotations)
        (parameters.filter (·.valueFrom.isNone)) schema := by
  rw [addParameters]
  induction parameters.filter (·.valueFrom.isNone) generalizing schema with
  | nil => rfl
  | cons parameter parameters ih =>
    rw [List.foldlM_cons, insertAll, addParameter]
    cases parameterSchema serde annotations parameter with
    | error err => rfl
    | ok found => exact ih _

theorem new_eq : new serde spec annotations =
    insertAll SpecParameter.name (parameterSchema serde annotations) (userParameters spec) ∅ := by
  rw [userParameters, List.filter_append, insertAll_append, ← addParameters_eq, new]
  cases addParameters serde annotations (argumentParameters spec) ∅ with
  | error err => rfl
  | ok schema => exact addParameters_eq _ _

theorem lookup_optionalEntry (key name : String) (text : Option String) :
    (optionalEntry name text).lookup key = if key = name then text.map .string else none := by
  cases text with
  | none => simp [optionalEntry]
  | some text => exact lookup_cons_ite name _ [] key

theorem parameterSchema_error_iff {parameter : SpecParameter} :
    (∃ err, parameterSchema serde annotations parameter = .error err) ↔
      ∃ text, annotations[annotationOf parameter.name]? = some text ∧ serde.fromStr text = none := by
  rw [parameterSchema, getAnnotationSchema]
  cases hlookup : annotations[annotationOf parameter.name]? with
  | none => cases hoptions : parameter.enum <;> simp
  | some text => cases hread : serde.fromStr text <;> simp [hread]

/-- The entries that both kinds of schema end with say the description and the default. -/
theorem inferred_object {parameter : SpecParameter} {front : List (String × Json)}
    (htype : front.lookup "type" = some (.string "string"))
    (henum : front.lookup "enum" =
      if parameter.enum = [] then none else some (.array (parameter.enum.map .string)))
    (hothers : ∀ key ∉ ["type", "enum"], front.lookup key = none) :
    Inferred parameter (.object (front ++ optionalEntry "description" parameter.description ++
      optionalEntry "default" (parameter.value.or parameter.default))) := by
  have hchild : ∀ key, (Json.object (front ++
      optionalEntry "description" parameter.description ++
      optionalEntry "default" (parameter.value.or parameter.default))).child key =
      (front.lookup key).or
        ((if key = "description" then parameter.description.map .string else none).or
          (if key = "default" then (parameter.value.or parameter.default).map .string
            else none)) := by
    intro key
    rw [Json.child, List.append_assoc, List.lookup_append, List.lookup_append,
      lookup_optionalEntry, lookup_optionalEntry]
  exact
    { type := by rw [hchild, htype]; rfl
      enum := by rw [hchild, henum]; simp
      description := by rw [hchild, hothers "description" (by decide)]; simp
      default := by rw [hchild, hothers "default" (by decide)]; simp
      others := by
        intro key hkey
        simp only [List.mem_cons, List.not_mem_nil, or_false, not_or] at hkey
        rw [hchild, hothers key (by simp [hkey.1, hkey.2.1]), if_neg hkey.2.2.1,
          if_neg hkey.2.2.2]
        rfl }

theorem inferred_inferStringSchema {parameter : SpecParameter} (h : parameter.enum = []) :
    Inferred parameter
      (inferStringSchema parameter.description parameter.value parameter.default) := by
  refine inferred_object rfl (if_pos h).symm fun key hkey => ?_
  simp only [List.mem_cons, List.not_mem_nil, or_false, not_or] at hkey
  rw [lookup_cons_ite, if_neg hkey.1]
  rfl

theorem inferred_inferEnumSchema {parameter : SpecParameter} (h : parameter.enum ≠ []) :
    Inferred parameter (inferEnumSchema parameter.description parameter.enum parameter.value
      parameter.default) := by
  refine inferred_object rfl (if_neg h).symm fun key hkey => ?_
  simp only [List.mem_cons, List.not_mem_nil, or_false, not_or] at hkey
  rw [lookup_cons_ite, if_neg hkey.1, lookup_cons_ite, if_neg hkey.2]
  rfl

theorem schemaFor_of_ok {parameter : SpecParameter} {schema : Json}
    (h : parameterSchema serde annotations parameter = .ok schema) :
    SchemaFor serde annotations parameter schema := by
  rw [parameterSchema, getAnnotationSchema] at h
  cases hlookup : annotations[annotationOf parameter.name]? with
  | none =>
    rw [hlookup] at h
    refine ⟨fun text htext => (by cases hlookup.symm.trans htext), fun _ => ?_⟩
    cases henum : parameter.enum with
    | nil =>
      rw [henum] at h
      cases h
      exact inferred_inferStringSchema henum
    | cons option options =>
      rw [henum] at h
      cases h
      rw [← henum]
      exact inferred_inferEnumSchema (by simp [henum])
  | some text =>
    rw [hlookup] at h
    refine ⟨fun text' htext => ?_, fun hnone => (by cases hlookup.symm.trans hnone)⟩
    cases hlookup.symm.trans htext
    cases hread : serde.fromStr text with
    | none =>
      simp [hread] at h
    | some found =>
      simp only [hread] at h
      cases h
      rfl

theorem new_error_iff : (∃ err, new serde spec annotations = .error err) ↔
    ∃ parameter ∈ userParameters spec, ∃ text,
      annotations[annotationOf parameter.name]? = some text ∧ serde.fromStr text = none := by
  rw [new_eq, exists_insertAll_error_iff]
  simp only [parameterSchema_error_iff]

theorem getElem?_of_new {schemas : ArgumentSchema} (h : new serde spec annotations = .ok schemas)
    (name : String) :
    schemas[name]? = (lastWith SpecParameter.name name (userParameters spec)).bind fun parameter =>
      (parameterSchema serde annotations parameter).toOption := by
  rw [new_eq] at h
  rw [getElem?_of_insertAll h]
  simp

/-- The last parameter of a name decides. -/
theorem exists_schemaFor {schemas : ArgumentSchema} (h : new serde spec annotations = .ok schemas)
    {name : String} {parameter : SpecParameter}
    (hlast : lastWith SpecParameter.name name (userParameters spec) = some parameter) :
    ∃ schema, schemas[name]? = some schema ∧ SchemaFor serde annotations parameter schema := by
  have hget := getElem?_of_new h name
  rw [hlast, Option.bind_some] at hget
  cases hschema : parameterSchema serde annotations parameter with
  | ok schema =>
    rw [hschema] at hget
    exact ⟨schema, hget, schemaFor_of_ok hschema⟩
  | error err =>
    have hfails : ∃ err, new serde spec annotations = .error err := by
      rw [new_eq]
      exact exists_insertAll_error_iff.mpr ⟨parameter, (mem_of_lastWith hlast).1, err, hschema⟩
    obtain ⟨err', herror⟩ := hfails
    cases herror.symm.trans h

theorem mem_of_new {schemas : ArgumentSchema} (h : new serde spec annotations = .ok schemas)
    (name : String) :
    name ∈ schemas ↔ ∃ parameter ∈ userParameters spec, parameter.name = name := by
  rw [Std.TreeMap.mem_iff_isSome_getElem?, ← lastWith_isSome_iff]
  cases hlast : lastWith SpecParameter.name name (userParameters spec) with
  | none =>
    rw [getElem?_of_new h, hlast]
    rfl
  | some parameter =>
    obtain ⟨schema, hschema, -⟩ := exists_schemaFor h hlast
    rw [hschema]
    rfl

end Spec

/-- The parts of the combined schema, for the parameters that are asked for. -/
structure AsksFor (annotations : Annotations) (parameters : List SpecParameter) (combined : Json)
    (required : List String) (properties : List (String × Json)) : Prop where
  required_eq : combined.child "required" = some (.array (required.map .string))
  properties_eq : combined.child "properties" = some (.object properties)
  required_iff : ∀ name, name ∈ required ↔ name ∈ properties.map (·.1)
  names : ∀ name, name ∈ required ↔ ∃ parameter ∈ parameters, parameter.name = name
  schemas : ∀ name parameter, lastWith SpecParameter.name name parameters = some parameter →
    ∃ schema, SchemaFor serde annotations parameter schema ∧
      properties.lookup name = some (doUpdate name schema)

/-- The combined schema asks for the user's parameters, and there is none exactly where the
annotation of one of them cannot be read. -/
theorem new_spec (spec : WorkflowSpec) (annotations : Annotations) :
    (∀ schemas, new serde spec annotations = .ok schemas → ∃ required properties,
      AsksFor serde annotations (userParameters spec) (fromArgumentSchema schemas) required
        properties) ∧
    ((∃ err, new serde spec annotations = .error err) ↔
      ∃ parameter ∈ userParameters spec, ∃ text,
        annotations[annotationOf parameter.name]? = some text ∧ serde.fromStr text = none) := by
  refine ⟨fun schemas h => ?_, new_error_iff⟩
  refine ⟨schemas.keys, schemas.toList.map fun entry => (entry.1, doUpdate entry.1 entry.2), ?_⟩
  exact
    { required_eq := rfl
      properties_eq := rfl
      required_iff := by
        intro name
        rw [← Std.TreeMap.map_fst_toList_eq_keys, List.map_map]
        rfl
      names := by
        intro name
        rw [Std.TreeMap.mem_keys]
        exact mem_of_new h name
      schemas := by
        intro name parameter hlast
        obtain ⟨schema, hget, hschema⟩ := exists_schemaFor h hlast
        refine ⟨schema, hschema, ?_⟩
        rw [lookup_map schemas.toList doUpdate, lookup_toList hget]
        rfl }

/-- Text that is JSON, however deep it nests. -/
def ValidJson (text : String) : Prop :=
  ∃ limit, (Json.parse .verbatim limit text.toList).isSome

def exampleSpec : WorkflowSpec where
  arguments := some [⟨"foo", none, ["bar", "baz"], some "baz", none, none⟩]
  entrypoint := some "main"
  templates := [⟨some "main", some [⟨"deep", none, [], none, none, none⟩]⟩]

def nested : Nat → Json
  | 0 => .array []
  | n + 1 => .array [nested n]

theorem canonical_nested (n : Nat) : (nested n).Canonical NumberFormat.verbatim.IsNumber := by
  induction n with
  | zero => exact .array (by simp)
  | succ n ih => exact .array (by simpa using ih)

theorem nesting_nested (n : Nat) : (nested n).nesting = n + 1 := by
  induction n with
  | zero => rfl
  | succ n ih => simp [nested, nesting, itemsNesting, ih]

/-- 128 arrays in each other. -/
def deepText : String := String.ofList (nested 127).text

def deepAnnotation : Annotations := .ofList [(annotationOf "deep", deepText)]

theorem new_spec_example : ∃ schemas, new (.ofFormat .verbatim) exampleSpec ∅ = .ok schemas ∧
    ∃ required properties, AsksFor (.ofFormat .verbatim) ∅ (userParameters exampleSpec)
      (fromArgumentSchema schemas) required properties := by
  cases h : new (.ofFormat .verbatim) exampleSpec ∅ with
  | ok schemas => exact ⟨schemas, rfl, (new_spec _ exampleSpec ∅).1 schemas h⟩
  | error err =>
    obtain ⟨parameter, -, text, htext, -⟩ := (new_spec _ exampleSpec ∅).2.mp ⟨err, h⟩
    simp at htext

/-- JSON that nests too deep for `serde_json` makes it fail. -/
theorem deepAnnotation_fails :
    ¬ ((∃ err, new (.ofFormat .verbatim) exampleSpec deepAnnotation = .error err) ↔
      ∃ parameter ∈ userParameters exampleSpec, ∃ text,
        deepAnnotation[annotationOf parameter.name]? = some text ∧ ¬ ValidJson text) := by
  have hfoo : deepAnnotation[annotationOf "foo"]? = none := by decide +kernel
  have hdeep : deepAnnotation[annotationOf "deep"]? = some deepText :=
    Std.TreeMap.getElem?_ofList_of_mem Std.ReflCmp.compare_self (List.pairwise_singleton _ _)
      (List.mem_singleton_self _)
  have hunread : (SerdeJson.ofFormat .verbatim).fromStr deepText = none := by
    have hparse := parse_text (canonical_nested 127) 127
    rw [nesting_nested, if_neg (by decide)] at hparse
    rw [← hparse, deepText]
    simp [SerdeJson.ofFormat]
  have hvalid : ValidJson deepText := by
    have hparse := parse_text (canonical_nested 127) 128
    rw [nesting_nested, if_pos (by decide)] at hparse
    refine ⟨128, ?_⟩
    rw [deepText, String.toList_ofList, hparse]
    rfl
  have hparameters : userParameters exampleSpec =
      [⟨"foo", none, ["bar", "baz"], some "baz", none, none⟩,
        ⟨"deep", none, [], none, none, none⟩] := rfl
  intro h
  obtain ⟨parameter, hmem, text, htext, hinvalid⟩ := h.mp (new_error_iff.mpr
    ⟨⟨"deep", none, [], none, none, none⟩, by simp [hparameters], deepText, hdeep, hunread⟩)
  rw [hparameters] at hmem
  rcases List.mem_pair.mp hmem with rfl | rfl
  · cases hfoo.symm.trans htext
  · have heq : deepText = text := Option.some.inj (hdeep.symm.trans htext)
    exact hinvalid (heq ▸ hvalid)

end ArgumentSchema

end Workflows.GraphProxy
