import Workflows.GraphProxy.ArgumentSchema

/-!
# A form that is submitted as it is

The form of a template starts with what the link says, and the validator fills in the defaults that
the template's argument schema carries. A form without errors can be submitted, and the parameters
of the submission are what the form holds.
-/

namespace Workflows.Frontend

open GraphProxy GraphProxy.ArgumentSchema Dictionary Json

/-- The validator that the form is given: the data as it leaves them, and the errors. -/
structure Ajv where
  validate : Json → ValueMap → ValueMap × List String

/-- A schema of parameters as they are made from the fields of a template. -/
structure AsksForTexts (schema : Json) (required : List String)
    (properties : List (String × Json)) : Prop where
  required_eq : schema.child "required" = some (.array (required.map .string))
  properties_eq : schema.child "properties" = some (.object properties)
  nodup : (properties.map (·.1)).Nodup
  inferred : ∀ property ∈ properties, ∃ parameter, Inferred parameter property.2

def AllTexts (data : ValueMap) : Prop := ∀ name j, data.lookup name = some j → ∃ s, j = .string s

/-- What `ajv` promises of such a schema with `useDefaults`: the default of what is missing is put
in its place first, and then what is required must be there and must be one of its options. -/
structure Ajv.FillsDefaults (ajv : Ajv) : Prop where
  lookup : ∀ {schema required properties}, AsksForTexts schema required properties →
    ∀ {data}, AllTexts data → ∀ name, (ajv.validate schema data).1.lookup name =
      (data.lookup name).or ((properties.lookup name).bind (·.child "default"))
  valid : ∀ {schema required properties}, AsksForTexts schema required properties →
    ∀ {data}, AllTexts data → ((ajv.validate schema data).2 = [] ↔
      (∀ name ∈ required, name ∈ (ajv.validate schema data).1) ∧
      ∀ property ∈ properties, ∀ options, property.2.child "enum" = some (.array options) →
        ∀ j, (ajv.validate schema data).1.lookup property.1 = some j → j ∈ options)

section Form

variable (serde : SerdeJson)

/-- `WorkflowTemplate::arguments`, where it does not fail. -/
def templateArguments (annotations : Annotations) (spec : WorkflowSpec) : Option Json :=
  match annotations["workflows.diamond.ac.uk/parameter-schema"]? with
  | some schema => serde.fromStr schema
  | none => (new serde spec annotations).toOption.map fromArgumentSchema

variable (ajv : Ajv) (schema : Json) (searchParams : List (String × String))

/-- The data and the errors that the form reports when it is shown, before anything is typed. -/
def shownForm : ValueMap × List String := ajv.validate schema (mergeParameters none searchParams)

/-- The parameters that a click submits, if it submits any. -/
def onClick : Option (List String) :=
  if (shownForm ajv schema searchParams).2.isEmpty then
    some (submitOptsParameters serde (shownForm ajv schema searchParams).1)
  else none

end Form

section Prefilled

theorem lookup_fromEntries (searchParams : List (String × String)) (name : String) :
    (fromEntries searchParams).lookup name =
      (lastWith Prod.fst name searchParams).map fun entry => .string entry.2 := by
  have hfold : ∀ map : ValueMap,
      (searchParams.foldl (fun map entry => map.insert entry.1 (.string entry.2)) map).lookup name =
        ((lastWith Prod.fst name searchParams).map fun entry => Json.string entry.2).or
          (map.lookup name) := by
    induction searchParams with
    | nil => exact fun _ => rfl
    | cons entry rest ih =>
      intro map
      rw [List.foldl_cons, ih, lastWith_cons]
      cases lastWith Prod.fst name rest with
      | some _ => rfl
      | none =>
        obtain rfl | hne := eq_or_ne entry.1 name
        · simp [AList.lookup_insert]
        · simp [hne, AList.lookup_insert_ne hne.symm]
  rw [fromEntries, hfold]
  simp

theorem lookup_mergeParameters (searchParams : List (String × String)) (name : String) :
    (mergeParameters none searchParams).lookup name =
      (lastWith Prod.fst name searchParams).map fun entry => .string entry.2 := by
  rw [← lookup_fromEntries]
  exact congrArg (AList.lookup name) AList.union_empty

theorem allTexts_mergeParameters (searchParams : List (String × String)) :
    AllTexts (mergeParameters none searchParams) := by
  intro name j h
  rw [lookup_mergeParameters] at h
  obtain ⟨entry, -, rfl⟩ := Option.map_eq_some_iff.mp h
  exact ⟨entry.2, rfl⟩

end Prefilled

section Schema

variable {serde : SerdeJson} {spec : WorkflowSpec} {annotations : Annotations}
variable {schemas : ArgumentSchema} {parameter : SpecParameter}

/-- The prefixing of references changes nothing in a schema without any. -/
theorem inferred_doUpdate {schema : Json} (pathPrefix : String) (h : Inferred parameter schema) :
    Inferred parameter (doUpdate pathPrefix schema) := by
  have htexts : ∀ texts : List String,
      doUpdate pathPrefix (.array (texts.map .string)) = .array (texts.map .string) := by
    intro texts
    rw [doUpdate, doUpdateItems_eq_map, List.map_map]
    rfl
  have htext : ∀ (token : String) (text : Option String), token ≠ "$ref" →
      (text.map Json.string).map (fun j => refValue pathPrefix token (doUpdate pathPrefix j)) =
        text.map Json.string := by
    intro token text htoken
    cases text with
    | none => rfl
    | some text => simp [refValue, htoken, doUpdate]
  exact
    { type := by
        rw [child_doUpdate, h.type]
        exact htext "type" (some "string") (by decide)
      enum := by
        rw [child_doUpdate, h.enum]
        split_ifs with henum
        · rfl
        · simp [refValue, htexts]
      description := by rw [child_doUpdate, h.description, htext _ _ (by decide)]
      default := by rw [child_doUpdate, h.default, htext _ _ (by decide)]
      others := by
        intro key hkey
        rw [child_doUpdate, h.others key hkey]
        rfl }

/-- The properties of the combined schema. -/
def propertiesOf (schemas : ArgumentSchema) : List (String × Json) :=
  schemas.toList.map fun entry => (entry.1, doUpdate entry.1 entry.2)

/-- No annotation has a schema, of the template or of one of its parameters. -/
structure Unannotated (annotations : Annotations) (spec : WorkflowSpec) : Prop where
  template : annotations["workflows.diamond.ac.uk/parameter-schema"]? = none
  parameter : ∀ parameter ∈ userParameters spec, annotations[annotationOf parameter.name]? = none

theorem templateArguments_eq (hplain : Unannotated annotations spec) {schema : Json}
    (h : templateArguments serde annotations spec = some schema) :
    ∃ schemas, new serde spec annotations = .ok schemas ∧ schema = fromArgumentSchema schemas := by
  rw [templateArguments, hplain.template] at h
  cases hnew : new serde spec annotations with
  | error err => simp [hnew, Except.toOption] at h
  | ok schemas =>
    rw [hnew] at h
    exact ⟨schemas, rfl, (Option.some.inj h).symm⟩

theorem keys_propertiesOf (schemas : ArgumentSchema) :
    (propertiesOf schemas).map (·.1) = schemas.keys := by
  rw [propertiesOf, ← Std.TreeMap.map_fst_toList_eq_keys, List.map_map]
  rfl

theorem inferred_of_mem (hnew : new serde spec annotations = .ok schemas)
    (hplain : Unannotated annotations spec) {property : String × Json}
    (h : property ∈ propertiesOf schemas) :
    ∃ parameter, lastWith SpecParameter.name property.1 (userParameters spec) = some parameter ∧
      Inferred parameter property.2 := by
  obtain ⟨⟨name, schema⟩, hmem, rfl⟩ := List.mem_map.mp h
  have hget := Std.TreeMap.mem_toList_iff_getElem?_eq_some.mp hmem
  have hname : name ∈ schemas := by
    rw [Std.TreeMap.mem_iff_isSome_getElem?, hget]
    rfl
  have hasked := lastWith_isSome_iff.mpr ((mem_of_new hnew name).mp hname)
  obtain ⟨parameter, hlast⟩ := Option.isSome_iff_exists.mp hasked
  obtain ⟨found, hfound, hschema⟩ := exists_schemaFor hnew hlast
  obtain rfl := Option.some.inj (hget.symm.trans hfound)
  obtain ⟨hparameter, rfl⟩ := mem_of_lastWith hlast
  exact ⟨parameter, hlast, inferred_doUpdate _ (hschema.inferred (hplain.parameter parameter hparameter))⟩

theorem lookup_propertiesOf (hnew : new serde spec annotations = .ok schemas)
    (hplain : Unannotated annotations spec) {name : String}
    (hlast : lastWith SpecParameter.name name (userParameters spec) = some parameter) :
    ∃ property, (name, property) ∈ propertiesOf schemas ∧
      (propertiesOf schemas).lookup name = some property ∧ Inferred parameter property := by
  obtain ⟨schema, hget, -⟩ := exists_schemaFor hnew hlast
  have hlookup : (propertiesOf schemas).lookup name = some (doUpdate name schema) := by
    rw [propertiesOf, lookup_map schemas.toList doUpdate, lookup_toList hget]
    rfl
  have hchild : (Json.object (propertiesOf schemas)).child name = some (doUpdate name schema) :=
    hlookup
  have hmem := mem_of_child hchild
  obtain ⟨found, hfound, hinferred⟩ := inferred_of_mem hnew hplain hmem
  obtain rfl := Option.some.inj (hlast.symm.trans hfound)
  exact ⟨_, hmem, hlookup, hinferred⟩

theorem lookup_propertiesOf_none (hnew : new serde spec annotations = .ok schemas) {name : String}
    (hlast : lastWith SpecParameter.name name (userParameters spec) = none) :
    (propertiesOf schemas).lookup name = none := by
  rw [List.lookup_eq_none_iff]
  intro property hmem
  rw [bne_iff_ne]
  rintro rfl
  have hkey : property.1 ∈ schemas.keys := keys_propertiesOf schemas ▸ List.mem_map_of_mem hmem
  rw [Std.TreeMap.mem_keys, mem_of_new hnew, ← lastWith_isSome_iff, hlast] at hkey
  cases hkey

theorem asksForTexts_of_new (hnew : new serde spec annotations = .ok schemas)
    (hplain : Unannotated annotations spec) :
    AsksForTexts (fromArgumentSchema schemas) schemas.keys (propertiesOf schemas) where
  required_eq := rfl
  properties_eq := rfl
  nodup := keys_propertiesOf schemas ▸ nodup_keys schemas
  inferred _ hmem := by
    obtain ⟨parameter, -, hinferred⟩ := inferred_of_mem hnew hplain hmem
    exact ⟨parameter, hinferred⟩

end Schema

section Untouched

variable {serde : SerdeJson} {ajv : Ajv} {spec : WorkflowSpec} {annotations : Annotations}
variable {schemas : ArgumentSchema}

/-- What the form shows under a name: what the link says last, or else the value or the default of
the template's last parameter of that name. -/
def initialText (spec : WorkflowSpec) (searchParams : List (String × String)) (name : String) :
    Option String :=
  ((lastWith Prod.fst name searchParams).map Prod.snd).or
    ((lastWith SpecParameter.name name (userParameters spec)).bind fun parameter =>
      parameter.value.or parameter.default)

theorem lookup_shownForm (hajv : ajv.FillsDefaults) (hnew : new serde spec annotations = .ok schemas)
    (hplain : Unannotated annotations spec) (searchParams : List (String × String))
    (name : String) :
    (shownForm ajv (fromArgumentSchema schemas) searchParams).1.lookup name =
      (initialText spec searchParams name).map .string := by
  have hdefault : ((propertiesOf schemas).lookup name).bind (·.child "default") =
      ((lastWith SpecParameter.name name (userParameters spec)).bind fun parameter =>
        parameter.value.or parameter.default).map .string := by
    cases hlast : lastWith SpecParameter.name name (userParameters spec) with
    | none => rw [lookup_propertiesOf_none hnew hlast, Option.bind_none, Option.bind_none,
        Option.map_none]
    | some parameter =>
      obtain ⟨property, -, hlookup, hinferred⟩ := lookup_propertiesOf hnew hplain hlast
      rw [hlookup, Option.bind_some, Option.bind_some, hinferred.default]
  rw [shownForm, hajv.lookup (asksForTexts_of_new hnew hplain)
    (allTexts_mergeParameters searchParams), lookup_mergeParameters, hdefault, initialText]
  cases lastWith Prod.fst name searchParams <;> simp

theorem mem_submitOptsParameters_iff {map : ValueMap} {text : String} :
    text ∈ submitOptsParameters serde map ↔
      ∃ name j, map.lookup name = some j ∧ toArgoParameter serde name j = some text := by
  rw [submitOptsParameters, List.mem_filterMap]
  constructor
  · rintro ⟨⟨name, j⟩, hentry, htext⟩
    exact ⟨name, j, lookup_eq_some_iff_mem.mpr hentry, htext⟩
  · rintro ⟨name, j, hlookup, htext⟩
    exact ⟨⟨name, j⟩, lookup_eq_some_iff_mem.mp hlookup, htext⟩

theorem enum_of_inferred {parameter : SpecParameter} {property : Json} {options : List Json}
    (hinferred : Inferred parameter property) :
    property.child "enum" = some (.array options) ↔
      parameter.enum ≠ [] ∧ options = parameter.enum.map .string := by
  rw [hinferred.enum]
  split_ifs with h
  · exact iff_of_false nofun fun hne => hne.1 h
  · simp [h, eq_comm]

/-- The form of a template whose parameters have no schemas of their own can be submitted as it is
exactly when the link or the template says a value for each of them, among its options where it has
any. The submission then says each of these values, and those of the link that no parameter asks
for, and no others. -/
theorem onClick_untouched (hajv : ajv.FillsDefaults) (hplain : Unannotated annotations spec)
    {schema : Json} (hschema : templateArguments serde annotations spec = some schema)
    (searchParams : List (String × String)) :
    ((onClick serde ajv schema searchParams).isSome ↔
      ∀ name parameter, lastWith SpecParameter.name name (userParameters spec) = some parameter →
        ∃ value, initialText spec searchParams name = some value ∧
          (parameter.enum = [] ∨ value ∈ parameter.enum)) ∧
    ∀ texts, onClick serde ajv schema searchParams = some texts →
      ∀ text, text ∈ texts ↔ ∃ name value, initialText spec searchParams name = some value ∧
        text = name ++ "=" ++ value := by
  obtain ⟨schemas, hnew, rfl⟩ := templateArguments_eq hplain hschema
  have hlookup := lookup_shownForm hajv hnew hplain searchParams
  have hvalid := hajv.valid (asksForTexts_of_new hnew hplain)
    (allTexts_mergeParameters searchParams)
  rw [← shownForm] at hvalid
  constructor
  · rw [onClick, Option.isSome_ite, List.isEmpty_iff, hvalid]
    constructor
    · rintro ⟨hrequired, hoptions⟩ name parameter hlast
      obtain ⟨property, hmem, -, hinferred⟩ := lookup_propertiesOf hnew hplain hlast
      have hkey : name ∈ schemas.keys := keys_propertiesOf schemas ▸ List.mem_map_of_mem hmem
      have hfilled := AList.lookup_isSome.mpr (hrequired name hkey)
      rw [hlookup, Option.isSome_map] at hfilled
      obtain ⟨value, hvalue⟩ := Option.isSome_iff_exists.mp hfilled
      refine ⟨value, hvalue, ?_⟩
      by_cases henum : parameter.enum = []
      · exact .inl henum
      · have hchoice := (enum_of_inferred hinferred).mpr ⟨henum, rfl⟩
        have hoption := hoptions _ hmem _ hchoice (.string value) (by rw [hlookup, hvalue]; rfl)
        obtain ⟨option, hoption, heq⟩ := List.mem_map.mp hoption
        exact .inr (Json.string.inj heq ▸ hoption)
    · intro h
      constructor
      · intro name hkey
        rw [Std.TreeMap.mem_keys, mem_of_new hnew, ← lastWith_isSome_iff] at hkey
        obtain ⟨parameter, hlast⟩ := Option.isSome_iff_exists.mp hkey
        obtain ⟨value, hvalue, -⟩ := h name parameter hlast
        rw [← AList.lookup_isSome, hlookup, hvalue]
        rfl
      · intro property hmem options hchoice j hj
        obtain ⟨parameter, hlast, hinferred⟩ := inferred_of_mem hnew hplain hmem
        obtain ⟨hne, rfl⟩ := (enum_of_inferred hinferred).mp hchoice
        obtain ⟨value, hvalue, hoption⟩ := h property.1 parameter hlast
        rw [hlookup, hvalue] at hj
        obtain rfl := Option.some.inj hj
        exact List.mem_map_of_mem (hoption.resolve_left hne)
  · intro texts htexts text
    obtain ⟨-, heq⟩ := Option.ite_none_right_eq_some.mp htexts
    obtain rfl := Option.some.inj heq
    simp only [mem_submitOptsParameters_iff, hlookup, Option.map_eq_some_iff]
    constructor
    · rintro ⟨name, j, ⟨value, hvalue, rfl⟩, htext⟩
      exact ⟨name, value, hvalue, (Option.some.inj htext).symm⟩
    · rintro ⟨name, value, hvalue, rfl⟩
      exact ⟨name, .string value, ⟨value, hvalue, rfl⟩, rfl⟩

end Untouched

section Example

def propertiesIn (schema : Json) : List (String × Json) :=
  match schema.child "properties" with
  | some (.object properties) => properties
  | _ => []

def textIn : Json → Option String
  | .string s => some s
  | _ => none

def requiredIn (schema : Json) : List String :=
  match schema.child "required" with
  | some (.array items) => items.filterMap textIn
  | _ => []

def fill (properties : List (String × Json)) (data : ValueMap) : ValueMap :=
  properties.foldl (fun data property =>
    match data.lookup property.1, property.2.child "default" with
    | none, some j => data.insert property.1 j
    | _, _ => data) data

def isOption (data : ValueMap) (property : String × Json) : Bool :=
  match property.2.child "enum", data.lookup property.1 with
  | some (.array options), some (.string s) => s ∈ options.filterMap textIn
  | _, _ => true

/-- A validator of such schemas. -/
def Ajv.ofTexts : Ajv where
  validate schema data :=
    let filled := fill (propertiesIn schema) data
    (filled,
      ((requiredIn schema).filter fun name => (filled.lookup name).isNone).map
          (fun name => "must have required property '" ++ name ++ "'") ++
        ((propertiesIn schema).filter fun property => !isOption filled property).map
          fun _ => "must be equal to one of the allowed values")

theorem lookup_fill {properties : List (String × Json)} (hnodup : (properties.map (·.1)).Nodup)
    (data : ValueMap) (name : String) :
    (fill properties data).lookup name =
      (data.lookup name).or ((properties.lookup name).bind (·.child "default")) := by
  induction properties generalizing data with
  | nil => simp [fill]
  | cons property rest ih =>
    obtain ⟨hfirst, hrest⟩ := List.nodup_cons.mp hnodup
    obtain ⟨key, schema⟩ := property
    rw [fill, List.foldl_cons, ← fill, ih hrest, lookup_cons_ite]
    obtain rfl | hne := eq_or_ne name key
    · have hnone : rest.lookup name = none := by
        rw [List.lookup_eq_none_iff]
        intro other hother
        rw [bne_iff_ne]
        rintro rfl
        exact hfirst (List.mem_map.mpr ⟨other, hother, rfl⟩)
      rw [hnone, if_pos rfl]
      cases hdata : data.lookup name with
      | some j => simp [hdata]
      | none => cases hdefault : schema.child "default" <;> simp [hdata, hdefault]
    · rw [if_neg hne]
      cases hdata : data.lookup key with
      | some j => rfl
      | none => cases schema.child "default" <;> simp [AList.lookup_insert_ne hne]

theorem filterMap_textIn (texts : List String) :
    (texts.map Json.string).filterMap textIn = texts := by
  rw [List.filterMap_map]
  exact List.filterMap_some

theorem Ajv.fillsDefaults_ofTexts : Ajv.ofTexts.FillsDefaults := by
  have hfill : ∀ {schema required properties}, AsksForTexts schema required properties →
      propertiesIn schema = properties ∧ requiredIn schema = required := by
    intro schema required properties hasks
    rw [propertiesIn, hasks.properties_eq, requiredIn, hasks.required_eq]
    exact ⟨rfl, filterMap_textIn required⟩
  constructor
  · intro schema required properties hasks data _ name
    simp only [Ajv.ofTexts, (hfill hasks).1]
    exact lookup_fill hasks.nodup data name
  · intro schema required properties hasks data htexts
    obtain ⟨hproperties, hrequired⟩ := hfill hasks
    simp only [Ajv.ofTexts, hproperties, hrequired, List.append_eq_nil_iff, List.map_eq_nil_iff,
      List.filter_eq_nil_iff, Bool.not_eq_true', Bool.not_eq_false]
    refine and_congr (forall₂_congr fun name _ => ?_) (forall₂_congr fun property hmem => ?_)
    · rw [Bool.not_eq_true, Option.isNone_eq_false_iff, AList.lookup_isSome]
    · obtain ⟨parameter, hinferred⟩ := hasks.inferred property hmem
      have hfilled : ∀ j, (fill properties data).lookup property.1 = some j → ∃ s, j = .string s := by
        intro j hj
        rw [lookup_fill hasks.nodup, Option.or_eq_some_iff, Option.bind_eq_some_iff] at hj
        obtain hj | ⟨-, schema, hschema, hj⟩ := hj
        · exact htexts _ j hj
        · have hchild : (Json.object properties).child property.1 = some schema := hschema
          obtain ⟨other, hother⟩ := hasks.inferred _ (mem_of_child hchild)
          rw [hother.default] at hj
          obtain ⟨s, -, rfl⟩ := Option.map_eq_some_iff.mp hj
          exact ⟨s, rfl⟩
      rw [isOption]
      by_cases henum : parameter.enum = []
      · have hnone : property.2.child "enum" = none := hinferred.enum.trans (if_pos henum)
        simp [hnone]
      · have hchoice := (enum_of_inferred hinferred).mpr ⟨henum, rfl⟩
        rw [hchoice]
        cases hlookup : (fill properties data).lookup property.1 with
        | none => simp
        | some j =>
          obtain ⟨s, rfl⟩ := hfilled j hlookup
          simp [textIn]

theorem onClick_untouched_example :
    ∃ schema texts, templateArguments (.ofFormat .verbatim) ∅ exampleSpec = some schema ∧
      onClick (.ofFormat .verbatim) .ofTexts schema [("deep", "1"), ("deep", "2")] = some texts ∧
      ∀ text, text ∈ texts ↔ ∃ name value,
        initialText exampleSpec [("deep", "1"), ("deep", "2")] name = some value ∧
          text = name ++ "=" ++ value := by
  have hplain : Unannotated ∅ exampleSpec := ⟨by simp, fun parameter _ => by simp⟩
  cases hnew : new (.ofFormat .verbatim) exampleSpec ∅ with
  | error err =>
    obtain ⟨parameter, -, text, htext, -⟩ := new_error_iff.mp ⟨err, hnew⟩
    simp at htext
  | ok schemas =>
    have hschema : templateArguments (.ofFormat .verbatim) ∅ exampleSpec =
        some (fromArgumentSchema schemas) := by
      rw [templateArguments, hplain.template, hnew]
      rfl
    obtain ⟨hsome, htexts⟩ := onClick_untouched Ajv.fillsDefaults_ofTexts hplain hschema
      [("deep", "1"), ("deep", "2")]
    have hvalues : ∀ name parameter,
        lastWith SpecParameter.name name (userParameters exampleSpec) = some parameter →
        ∃ value, initialText exampleSpec [("deep", "1"), ("deep", "2")] name = some value ∧
          (parameter.enum = [] ∨ value ∈ parameter.enum) := by
      intro name parameter hlast
      obtain ⟨hmem, rfl⟩ := mem_of_lastWith hlast
      obtain rfl | rfl := List.mem_pair.mp hmem
      · exact ⟨"baz", rfl, .inr (by simp)⟩
      · exact ⟨"2", rfl, .inl rfl⟩
    obtain ⟨texts, hclick⟩ := Option.isSome_iff_exists.mp (hsome.mpr hvalues)
    exact ⟨_, texts, hschema, hclick, htexts texts hclick⟩

end Example

end Workflows.Frontend
