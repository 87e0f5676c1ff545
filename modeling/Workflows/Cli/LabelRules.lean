import Workflows.Foundations.Yaml

/-!
# The rules for labels and annotations

`LabelChecker` runs the rules of the repository's rule set over the metadata of a manifest. A rule
gives an error exactly when it is violated.
-/

namespace Workflows

namespace Yaml

/-- Indexing with a string, which gives null where there is nothing. -/
def index (value : Yaml) (name : String) : Yaml :=
  (Mapping.get value.entries name).getD (.null "null")

/-- `Value::get` with a string. -/
def get (value : Yaml) (name : String) : Option Yaml := Mapping.get value.entries name

def asMapping : Yaml → Option Mapping
  | mapping entries => some entries
  | tagged _ value => value.asMapping
  | _ => none

/-- Comparison of a value with a string. -/
def isText (value : Yaml) (text : String) : Bool := value.asStr = some text

end Yaml

namespace Cli

inductive Location where
  | annotation
  | label
  deriving DecidableEq

def Location.display : Location → String
  | Location.annotation => "annotations"
  | .label => "labels"

def Location.pick (location : Location) (labels annotations : Yaml) : Yaml :=
  match location with
  | Location.annotation => annotations
  | .label => labels

inductive CriticalRule where
  | stem (stem : String) (possibleValues : List String) (location : Location)
  | requiredKey (key : String) (location : Location)
  deriving DecidableEq

/-- `.workflow_metadata_ruleset.yaml` -/
def rules : List CriticalRule :=
  [.stem "workflows.diamond.ac.uk/science-group"
      ["mx", "examples", "magnetic-materials", "condensed-matter", "imaging", "bio-cryo-imaging",
        "surfaces", "crystallography", "spectroscopy"] .label,
    .requiredKey "workflows.diamond.ac.uk/repository" Location.annotation]

def checkRequiredKey (key : String) (location : Location) (labels annotations : Yaml) :
    Except String Unit :=
  if ((location.pick labels annotations).get key).isNone then
    .error ("Expected " ++ key ++ " in " ++ location.display)
  else .ok ()

/-- The keys that a stem makes with its possible values, with what is found under them. -/
def stemEntries (stem : String) (possibleValues : List String) (location : Location)
    (labels annotations : Yaml) : List (String × Yaml) :=
  possibleValues.filterMap fun option =>
    let formattedOption := stem ++ "-" ++ option
    ((location.pick labels annotations).get formattedOption).map fun value =>
      (formattedOption, value)

def checkStem (stem : String) (possibleValues : List String) (location : Location)
    (labels annotations : Yaml) : Except String Unit :=
  let entries := stemEntries stem possibleValues location labels annotations
  if entries = [] then
    .error ("Expected " ++ stem ++ "-<" ++ ", ".intercalate possibleValues ++ "> in " ++
      location.display)
  else
    let malformedTags := entries.filter fun entry =>
      !entry.2.isText "true" && !entry.2.isText "false"
    if malformedTags ≠ [] then
      .error ("Expected values to be 'true' or 'false'. The following tags failed: " ++
        ", ".intercalate (malformedTags.map (·.1)))
    else .ok ()

def CriticalRule.check (rule : CriticalRule) (labels annotations : Yaml) : Except String Unit :=
  match rule with
  | .requiredKey key location => checkRequiredKey key location labels annotations
  | .stem text possibleValues location => checkStem text possibleValues location labels annotations

/-- The errors of the rules that are not met. -/
def validate (labels annotations : Yaml) : List String :=
  rules.filterMap fun rule =>
    match rule.check labels annotations with
    | .ok () => none
    | .error e => some e

def lintLabels (manifest : Yaml) : Except String (List String) :=
  match manifest.asMapping with
  | none =>
    .error "Invalid manifest: expected a YAML object (key-value pairs), but got a different type."
  | some entries =>
    match Yaml.Mapping.get entries "metadata" with
    | none =>
      .error ("Invalid manifest: metadata is missing. Metadata must be an object containing " ++
        "fields like name, labels and annotations. The metadata format is described at " ++
        "https://diamondlightsource.github.io/workflows/docs")
    | some metadata =>
      match metadata.get "labels" with
      | none =>
        .error ("Invalid labels: Labels are missing. The labels format is described at " ++
          "https://diamondlightsource.github.io/workflows/docs")
      | some labels =>
        match metadata.get "annotations" with
        | none =>
          .error ("Invalid annotations: Annotations are missing. The annotations format is " ++
            "described at https://diamondlightsource.github.io/workflows/docs")
        | some annotations => .ok (validate labels annotations)

section Rules

variable {labels annotations : Yaml}

/-- What a rule asks of the metadata. -/
def CriticalRule.Holds (labels annotations : Yaml) : CriticalRule → Prop
  | .requiredKey key location => ((location.pick labels annotations).get key).isSome
  | .stem text possibleValues location =>
    (∃ option ∈ possibleValues,
      ((location.pick labels annotations).get (text ++ "-" ++ option)).isSome) ∧
    ∀ option ∈ possibleValues, ∀ value,
      (location.pick labels annotations).get (text ++ "-" ++ option) = some value →
        value.asStr = some "true" ∨ value.asStr = some "false"

theorem mem_stemEntries_iff {stem : String} {possibleValues : List String} {location : Location}
    {key : String} {value : Yaml} :
    (key, value) ∈ stemEntries stem possibleValues location labels annotations ↔
      ∃ option ∈ possibleValues, key = stem ++ "-" ++ option ∧
        (location.pick labels annotations).get key = some value := by
  rw [stemEntries, List.mem_filterMap]
  constructor
  · rintro ⟨option, hoption, hentry⟩
    obtain ⟨found, hfound, heq⟩ := Option.map_eq_some_iff.mp hentry
    cases heq
    exact ⟨option, hoption, rfl, hfound⟩
  · rintro ⟨option, hoption, rfl, hfound⟩
    exact ⟨option, hoption, by simp [hfound]⟩

theorem checkStem_eq_ok_iff {stem : String} {possibleValues : List String} {location : Location} :
    checkStem stem possibleValues location labels annotations = .ok () ↔
      (CriticalRule.stem stem possibleValues location).Holds labels annotations := by
  have hsome : stemEntries stem possibleValues location labels annotations ≠ [] ↔
      ∃ option ∈ possibleValues,
        ((location.pick labels annotations).get (stem ++ "-" ++ option)).isSome := by
    constructor
    · intro hne
      obtain ⟨⟨key, value⟩, hentry⟩ := List.exists_mem_of_ne_nil _ hne
      obtain ⟨option, hoption, rfl, hfound⟩ := mem_stemEntries_iff.mp hentry
      exact ⟨option, hoption, by rw [hfound]; rfl⟩
    · rintro ⟨option, hoption, hfound⟩
      obtain ⟨value, hvalue⟩ := Option.isSome_iff_exists.mp hfound
      exact List.ne_nil_of_mem (mem_stemEntries_iff.mpr ⟨option, hoption, rfl, hvalue⟩)
  have hgood : ((stemEntries stem possibleValues location labels annotations).filter fun entry =>
      !entry.2.isText "true" && !entry.2.isText "false") = [] ↔
      ∀ option ∈ possibleValues, ∀ value,
        (location.pick labels annotations).get (stem ++ "-" ++ option) = some value →
          value.asStr = some "true" ∨ value.asStr = some "false" := by
    rw [List.filter_eq_nil_iff]
    constructor
    · intro hall option hoption value hfound
      have hnot := hall _ (mem_stemEntries_iff.mpr ⟨option, hoption, rfl, hfound⟩)
      by_contra hneither
      obtain ⟨htrue, hfalse⟩ := not_or.mp hneither
      exact hnot (by simp [Yaml.isText, htrue, hfalse])
    · rintro hall ⟨key, value⟩ hentry
      obtain ⟨option, hoption, rfl, hfound⟩ := mem_stemEntries_iff.mp hentry
      obtain htrue | hfalse := hall option hoption value hfound
      · simp [Yaml.isText, htrue]
      · simp [Yaml.isText, hfalse]
  rw [CriticalRule.Holds, ← hsome, ← hgood, checkStem]
  dsimp only
  split_ifs with hempty hmalformed
  · exact iff_of_false nofun fun h => h.1 hempty
  · exact iff_of_false nofun fun h => hmalformed h.2
  · exact iff_of_true rfl ⟨hempty, not_not.mp hmalformed⟩

theorem CriticalRule.check_eq_ok_iff (rule : CriticalRule) :
    rule.check labels annotations = .ok () ↔ rule.Holds labels annotations := by
  cases rule with
  | stem text possibleValues location => exact checkStem_eq_ok_iff
  | requiredKey key location =>
    rw [check, checkRequiredKey, Holds, ← Option.not_isNone]
    cases ((location.pick labels annotations).get key).isNone <;> simp

/-- Nothing is reported exactly when all rules hold. -/
theorem validate_eq_nil_iff :
    validate labels annotations = [] ↔ ∀ rule ∈ rules, rule.Holds labels annotations := by
  rw [validate, List.filterMap_eq_nil_iff]
  refine forall₂_congr fun rule _ => ?_
  rw [← rule.check_eq_ok_iff]
  cases rule.check labels annotations with
  | ok u => simp
  | error e => simp

/-- The metadata has labels and annotations that all rules hold of. -/
def RulesHold (manifest : Yaml) : Prop :=
  ∃ entries metadata labels annotations, manifest.asMapping = some entries ∧
    Yaml.Mapping.get entries "metadata" = some metadata ∧ metadata.get "labels" = some labels ∧
    metadata.get "annotations" = some annotations ∧ ∀ rule ∈ rules, rule.Holds labels annotations

theorem lintLabels_eq_ok_nil_iff {manifest : Yaml} :
    lintLabels manifest = .ok [] ↔ RulesHold manifest := by
  constructor
  · intro h
    rw [lintLabels] at h
    split at h
    · cases h
    next entries hentries =>
      split at h
      · cases h
      next metadata hmetadata =>
        split at h
        · cases h
        next labels hlabels =>
          split at h
          · cases h
          next annotations hannotations =>
            exact ⟨entries, metadata, labels, annotations, hentries, hmetadata, hlabels,
              hannotations, validate_eq_nil_iff.mp (Except.ok.inj h)⟩
  · rintro ⟨entries, metadata, labels, annotations, hentries, hmetadata, hlabels, hannotations,
      hrules⟩
    simp only [lintLabels, hentries, hmetadata, hlabels, hannotations,
      validate_eq_nil_iff.mpr hrules]

end Rules

end Cli

end Workflows
