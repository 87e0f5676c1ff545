import Mathlib.Data.List.AList
import Workflows.Foundations.JsonText
import Workflows.Foundations.Separator

/-!
# The parameters of a Workflow

A parameter is submitted as one text, which Argo splits again into a name and a value. What a
Workflow was submitted with is read back from the values that Argo has stored, and a form that
submits the Workflow once more starts with what was read back.
-/

namespace Workflows.GraphProxy

/-- `serde_json`: its `Value` keeps a number as it is printed and the keys of an object sorted, and
nothing that nests deeper than 127 is read. -/
structure SerdeJson where
  IsNumber : String → Prop
  fromStr : String → Option Json
  toText : Json → String
  canonical_fromStr {s : String} {v : Json} : fromStr s = some v → v.Canonical IsNumber
  fromStr_toText {v : Json} : v.Canonical IsNumber →
    fromStr (toText v) = if v.nesting ≤ 127 then some v else none
  fromStr_ne_string (s : String) : fromStr s ≠ some (.string s)
  toText_bool (b : Bool) : toText (.bool b) = toString b
  toText_number (text : String) : toText (.number text) = text

def SerdeJson.ofFormat (format : Json.NumberFormat) : SerdeJson where
  IsNumber := format.IsNumber
  fromStr s := Json.parse format 127 s.toList
  toText v := String.ofList v.text
  canonical_fromStr h := Json.canonical_of_parse h
  fromStr_toText h := by rw [String.toList_ofList, Json.parse_text h]
  fromStr_ne_string s h := by
    have hlt := Json.length_lt_of_parse_string h
    rw [String.length_toList] at hlt
    omega
  toText_bool b := by cases b <;> rfl
  toText_number text := String.ofList_toList

/-- A `HashMap` from names to values, or an object of JavaScript. -/
abbrev ValueMap := AList fun _ : String => Json

structure Parameter where
  name : String
  value : Option String
  deriving DecidableEq

section Encoder

variable (serde : SerdeJson)

def argoValue : Json → Option String
  | .null => none
  | .bool b => some (toString b)
  | .number text => some text
  | .string s => some s
  | .array items => some (serde.toText (.array items))
  | .object entries => some (serde.toText (.object entries))

def toArgoParameter (name : String) (value : Json) : Option String :=
  (argoValue serde value).map fun parameter => name ++ "=" ++ parameter

def submitOptsParameters (parameters : ValueMap) : List String :=
  parameters.entries.filterMap fun entry => toArgoParameter serde entry.1 entry.2

/-- What Argo makes of one of the submitted texts. -/
def splitParameter (text : String) : Option Parameter :=
  match text.toList.span (· ≠ '=') with
  | (name, _ :: value) => some ⟨String.ofList name, some (String.ofList value)⟩
  | (_, []) => none

end Encoder

section Decoder

variable (serde : SerdeJson)

def parameterValue (p : Parameter) : Json :=
  match p.value with
  | some v => (serde.fromStr v).getD (.string v)
  | none => .null

def insertParameters (parameters : List Parameter) (map : ValueMap) : ValueMap :=
  parameters.foldl (fun map p => map.insert p.name (parameterValue serde p)) map

/-- The resolver, of the arguments in the manifest. -/
def parameters (arguments : Option (List Parameter)) : Option ValueMap :=
  arguments.map fun parameters => insertParameters serde parameters ∅

def fromEntries (searchParams : List (String × String)) : ValueMap :=
  searchParams.foldl (fun map entry => map.insert entry.1 (.string entry.2)) ∅

/-- The fields that are spread later go over the earlier ones. -/
def mergeParameters (reusedParameterData : Option (Option ValueMap))
    (searchParams : List (String × String)) : ValueMap :=
  fromEntries searchParams ∪ reusedParameterData.join.getD ∅

end Decoder

section Values

variable {serde : SerdeJson}

/-- A value that is submitted as its JSON text. -/
def IsJsonText (v : Json) : Prop := v ≠ .null ∧ ∀ s, v ≠ .string s

theorem argoValue_of_isJsonText {v : Json} (h : IsJsonText v) :
    argoValue serde v = some (serde.toText v) := by
  cases v with
  | null => exact absurd rfl h.1
  | bool b => rw [argoValue, serde.toText_bool]
  | number text => rw [argoValue, serde.toText_number]
  | string s => exact absurd rfl (h.2 s)
  | array items => rfl
  | object entries => rfl

/-- What comes back of a value: strings that are no JSON, and what nests no deeper than is read. -/
def ReadsAsItself (serde : SerdeJson) : Json → Prop
  | .string s => serde.fromStr s = none
  | v => v.nesting ≤ 127

theorem readsAsItself_of_isJsonText {v : Json} (h : IsJsonText v) :
    ReadsAsItself serde v ↔ v.nesting ≤ 127 := by
  cases v with
  | string s => exact absurd rfl (h.2 s)
  | _ => rfl

theorem getD_fromStr_string_iff {s : String} :
    (serde.fromStr s).getD (.string s) = .string s ↔ serde.fromStr s = none := by
  cases hread : serde.fromStr s with
  | none => simp
  | some v =>
    refine iff_of_false ?_ (by simp)
    rintro rfl
    exact serde.fromStr_ne_string s hread

theorem getD_fromStr_toText_iff {v : Json} (hcanonical : v.Canonical serde.IsNumber)
    (h : IsJsonText v) :
    (serde.fromStr (serde.toText v)).getD (.string (serde.toText v)) = v ↔ v.nesting ≤ 127 := by
  rw [serde.fromStr_toText hcanonical]
  split_ifs with hnesting
  · exact iff_of_true rfl hnesting
  · exact iff_of_false (h.2 _).symm hnesting

/-- A value that is submitted comes back as itself or as something else. -/
theorem parameterValue_argoValue_iff {v : Json} (hcanonical : v.Canonical serde.IsNumber)
    (hnull : v ≠ .null) (name : String) :
    parameterValue serde ⟨name, argoValue serde v⟩ = v ↔ ReadsAsItself serde v := by
  obtain ⟨s, rfl⟩ | hstring := em (∃ s, v = .string s)
  · exact getD_fromStr_string_iff
  · have htext : IsJsonText v := ⟨hnull, fun s hs => hstring ⟨s, hs⟩⟩
    rw [readsAsItself_of_isJsonText htext, argoValue_of_isJsonText htext]
    exact getD_fromStr_toText_iff hcanonical htext

/-- A stored text that is no JSON, or the text that a value other than null or a string has. -/
def SubmittedAsStored (serde : SerdeJson) (s : String) : Prop :=
  serde.fromStr s = none ∨
    ∃ v : Json, v.Canonical serde.IsNumber ∧ IsJsonText v ∧ serde.toText v = s

theorem argoValue_getD_string {s : String} (h : serde.fromStr s = none) :
    argoValue serde ((serde.fromStr s).getD (.string s)) = some s := by
  rw [h]
  rfl

theorem argoValue_parameterValue_iff (name s : String) :
    argoValue serde (parameterValue serde ⟨name, some s⟩) = some s ↔ SubmittedAsStored serde s := by
  rw [parameterValue]
  dsimp only
  constructor
  · intro h
    cases hread : serde.fromStr s with
    | none => exact .inl hread
    | some v =>
      rw [hread, Option.getD_some] at h
      have htext : IsJsonText v := by
        refine ⟨?_, ?_⟩
        · rintro rfl
          cases h
        · rintro t rfl
          obtain rfl := Option.some_inj.mp h
          exact serde.fromStr_ne_string t hread
      rw [argoValue_of_isJsonText htext] at h
      exact .inr ⟨v, serde.canonical_fromStr hread, htext, Option.some_inj.mp h⟩
  · rintro (hread | ⟨v, hcanonical, htext, rfl⟩)
    · exact argoValue_getD_string hread
    · have hread := serde.fromStr_toText hcanonical
      split_ifs at hread with hnesting
      · rw [hread, Option.getD_some, argoValue_of_isJsonText htext]
      · exact argoValue_getD_string hread

end Values

section Store

variable {serde : SerdeJson}

theorem toArgoParameter_eq_some_iff {name text : String} {v : Json} :
    toArgoParameter serde name v = some text ↔
      ∃ s, argoValue serde v = some s ∧ name ++ "=" ++ s = text :=
  Option.map_eq_some_iff

theorem toList_parameter (name value : String) :
    (name ++ "=" ++ value).toList = name.toList ++ '=' :: value.toList := by
  simp

theorem splitParameter_append {name : String} (h : '=' ∉ name.toList) (value : String) :
    splitParameter (name ++ "=" ++ value) = some ⟨name, some value⟩ := by
  rw [splitParameter, toList_parameter, Separator.span_append h]
  simp

theorem parameter_inj {name name' value value' : String} (hname : '=' ∉ name.toList)
    (hname' : '=' ∉ name'.toList) (h : name ++ "=" ++ value = name' ++ "=" ++ value') :
    name = name' ∧ value = value' := by
  have hsplit := congrArg splitParameter h
  rw [splitParameter_append hname, splitParameter_append hname'] at hsplit
  obtain ⟨hfst, hsnd⟩ := Parameter.mk.inj (Option.some_inj.mp hsplit)
  exact ⟨hfst, Option.some_inj.mp hsnd⟩

/-- Names of their own are all kept. -/
theorem entries_insertParameters {ps : List Parameter} (hnodup : (ps.map (·.name)).Nodup)
    {map : ValueMap} (hnew : ∀ p ∈ ps, p.name ∉ map) :
    (insertParameters serde ps map).entries.Perm
      (ps.map (fun p => ⟨p.name, parameterValue serde p⟩) ++ map.entries) := by
  induction ps generalizing map with
  | nil => exact List.Perm.refl _
  | cons p ps ih =>
    obtain ⟨hfirst, hrest⟩ := List.nodup_cons.mp hnodup
    obtain ⟨hp, hps⟩ := List.forall_mem_cons.mp hnew
    have hinserted : ∀ q ∈ ps, q.name ∉ map.insert p.name (parameterValue serde p) := by
      intro q hq hmem
      obtain heq | hmem := (AList.mem_insert map).mp hmem
      · exact hfirst (List.mem_map.mpr ⟨q, hq, heq⟩)
      · exact hps q hq hmem
    have hstep := ih hrest hinserted
    rw [AList.entries_insert_of_notMem hp] at hstep
    exact hstep.trans List.perm_middle

theorem entries_insertParameters_empty {ps : List Parameter} (hnodup : (ps.map (·.name)).Nodup) :
    (insertParameters serde ps ∅).entries.Perm
      (ps.map fun p => ⟨p.name, parameterValue serde p⟩) := by
  have hentries : (insertParameters serde ps ∅).entries.Perm
      (ps.map (fun p => ⟨p.name, parameterValue serde p⟩) ++ (∅ : ValueMap).entries) :=
    entries_insertParameters hnodup fun p _ => AList.notMem_empty p.name
  rwa [AList.empty_entries, List.append_nil] at hentries

end Store

section ReadBack

/-- The JSON object of a submission; Argo takes the name up to the first `=`. -/
structure Submission (serde : SerdeJson) where
  values : ValueMap
  canonical : ∀ entry ∈ values.entries, entry.2.Canonical serde.IsNumber
  noEquals : ∀ entry ∈ values.entries, '=' ∉ entry.1.toList

def readBack (serde : SerdeJson) (values : ValueMap) : Option ValueMap :=
  ((submitOptsParameters serde values).mapM splitParameter).bind fun stored =>
    parameters serde (some stored)

/-- The same object comes back, save that values that were null may be missing. -/
def ReadsBack (serde : SerdeJson) (values : ValueMap) : Prop :=
  ∃ returned, readBack serde values = some returned ∧ ∀ name,
    returned.lookup name = values.lookup name ∨
      (values.lookup name = some .null ∧ returned.lookup name = none)

variable {serde : SerdeJson}

def storedOf (serde : SerdeJson) (entry : Sigma fun _ : String => Json) : Option Parameter :=
  (argoValue serde entry.2).map fun s => ⟨entry.1, some s⟩

theorem storedOf_of_none {entry : Sigma fun _ : String => Json}
    (h : argoValue serde entry.2 = none) : storedOf serde entry = none := by
  rw [storedOf, h, Option.map_none]

theorem storedOf_of_some {entry : Sigma fun _ : String => Json} {s : String}
    (h : argoValue serde entry.2 = some s) : storedOf serde entry = some ⟨entry.1, some s⟩ := by
  rw [storedOf, h, Option.map_some]

theorem mapM_splitParameter {entries : List (Sigma fun _ : String => Json)}
    (h : ∀ entry ∈ entries, '=' ∉ entry.1.toList) :
    (entries.filterMap fun entry => toArgoParameter serde entry.1 entry.2).mapM splitParameter =
      some (entries.filterMap (storedOf serde)) := by
  induction entries with
  | nil => rfl
  | cons entry entries ih =>
    obtain ⟨hentry, hentries⟩ := List.forall_mem_cons.mp h
    cases hvalue : argoValue serde entry.2 with
    | none =>
      have hargo : toArgoParameter serde entry.1 entry.2 = none := by
        rw [toArgoParameter, hvalue, Option.map_none]
      simp only [List.filterMap_cons, hargo, storedOf_of_none hvalue, ih hentries]
    | some s =>
      have hargo : toArgoParameter serde entry.1 entry.2 = some (entry.1 ++ "=" ++ s) := by
        rw [toArgoParameter, hvalue, Option.map_some]
      simp only [List.filterMap_cons, hargo, storedOf_of_some hvalue, List.mapM_cons,
        splitParameter_append hentry, ih hentries]
      rfl

theorem names_storedOf_sublist (entries : List (Sigma fun _ : String => Json)) :
    ((entries.filterMap (storedOf serde)).map (·.name)).Sublist entries.keys := by
  induction entries with
  | nil => exact List.Sublist.slnil
  | cons entry entries ih =>
    cases hvalue : argoValue serde entry.2 with
    | none =>
      rw [List.filterMap_cons_none (storedOf_of_none hvalue)]
      exact ih.cons entry.1
    | some s =>
      rw [List.filterMap_cons_some (storedOf_of_some hvalue)]
      exact ih.cons_cons entry.1

theorem argoValue_eq_none_iff {v : Json} : argoValue serde v = none ↔ v = .null := by
  cases v <;> simp [argoValue]

theorem readBack_eq_some (params : Submission serde) :
    ∃ returned, readBack serde params.values = some returned ∧
      returned.entries.Perm ((params.values.entries.filterMap (storedOf serde)).map fun p =>
        ⟨p.name, parameterValue serde p⟩) := by
  have hnodup : ((params.values.entries.filterMap (storedOf serde)).map (·.name)).Nodup :=
    params.values.keys_nodup.sublist (names_storedOf_sublist params.values.entries)
  refine ⟨_, ?_, entries_insertParameters_empty hnodup⟩
  rw [readBack, submitOptsParameters, mapM_splitParameter params.noEquals]
  rfl

theorem lookup_eq_some_iff_mem {map : ValueMap} {name : String} {v : Json} :
    map.lookup name = some v ↔ ⟨name, v⟩ ∈ map.entries :=
  AList.mem_lookup_iff

/-- What is read back under a name is what was submitted under it, printed and parsed. -/
theorem lookup_of_readBack {params : Submission serde} {returned : ValueMap}
    (h : returned.entries.Perm ((params.values.entries.filterMap (storedOf serde)).map fun p =>
        ⟨p.name, parameterValue serde p⟩)) (name : String) :
    returned.lookup name = (params.values.lookup name).bind fun v =>
      (argoValue serde v).map fun s => parameterValue serde ⟨name, some s⟩ := by
  refine Option.ext fun w => ?_
  rw [lookup_eq_some_iff_mem, h.mem_iff, List.mem_map, Option.bind_eq_some_iff]
  constructor
  · rintro ⟨p, hp, heq⟩
    obtain ⟨⟨submitted, v⟩, hentry, hstored⟩ := List.mem_filterMap.mp hp
    obtain ⟨s, hs, rfl⟩ := Option.map_eq_some_iff.mp hstored
    obtain ⟨rfl, hw⟩ := Sigma.mk.inj heq
    exact ⟨v, lookup_eq_some_iff_mem.mpr hentry, Option.map_eq_some_iff.mpr ⟨s, hs, eq_of_heq hw⟩⟩
  · rintro ⟨v, hv, hmap⟩
    obtain ⟨s, hs, rfl⟩ := Option.map_eq_some_iff.mp hmap
    have hentry := lookup_eq_some_iff_mem.mp hv
    exact ⟨⟨name, some s⟩, List.mem_filterMap.mpr ⟨⟨name, v⟩, hentry, storedOf_of_some hs⟩, rfl⟩

theorem lookup_of_readBack_of_ne_null {params : Submission serde} {returned : ValueMap}
    (h : returned.entries.Perm ((params.values.entries.filterMap (storedOf serde)).map fun p =>
        ⟨p.name, parameterValue serde p⟩)) {name : String} {v : Json}
    (hv : params.values.lookup name = some v) (hnull : v ≠ .null) :
    returned.lookup name = some (parameterValue serde ⟨name, argoValue serde v⟩) := by
  obtain ⟨s, hs⟩ := Option.ne_none_iff_exists'.mp (mt argoValue_eq_none_iff.mp hnull)
  rw [lookup_of_readBack h, hv, Option.bind_some, hs]
  rfl

/-- Parameters read back as submitted exactly where no string is JSON itself, and no array or
object nests deeper than is read. -/
theorem readsBack_iff (serde : SerdeJson) (params : Submission serde) :
    ReadsBack serde params.values ↔
      ∀ entry ∈ params.values.entries, ReadsAsItself serde entry.2 := by
  obtain ⟨returned, hread, hperm⟩ := readBack_eq_some params
  constructor
  · rintro ⟨w, hw, hsame⟩ ⟨name, v⟩ hentry
    obtain rfl := Option.some_inj.mp (hread.symm.trans hw)
    rcases eq_or_ne v .null with rfl | hnull
    · exact Nat.zero_le 127
    · have hv := lookup_eq_some_iff_mem.mpr hentry
      have hlookup := lookup_of_readBack_of_ne_null hperm hv hnull
      obtain heq | ⟨hnone, -⟩ := hsame name
      · rw [hlookup, hv, Option.some_inj] at heq
        exact (parameterValue_argoValue_iff (params.canonical _ hentry) hnull name).mp heq
      · rw [hv, Option.some_inj] at hnone
        exact absurd hnone hnull
  · intro hall
    refine ⟨returned, hread, fun name => ?_⟩
    cases hv : params.values.lookup name with
    | none =>
      rw [lookup_of_readBack hperm, hv]
      exact .inl rfl
    | some v =>
      rcases eq_or_ne v .null with rfl | hnull
      · rw [lookup_of_readBack hperm, hv]
        exact .inr ⟨rfl, rfl⟩
      · have hentry := lookup_eq_some_iff_mem.mp hv
        have hvalue := (parameterValue_argoValue_iff (params.canonical _ hentry) hnull name).mpr
          (hall _ hentry)
        rw [lookup_of_readBack_of_ne_null hperm hv hnull, hvalue]
        exact .inl rfl

/-- A string that reads like a truth value. -/
def flagSubmission : Submission (.ofFormat .verbatim) where
  values := AList.singleton "sample" (.string "true")
  canonical entry h := by
    obtain rfl := List.mem_singleton.mp h
    exact .string "true"
  noEquals entry h := by
    obtain rfl := List.mem_singleton.mp h
    decide

theorem not_readsBack :
    ¬∀ (serde : SerdeJson) (params : Submission serde), ReadsBack serde params.values := by
  intro h
  obtain ⟨returned, hread, hsame⟩ := h (.ofFormat .verbatim) flagSubmission
  have hflag : readBack (.ofFormat .verbatim) flagSubmission.values =
      some (AList.singleton "sample" (.bool true)) := rfl
  obtain rfl := Option.some_inj.mp (hread.symm.trans hflag)
  obtain heq | ⟨hnull, -⟩ := hsame "sample"
  · cases heq
  · cases hnull

end ReadBack

section Resubmit

/-- What Argo has stored of a Workflow that was submitted with values. -/
structure StoredParameters where
  entries : List (String × String)
  nodup : (entries.map (·.1)).Nodup
  noEquals : ∀ entry ∈ entries, '=' ∉ entry.1.toList

def StoredParameters.arguments (stored : StoredParameters) : List Parameter :=
  stored.entries.map fun entry => ⟨entry.1, some entry.2⟩

variable {serde : SerdeJson}

/-- A new form, of which nothing is overridden by the URL. -/
def resubmission (serde : SerdeJson) (stored : StoredParameters) : ValueMap :=
  mergeParameters (some (parameters serde (some stored.arguments))) []

/-- The form submits what is stored, in whatever order it holds its entries. -/
def Resubmits (serde : SerdeJson) (stored : StoredParameters) : Prop :=
  ∀ form : ValueMap, form.entries.Perm (resubmission serde stored).entries →
    (submitOptsParameters serde form).Perm
      (stored.entries.map fun entry => entry.1 ++ "=" ++ entry.2)

def resubmitted (serde : SerdeJson) (entry : String × String) : Option String :=
  toArgoParameter serde entry.1 (parameterValue serde ⟨entry.1, some entry.2⟩)

theorem mergeParameters_nil (map : ValueMap) : mergeParameters (some (some map)) [] = map :=
  AList.empty_union

theorem submitOptsParameters_resubmission (stored : StoredParameters) {form : ValueMap}
    (h : form.entries.Perm (resubmission serde stored).entries) :
    (submitOptsParameters serde form).Perm (stored.entries.filterMap (resubmitted serde)) := by
  have hnodup : (stored.arguments.map (·.name)).Nodup := by
    rw [StoredParameters.arguments, List.map_map]
    exact stored.nodup
  rw [resubmission, parameters, Option.map_some, mergeParameters_nil] at h
  have hentries := h.trans (entries_insertParameters_empty hnodup)
  rw [StoredParameters.arguments, List.map_map] at hentries
  have hsubmit := hentries.filterMap fun entry => toArgoParameter serde entry.1 entry.2
  rw [List.filterMap_map] at hsubmit
  exact hsubmit

theorem eq_of_mem_of_fst_eq {stored : StoredParameters} {a b : String × String}
    (ha : a ∈ stored.entries) (hb : b ∈ stored.entries) (h : a.1 = b.1) : a = b :=
  List.inj_on_of_nodup_map stored.nodup ha hb h

theorem eq_of_resubmitted {stored : StoredParameters} {a b : String × String}
    (ha : a ∈ stored.entries) (hb : b ∈ stored.entries)
    (h : resubmitted serde a = some (b.1 ++ "=" ++ b.2)) : a = b := by
  obtain ⟨s, -, htext⟩ := toArgoParameter_eq_some_iff.mp h
  obtain ⟨hname, -⟩ := parameter_inj (stored.noEquals a ha) (stored.noEquals b hb) htext
  exact eq_of_mem_of_fst_eq ha hb hname

theorem resubmitted_eq_some_iff {entry : String × String} :
    resubmitted serde entry = some (entry.1 ++ "=" ++ entry.2) ↔
      SubmittedAsStored serde entry.2 := by
  rw [resubmitted, toArgoParameter_eq_some_iff, ← argoValue_parameterValue_iff entry.1]
  constructor
  · rintro ⟨s, hs, htext⟩
    rw [hs, (String.append_right_inj _).mp htext]
  · intro hs
    exact ⟨entry.2, hs, rfl⟩

def nullParameters : StoredParameters where
  entries := [("sample", "null")]
  nodup := by decide
  noEquals := by decide

end Resubmit

end Workflows.GraphProxy
