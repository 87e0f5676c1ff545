import Workflows.GraphProxy.ParameterSchema

/-!
# References in the combined schema

A local reference is a pointer into the schema of its own parameter. After the embedding it has to
lead to the image of what it led to, and nothing but local references may have changed.
-/

namespace Workflows.GraphProxy

open Json

section Schema

/-- The keywords of Draft 2020-12 whose value is a schema. -/
def schemaKeywords : List String :=
  ["additionalProperties", "propertyNames", "items", "contains", "not", "if", "then", "else",
    "unevaluatedItems", "unevaluatedProperties", "contentSchema"]

def schemaArrayKeywords : List String := ["allOf", "anyOf", "oneOf", "prefixItems"]

def schemaObjectKeywords : List String :=
  -- the last two are deprecated, but the meta-schema still has them
  ["properties", "patternProperties", "dependentSchemas", "$defs", "definitions", "dependencies"]

def holdsSchemas (keyword : String) : Json → Bool
  | .array _ => keyword ∈ schemaArrayKeywords
  | .object _ => keyword ∈ schemaObjectKeywords
  | _ => false

/-- The path leads from a schema to a subschema through keywords, not through data. -/
def isSchemaPath : Json → List String → Bool
  | _, [] => true
  | .object entries, keyword :: path =>
    match entries.lookup keyword with
    | none => false
    | some value =>
      if keyword ∈ schemaKeywords then isSchemaPath value path
      else
        match path with
        | [] => false
        | token :: path' =>
          match value.child token with
          | some schema => holdsSchemas keyword value && isSchemaPath schema path'
          | none => false
  | _, _ :: _ => false

def isSchema : Json → Bool
  | .object _ => true
  | .bool _ => true
  | _ => false

def RefAt (document : Json) (path : List String) (reference : String) : Prop :=
  document.get (path ++ ["$ref"]) = some (.string reference)

/-- The schema at the path refers to the subschema `target` of its document. -/
structure LocalRef (document : Json) (path : List String) (reference : String) (target : Json) :
    Prop where
  keyword : isSchemaPath document path
  ref : RefAt document path reference
  form : reference = "#" ∨ (stripPrefix "#/" reference).isSome
  resolves : resolve document reference = some target
  subschema : isSchema target

/-- The parameter's schema keeps its meaning in the combined one. -/
structure Preserved (combined : Json) (name : String) (schema : Json) : Prop where
  resolution : ∀ path reference target, LocalRef schema path reference target →
    ∃ updated, RefAt combined ("properties" :: name :: path) updated ∧
      resolve combined updated = some (doUpdate name target)
  unchanged : ∀ path value, schema.get path = some value →
    (∀ parent reference target, path = parent ++ ["$ref"] →
      ¬LocalRef schema parent reference target) →
    ∃ value', combined.get ("properties" :: name :: path) = some value' ∧ value'.head = value.head

/-- No schema refers to the root, and whatever looks like a pointer is a local reference. -/
structure OnlyPointers (schema : Json) : Prop where
  not_root : ∀ path, isSchemaPath schema path → ¬RefAt schema path "#"
  pointer : ∀ path reference, RefAt schema path reference →
    (stripPrefix "#/" reference).isSome → ∃ target, LocalRef schema path reference target

theorem object_of_refAt {document : Json} {path : List String} {reference : String}
    (h : RefAt document path reference) (hpath : isSchemaPath document path) :
    ∃ entries, document = .object entries := by
  cases path with
  | nil =>
    obtain ⟨v, hv, -⟩ := Option.bind_eq_some_iff.mp h
    exact object_of_child_isSome (by decide) hv
  | cons token path =>
    cases document with
    | object entries => exact ⟨entries, rfl⟩
    | _ => simp [isSchemaPath] at hpath

end Schema

section Combined

variable {schemas : Std.TreeMap String Json} {name : String} {schema : Json}

theorem lookup_toList (h : schemas[name]? = some schema) :
    schemas.toList.lookup name = some schema := by
  have hmem : (name, schema) ∈ schemas.toList := Std.TreeMap.mem_toList_iff_getElem?_eq_some.mpr h
  obtain ⟨front, back, hsplit⟩ := List.append_of_mem hmem
  refine List.lookup_eq_some_iff.mpr ⟨front, back, hsplit, fun entry hentry => ?_⟩
  have hdistinct := Std.TreeMap.distinct_keys_toList (t := schemas)
  rw [hsplit, List.pairwise_append] at hdistinct
  have hkey : ¬compare entry.1 name = .eq :=
    hdistinct.2.2 entry hentry (name, schema) List.mem_cons_self
  rw [Std.LawfulEqCmp.compare_eq_iff_eq] at hkey
  exact bne_iff_ne.mpr (Ne.symm hkey)

theorem get_combined (h : schemas[name]? = some schema) (path : List String) :
    (fromArgumentSchema schemas).get ("properties" :: name :: path) =
      (schema.get path).map (imageAt name path) := by
  have hproperties : (fromArgumentSchema schemas).child "properties" =
      some (.object (schemas.toList.map fun entry => (entry.1, doUpdate entry.1 entry.2))) := rfl
  rw [Json.get, hproperties, Option.bind_some, Json.get, child, lookup_map _ doUpdate,
    lookup_toList h, Option.map_some, Option.bind_some, get_doUpdate]

theorem combined_ne (h : schemas[name]? = some schema) :
    fromArgumentSchema schemas ≠ doUpdate name schema := by
  intro heq
  have hget : (fromArgumentSchema schemas).get ["properties", name] = some (doUpdate name schema) :=
    get_combined h []
  have hlt := sizeOf_get_lt hget
  rw [← heq] at hlt
  exact Nat.lt_irrefl _ hlt

end Combined

section Pointer

def PlainName (name : String) : Prop :=
  '/' ∉ name.toList ∧ '~' ∉ name.toList ∧ '%' ∉ name.toList

theorem tokenOf_of_not_mem {token : String} (h : '~' ∉ token.toList) :
    tokenOf token.toList = some token := by
  rw [tokenOf, unescape_of_not_mem h, Option.map_some, String.ofList_toList]

theorem parsePointer_properties {name : String} (hname : PlainName name) (rest : List Char) :
    parsePointer ('/' :: ("properties".toList ++ '/' :: (name.toList ++ '/' :: rest))) =
      (parsePointer ('/' :: rest)).map fun tokens => "properties" :: name :: tokens := by
  obtain ⟨hslash, htilde, -⟩ := hname
  rw [parsePointer, if_pos rfl, parsePointer, if_pos rfl, splitTokens_append (by decide),
    splitTokens_append hslash, List.mapM_cons, List.mapM_cons, tokenOf_of_not_mem (by decide),
    tokenOf_of_not_mem htilde]
  cases (splitTokens rest).mapM tokenOf <;> rfl

/-- The updated reference is the same pointer below the parameter. -/
theorem pointerOf_updateRef {name reference : String} (hname : PlainName name)
    (h : (stripPrefix "#/" reference).isSome) :
    pointerOf (updateRef name reference) =
      (pointerOf reference).map fun tokens => "properties" :: name :: tokens := by
  obtain ⟨key, hkey⟩ := Option.isSome_iff_exists.mp h
  obtain rfl := stripPrefix_eq_some_iff.mp hkey
  have hold : ("#/" ++ key).toList = '#' :: '/' :: key.toList := by
    rw [String.toList_append]
    rfl
  have hnew : (updateRef name ("#/" ++ key)).toList =
      '#' :: (('/' :: ("properties".toList ++ '/' :: (name.toList ++ ['/']))) ++ key.toList) := by
    rw [updateRef, hkey]
    simp only [String.toList_append, List.append_assoc]
    simp
  have hplain : '%' ∉ '/' :: ("properties".toList ++ '/' :: (name.toList ++ ['/'])) := by
    simp [hname.2.2]
  have hfront : '%' ∉ ['/'] := by decide
  have hslash : percentDecode none ('/' :: key.toList) =
      (percentDecode none key.toList).map ('/' :: ·) := percentDecode_append hfront key.toList
  rw [pointerOf_of_toList hnew, pointerOf_of_toList hold, percentDecode_append hplain, hslash]
  cases percentDecode none key.toList with
  | none => rfl
  | some rest =>
    rw [Option.map_some, Option.map_some, Option.bind_some, Option.bind_some,
      ← parsePointer_properties hname]
    simp

end Pointer

section Preserved

variable {schemas : Std.TreeMap String Json} {name : String} {schema : Json}

theorem ne_string_of_isSchema {target : Json} (h : isSchema target) (s : String) :
    target ≠ .string s := by
  rintro rfl
  cases h

theorem refAt_combined (h : schemas[name]? = some schema) {path : List String} {reference : String}
    (href : RefAt schema path reference) :
    RefAt (fromArgumentSchema schemas) ("properties" :: name :: path)
      (updateRef name reference) := by
  rw [RefAt, List.cons_append, List.cons_append, get_combined h, href, Option.map_some,
    imageAt_string, List.getLast?_concat, if_pos rfl]

theorem resolve_combined (hname : PlainName name) (h : schemas[name]? = some schema)
    {reference : String} {target : Json} (hform : (stripPrefix "#/" reference).isSome)
    (hresolves : resolve schema reference = some target) (htarget : isSchema target) :
    resolve (fromArgumentSchema schemas) (updateRef name reference) =
      some (doUpdate name target) := by
  obtain ⟨tokens, htokens, hget⟩ := Option.bind_eq_some_iff.mp hresolves
  rw [resolve, pointerOf_updateRef hname hform, htokens, Option.map_some, Option.bind_some,
    get_combined h, hget, Option.map_some,
    imageAt_of_ne_string name tokens (ne_string_of_isSchema htarget)]

theorem preserved_of_onlyPointers (hname : PlainName name) (h : schemas[name]? = some schema)
    (honly : OnlyPointers schema) : Preserved (fromArgumentSchema schemas) name schema := by
  constructor
  · intro path reference target hlocal
    refine ⟨updateRef name reference, refAt_combined h hlocal.ref, ?_⟩
    rcases hlocal.form with rfl | hform
    · exact absurd hlocal.ref (honly.not_root path hlocal.keyword)
    · exact resolve_combined hname h hform hlocal.resolves hlocal.subschema
  · intro path value hget hother
    refine ⟨imageAt name path value, ?_, ?_⟩
    · rw [get_combined h, hget, Option.map_some]
    · by_cases hstring : ∃ s, value = .string s
      · obtain ⟨s, rfl⟩ := hstring
        rw [imageAt_string]
        split
        next hlast =>
          obtain ⟨parent, rfl⟩ := List.getLast?_eq_some_iff.mp hlast
          rw [updateRef_of_none]
          by_contra hform
          obtain ⟨target, hlocal⟩ :=
            honly.pointer parent s hget (Option.isSome_iff_ne_none.mpr hform)
          exact hother parent s target rfl hlocal
        next => rfl
      · rw [imageAt_of_ne_string name path (not_exists.mp hstring), head_doUpdate]

theorem onlyPointers_of_preserved (h : schemas[name]? = some schema)
    (hpreserved : Preserved (fromArgumentSchema schemas) name schema) : OnlyPointers schema := by
  constructor
  · intro path hpath href
    obtain ⟨entries, hentries⟩ := object_of_refAt href hpath
    have hlocal : LocalRef schema path "#" schema :=
      ⟨hpath, href, .inl rfl, rfl, by rw [hentries]; rfl⟩
    obtain ⟨updated, hupdated, hresolves⟩ := hpreserved.resolution _ _ _ hlocal
    -- the root is left as it is, but in the combined schema it is another document
    have hsame := hupdated.symm.trans (refAt_combined h href)
    rw [updateRef_of_none name (by decide)] at hsame
    obtain rfl : updated = "#" := by simpa using hsame
    exact combined_ne h (Option.some_inj.mp hresolves)
  · intro path reference href hform
    by_contra hnot
    obtain ⟨value', hvalue', hhead⟩ := hpreserved.unchanged _ _ href (by
      intro parent other target hparent hlocal
      obtain ⟨rfl, -⟩ := List.append_inj' hparent rfl
      obtain rfl : reference = other := by
        simpa using href.symm.trans hlocal.ref
      exact hnot ⟨target, hlocal⟩)
    have hsame := hvalue'.symm.trans (refAt_combined h href)
    obtain rfl := Option.some_inj.mp hsame
    have hnew : updateRef name reference = reference := by simpa [head] using hhead
    exact updateRef_ne name hform hnew

/-- The schema of a parameter is preserved exactly when none of its schemas refers to the root and
each `$ref` that starts as a pointer, data included, is a local reference. -/
theorem fromArgumentSchema_preserved_iff (hnames : ∀ name ∈ schemas, PlainName name) :
    (∀ (name : String) (schema : Json), schemas[name]? = some schema →
      Preserved (fromArgumentSchema schemas) name schema) ↔
      ∀ (name : String) (schema : Json), schemas[name]? = some schema → OnlyPointers schema := by
  constructor
  · intro hpreserved name schema h
    exact onlyPointers_of_preserved h (hpreserved name schema h)
  · intro honly name schema h
    have hmem : name ∈ schemas := Std.TreeMap.mem_iff_isSome_getElem?.mpr (by rw [h]; rfl)
    exact preserved_of_onlyPointers (hnames name hmem) h (honly name schema h)

def exampleSchema : Json :=
  .object [("$ref", .string "#/$defs/size"), ("$defs", .object [("size", .bool true)])]

theorem refAt_exampleSchema {path : List String} {reference : String}
    (h : RefAt exampleSchema path reference) : path = [] ∧ reference = "#/$defs/size" := by
  cases path with
  | nil => exact ⟨rfl, (Json.string.inj (Option.some_inj.mp h)).symm⟩
  | cons token path =>
    exfalso
    obtain ⟨v, hv, hget⟩ := Option.bind_eq_some_iff.mp h
    have hmem := mem_of_child hv
    rw [List.mem_pair] at hmem
    rcases hmem with heq | heq <;> obtain ⟨-, rfl⟩ := Prod.mk.inj heq
    · cases path <;> cases hget
    · cases path with
      | nil => cases hget
      | cons next path =>
        obtain ⟨w, hw, hlast⟩ := Option.bind_eq_some_iff.mp hget
        obtain ⟨-, rfl⟩ := Prod.mk.inj (List.mem_singleton.mp (mem_of_child hw))
        cases path <;> cases hlast

theorem onlyPointers_exampleSchema : OnlyPointers exampleSchema := by
  constructor
  · intro path _ h
    exact absurd (refAt_exampleSchema h).2 (by decide)
  · intro path reference h hform
    obtain ⟨rfl, rfl⟩ := refAt_exampleSchema h
    have hpointer : pointerOf "#/$defs/size" = some ["$defs", "size"] := by decide +kernel
    have hresolves : resolve exampleSchema "#/$defs/size" = some (.bool true) := by
      rw [resolve, hpointer]
      rfl
    exact ⟨.bool true, rfl, h, .inr hform, hresolves, rfl⟩

def exampleSchemas : Std.TreeMap String Json := Std.TreeMap.ofList [("width", exampleSchema)]

theorem getElem?_exampleSchemas {name : String} {schema : Json}
    (h : exampleSchemas[name]? = some schema) : name = "width" ∧ schema = exampleSchema := by
  have hmem := Std.TreeMap.mem_toList_iff_getElem?_eq_some.mpr h
  have hlist : exampleSchemas.toList = [("width", exampleSchema)] := rfl
  rw [hlist, List.mem_singleton] at hmem
  exact Prod.mk.inj hmem

theorem fromArgumentSchema_preserved_example :
    Preserved (fromArgumentSchema exampleSchemas) "width" exampleSchema := by
  have hnames : ∀ name ∈ exampleSchemas, PlainName name := by
    intro name hmem
    obtain ⟨schema, h⟩ := Option.isSome_iff_exists.mp (Std.TreeMap.mem_iff_isSome_getElem?.mp hmem)
    obtain ⟨rfl, -⟩ := getElem?_exampleSchemas h
    exact ⟨by decide, by decide, by decide⟩
  refine (fromArgumentSchema_preserved_iff hnames).mpr (fun name schema h => ?_) "width" _ rfl
  obtain ⟨-, rfl⟩ := getElem?_exampleSchemas h
  exact onlyPointers_exampleSchema

def treeSchema : Json :=
  .object [("properties", .object [
    ("children", .object [("items", .object [("$ref", .string "#")])])])]

theorem fromArgumentSchema_not_preserved :
    ¬∀ schemas : Std.TreeMap String Json, (∀ name ∈ schemas, PlainName name) →
      ∀ (name : String) (schema : Json), schemas[name]? = some schema →
        Preserved (fromArgumentSchema schemas) name schema := by
  intro h
  have htree : (Std.TreeMap.ofList [("tree", treeSchema)] : Std.TreeMap String Json)["tree"]? =
      some treeSchema := rfl
  have hnames : ∀ name ∈ (Std.TreeMap.ofList [("tree", treeSchema)] : Std.TreeMap String Json),
      PlainName name := by
    intro name hmem
    rw [Std.TreeMap.mem_ofList] at hmem
    obtain rfl : name = "tree" := by simpa using hmem
    exact ⟨by decide, by decide, by decide⟩
  have honly := onlyPointers_of_preserved htree (h _ hnames "tree" treeSchema htree)
  exact honly.not_root ["properties", "children", "items"] (by decide) rfl

end Preserved

end Workflows.GraphProxy
