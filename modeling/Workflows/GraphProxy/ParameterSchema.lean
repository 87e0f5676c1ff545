import Workflows.Foundations.Json

/-!
# The schema of a Workflow Template's arguments

The schemas of the parameters are embedded under `properties` of one schema, after `update_refs`
has put the path to the parameter in front of the references in each.
-/

namespace Workflows.GraphProxy

open Json

def stripPrefix (start text : String) : Option String :=
  (start.toList.isPrefixOf? text.toList).map String.ofList

def updateRef (pathPrefix reference : String) : String :=
  match stripPrefix "#/" reference with
  | some referenceKey => "#/properties/" ++ pathPrefix ++ "/" ++ referenceKey
  | none => reference

/-- What becomes of the value under a key of an object. A string has nothing inside it, so it is
the same whether the value under `$ref` is updated before it is walked or after. -/
def refValue (pathPrefix key : String) (value : Json) : Json :=
  if key = "$ref" then
    match value with
    | .string reference => .string (updateRef pathPrefix reference)
    | value => value
  else value

mutual

def doUpdate (pathPrefix : String) : Json → Json
  | .object schema => .object (doUpdateEntries pathPrefix schema)
  | .array items => .array (doUpdateItems pathPrefix items)
  | value => value

def doUpdateItems (pathPrefix : String) : List Json → List Json
  | [] => []
  | item :: items => doUpdate pathPrefix item :: doUpdateItems pathPrefix items

def doUpdateEntries (pathPrefix : String) : List (String × Json) → List (String × Json)
  | [] => []
  | (key, value) :: entries =>
    (key, refValue pathPrefix key (doUpdate pathPrefix value)) :: doUpdateEntries pathPrefix entries

end

/-- `From<ArgumentSchema> for Schema`. -/
def fromArgumentSchema (schemas : Std.TreeMap String Json) : Json :=
  .object [
    ("type", .string "object"),
    ("required", .array (schemas.keys.map .string)),
    ("properties", .object (schemas.toList.map fun entry => (entry.1, doUpdate entry.1 entry.2)))]

section Update

variable (pathPrefix : String)

theorem stripPrefix_eq_some_iff {start text rest : String} :
    stripPrefix start text = some rest ↔ text = start ++ rest := by
  rw [stripPrefix, Option.map_eq_some_iff]
  constructor
  · rintro ⟨cs, hcs, rfl⟩
    rw [List.isPrefixOf?_eq_some_iff_append_eq] at hcs
    rw [← String.toList_inj, String.toList_append, String.toList_ofList, hcs]
  · rintro rfl
    refine ⟨rest.toList, ?_, String.ofList_toList⟩
    rw [List.isPrefixOf?_eq_some_iff_append_eq, String.toList_append]

theorem updateRef_ne {reference : String} (h : (stripPrefix "#/" reference).isSome) :
    updateRef pathPrefix reference ≠ reference := by
  obtain ⟨key, hkey⟩ := Option.isSome_iff_exists.mp h
  have htext := stripPrefix_eq_some_iff.mp hkey
  intro heq
  rw [updateRef, hkey, htext] at heq
  have hlength := congrArg (fun s : String => s.toList.length) heq
  simp only [String.toList_append, List.length_append] at hlength
  have hlong : "#/properties/".toList.length = 13 := rfl
  have hshort : "#/".toList.length = 2 := rfl
  omega

theorem updateRef_of_none {reference : String} (h : stripPrefix "#/" reference = none) :
    updateRef pathPrefix reference = reference := by
  rw [updateRef, h]

theorem refValue_string (key reference : String) :
    refValue pathPrefix key (.string reference) =
      .string (if key = "$ref" then updateRef pathPrefix reference else reference) := by
  unfold refValue
  split <;> rfl

theorem refValue_of_ne_string (key : String) {value : Json} (h : ∀ s, value ≠ .string s) :
    refValue pathPrefix key value = value := by
  unfold refValue
  split
  · split
    next reference => exact absurd rfl (h reference)
    next => rfl
  · rfl

theorem doUpdate_ne_string {value : Json} (h : ∀ s, value ≠ .string s) (s : String) :
    doUpdate pathPrefix value ≠ .string s := by
  cases value with
  | string reference => exact absurd rfl (h reference)
  | _ => simp [doUpdate]

theorem doUpdateItems_eq_map (items : List Json) :
    doUpdateItems pathPrefix items = items.map (doUpdate pathPrefix) := by
  induction items with
  | nil => rfl
  | cons item items ih => rw [doUpdateItems, ih, List.map_cons]

theorem doUpdateEntries_eq_map (entries : List (String × Json)) :
    doUpdateEntries pathPrefix entries = entries.map fun entry =>
      (entry.1, refValue pathPrefix entry.1 (doUpdate pathPrefix entry.2)) := by
  induction entries with
  | nil => rfl
  | cons entry entries ih => rw [doUpdateEntries, ih, List.map_cons]

/-- The update changes no value but a string, whatever is inside it. -/
theorem head_doUpdate (value : Json) : (doUpdate pathPrefix value).head = value.head := by
  cases value with
  | object entries =>
    rw [doUpdate, head, head, doUpdateEntries_eq_map, List.map_map]
    rfl
  | array items => rw [doUpdate, head, head, doUpdateItems_eq_map, List.length_map]
  | _ => rfl

theorem child_doUpdate (value : Json) (token : String) :
    (doUpdate pathPrefix value).child token =
      (value.child token).map fun v => refValue pathPrefix token (doUpdate pathPrefix v) := by
  cases value with
  | object entries =>
    rw [doUpdate, child, child, doUpdateEntries_eq_map]
    exact lookup_map entries (fun key v => refValue pathPrefix key (doUpdate pathPrefix v)) token
  | array items =>
    rw [doUpdate, child, child, doUpdateItems_eq_map]
    cases hindex : arrayIndex token with
    | none => rfl
    | some i =>
      have htoken : token ≠ "$ref" := by
        rintro rfl
        have hnone : arrayIndex "$ref" = none := by decide
        rw [hnone] at hindex
        cases hindex
      simp [refValue, htoken]
  | _ => rfl

def imageAt (path : List String) (value : Json) : Json :=
  match path.getLast? with
  | some key => refValue pathPrefix key (doUpdate pathPrefix value)
  | none => doUpdate pathPrefix value

theorem imageAt_of_ne_string (path : List String) {value : Json} (h : ∀ s, value ≠ .string s) :
    imageAt pathPrefix path value = doUpdate pathPrefix value := by
  unfold imageAt
  split
  · exact refValue_of_ne_string pathPrefix _ (doUpdate_ne_string pathPrefix h)
  · rfl

theorem imageAt_string (path : List String) (s : String) :
    imageAt pathPrefix path (.string s) =
      .string (if path.getLast? = some "$ref" then updateRef pathPrefix s else s) := by
  unfold imageAt
  cases path.getLast? with
  | none => rfl
  | some key => simp [doUpdate, refValue_string]

theorem get_refValue_doUpdate (key : String) (value : Json) (token : String) (path : List String) :
    (refValue pathPrefix key (doUpdate pathPrefix value)).get (token :: path) =
      (doUpdate pathPrefix value).get (token :: path) := by
  cases value with
  | string s =>
    rw [doUpdate, refValue_string]
    rfl
    all_goals nofun
  | _ => rw [refValue_of_ne_string pathPrefix key (doUpdate_ne_string pathPrefix (by simp))]

theorem get_doUpdate (value : Json) (path : List String) :
    (doUpdate pathPrefix value).get path = (value.get path).map (imageAt pathPrefix path) := by
  induction path generalizing value with
  | nil => rfl
  | cons token path ih =>
    rw [Json.get, Json.get, child_doUpdate]
    cases value.child token with
    | none => rfl
    | some v =>
      rw [Option.map_some, Option.bind_some, Option.bind_some]
      cases path with
      | nil => rfl
      | cons next rest => rw [get_refValue_doUpdate, ih]; rfl

end Update

end Workflows.GraphProxy
