import Workflows.Foundations.JsonNormal

/-!
# UI schemas

A document is read by its tag, and then by the fields of the variant that the tag names; what the
variant has no field for is left out. A struct may also be read from an array that holds its fields
in order, and the tag of a variant within another may be its number.
-/

namespace Workflows.GraphProxy

open Json

inductive Variant where
  | control
  | horizontalLayout
  | verticalLayout
  | group
  | categorization
  | category
  deriving DecidableEq

namespace Variant

def name : Variant → String
  | control => "Control"
  | horizontalLayout => "HorizontalLayout"
  | verticalLayout => "VerticalLayout"
  | group => "Group"
  | categorization => "Categorization"
  | category => "Category"

def all : List Variant :=
  [control, horizontalLayout, verticalLayout, group, categorization, category]

def index : Variant → String
  | control => "0"
  | horizontalLayout => "1"
  | verticalLayout => "2"
  | group => "3"
  | categorization => "4"
  | category => "5"

def ofTag (nested : Bool) : Json → Option Variant
  | .string text => all.find? (·.name = text)
  | .number text => if nested then all.find? (·.index = text) else none
  | _ => none

end Variant

mutual

inductive UiSchema where
  | control (scope : String) (label : Option String) (options rule : Option Value)
  | horizontalLayout (elements : List UiSchema) (options rule : Option Value)
  | verticalLayout (elements : List UiSchema) (options rule : Option Value)
  | group (label : String) (elements : List UiSchema) (options rule : Option Value)
  | categorization (elements : List UiSchemaCategory) (options rule : Option Value)
  | category (content : UiSchemaCategory)

inductive UiSchemaCategory where
  | mk (label : String) (elements : List UiSchema) (options : Option Value)

end

namespace UiSchema

section Serialize

def optional (v : Option Value) : Json := (v.map Value.json).getD .null

def labelEntry (label : Option String) : List (String × Json) :=
  label.toList.map fun label => ("label", .string label)

mutual

def serialize : UiSchema → Json
  | control scope label options rule =>
    .object (("type", .string "Control") :: ("scope", .string scope) :: labelEntry label ++
      [("options", optional options), ("rule", optional rule)])
  | horizontalLayout elements options rule =>
    .object [("type", .string "HorizontalLayout"), ("elements", .array (serializeAll elements)),
      ("options", optional options), ("rule", optional rule)]
  | verticalLayout elements options rule =>
    .object [("type", .string "VerticalLayout"), ("elements", .array (serializeAll elements)),
      ("options", optional options), ("rule", optional rule)]
  | group label elements options rule =>
    .object [("type", .string "Group"), ("label", .string label),
      ("elements", .array (serializeAll elements)), ("options", optional options),
      ("rule", optional rule)]
  | categorization elements options rule =>
    .object [("type", .string "Categorization"),
      ("elements", .array (serializeCategories elements)), ("options", optional options),
      ("rule", optional rule)]
  | category content => .object (("type", .string "Category") :: categoryEntries content)

def categoryEntries : UiSchemaCategory → List (String × Json)
  | .mk label elements options =>
    [("label", .string label), ("elements", .array (serializeAll elements)),
      ("options", optional options)]

def serializeAll : List UiSchema → List Json
  | [] => []
  | head :: elements => serialize head :: serializeAll elements

def serializeCategories : List UiSchemaCategory → List Json
  | [] => []
  | head :: categories => .object (categoryEntries head) :: serializeCategories categories

end

def serializeCategory (content : UiSchemaCategory) : Json := .object (categoryEntries content)

end Serialize

section Deserialize

/-- The variant of a document, and the content that its fields are read from. -/
def tagged (nested : Bool) : Json → Option (Variant × Json)
  | .object entries =>
    match entries.filter (·.1 = "type") with
    | [(_, tag)] =>
      (Variant.ofTag nested tag).map (·, .object (entries.filter (·.1 ≠ "type")))
    | _ => none
  | .array (tag :: items) => (Variant.ofTag nested tag).map (·, .array items)
  | _ => none

def fieldsOf (names : List String) : Json → Option (List (String × Json))
  | .object entries =>
    if names.all fun name => entries.countP (·.1 = name) ≤ 1 then some entries else none
  | .array items => if items.length = names.length then some (names.zip items) else none
  | _ => none

def textOf : Json → Option String
  | .string text => some text
  | _ => none

def optionalTextOf : Json → Option (Option String)
  | .null => some none
  | .string text => some (some text)
  | _ => none

def optionOf : Json → Option Value
  | .null => none
  | v => some (Value.ofJson v)

def listOf {α : Type} (read : Json → Option α) : Json → Option (List α)
  | .array items => items.mapM read
  | _ => none

section Fields

variable (fields : List (String × Json)) (name : String)

def stringField : Option String := (fields.lookup name).bind textOf

def optionalStringField : Option (Option String) :=
  (fields.lookup name).elim (some none) optionalTextOf

def valueField : Option Value := (fields.lookup name).bind optionOf

def listField {α : Type} (read : Json → Option α) : Option (List α) :=
  (fields.lookup name).bind (listOf read)

end Fields

def readCategory (element : Json → Option UiSchema) (content : Json) : Option UiSchemaCategory := do
  let fields ← fieldsOf ["label", "elements", "options"] content
  return .mk (← stringField fields "label") (← listField fields "elements" element)
    (valueField fields "options")

def readVariant (element : Json → Option UiSchema) (content : Json) : Variant → Option UiSchema
  | .control => do
    let fields ← fieldsOf ["scope", "label", "options", "rule"] content
    return .control (← stringField fields "scope") (← optionalStringField fields "label")
      (valueField fields "options") (valueField fields "rule")
  | .horizontalLayout => do
    let fields ← fieldsOf ["elements", "options", "rule"] content
    return .horizontalLayout (← listField fields "elements" element)
      (valueField fields "options") (valueField fields "rule")
  | .verticalLayout => do
    let fields ← fieldsOf ["elements", "options", "rule"] content
    return .verticalLayout (← listField fields "elements" element)
      (valueField fields "options") (valueField fields "rule")
  | .group => do
    let fields ← fieldsOf ["label", "elements", "options", "rule"] content
    return .group (← stringField fields "label") (← listField fields "elements" element)
      (valueField fields "options") (valueField fields "rule")
  | .categorization => do
    let fields ← fieldsOf ["elements", "options", "rule"] content
    return .categorization (← listField fields "elements" (readCategory element))
      (valueField fields "options") (valueField fields "rule")
  | .category => (readCategory element content).map .category

/-- An element with no more than `depth` others around each other in it. -/
def element : Nat → Bool → Json → Option UiSchema
  | 0, _, _ => none
  | depth + 1, nested, doc =>
    (tagged nested doc).bind fun (variant, content) =>
      readVariant (element depth true) content variant

/-- The UI schema of a document that nests no deeper than `limit`. -/
def deserialize (limit : Nat) (doc : Json) : Option UiSchema :=
  if doc.nesting ≤ limit then element limit false doc else none

end Deserialize

section RoundTrip

theorem serializeAll_eq_map (elements : List UiSchema) :
    serializeAll elements = elements.map serialize := by
  induction elements with
  | nil => rfl
  | cons head elements ih => rw [serializeAll, ih, List.map_cons]

theorem serializeCategories_eq_map (categories : List UiSchemaCategory) :
    serializeCategories categories = categories.map serializeCategory := by
  induction categories with
  | nil => rfl
  | cons head categories ih =>
    rw [serializeCategories, ih, List.map_cons]
    rfl

@[simp] theorem ofTag_name (nested : Bool) (variant : Variant) :
    Variant.ofTag nested (.string variant.name) = some variant := by
  cases variant <;> rfl

theorem tagged_object (nested : Bool) (variant : Variant) {entries : List (String × Json)}
    (h : ∀ e ∈ entries, e.1 ≠ "type") :
    tagged nested (.object (("type", .string variant.name) :: entries)) =
      some (variant, .object entries) := by
  have hnone : entries.filter (·.1 = "type") = [] :=
    List.filter_eq_nil_iff.mpr fun e he => by simpa using h e he
  have hrest : entries.filter (·.1 ≠ "type") = entries :=
    List.filter_eq_self.mpr fun e he => by simpa using h e he
  rw [tagged, List.filter_cons_of_pos (by simp), hnone, List.filter_cons_of_neg (by simp), hrest]
  simp

theorem element_object (depth : Nat) (nested : Bool) (variant : Variant)
    {entries : List (String × Json)} (h : ∀ e ∈ entries, e.1 ≠ "type") :
    element (depth + 1) nested (.object (("type", .string variant.name) :: entries)) =
      readVariant (element depth true) (.object entries) variant := by
  rw [element, tagged_object nested variant h, Option.bind_some]

section Fields

variable {fields : List (String × Json)} {name key : String} {j : Json}

@[simp] theorem stringField_cons :
    stringField ((key, j) :: fields) name =
      if name = key then textOf j else stringField fields name := by
  rw [stringField, lookup_cons_ite]
  split_ifs <;> rfl

@[simp] theorem optionalStringField_cons :
    optionalStringField ((key, j) :: fields) name =
      if name = key then optionalTextOf j else optionalStringField fields name := by
  rw [optionalStringField, lookup_cons_ite]
  split_ifs <;> rfl

@[simp] theorem optionalStringField_nil : optionalStringField [] name = some none := rfl

@[simp] theorem valueField_cons :
    valueField ((key, j) :: fields) name =
      if name = key then optionOf j else valueField fields name := by
  rw [valueField, lookup_cons_ite]
  split_ifs <;> rfl

@[simp] theorem listField_cons {α : Type} {read : Json → Option α} :
    listField ((key, j) :: fields) name read =
      if name = key then listOf read j else listField fields name read := by
  rw [listField, lookup_cons_ite]
  split_ifs <;> rfl

theorem optional_optionOf (j : Json) : optional (optionOf j) = j.normal := by
  cases j <;> rfl

theorem optionOf_normal (j : Json) : optionOf j.normal = optionOf j := by
  cases j with
  | array items => exact congrArg some (Value.ext (normal_normal (.array items)))
  | object entries => exact congrArg some (Value.ext (normal_normal (.object entries)))
  | _ => rfl

theorem optional_valueField :
    optional (valueField fields name) = ((fields.lookup name).getD .null).normal := by
  rw [valueField]
  cases fields.lookup name with
  | none => rfl
  | some j => exact optional_optionOf j

@[simp] theorem optionOf_optional_valueField :
    optionOf (optional (valueField fields name)) = valueField fields name := by
  rw [optional_valueField, optionOf_normal, valueField]
  cases fields.lookup name <;> rfl

theorem listField_eq_some {α : Type} {read : Json → Option α} {values : List α} :
    listField fields name read = some values ↔
      ∃ items, fields.lookup name = some (.array items) ∧ items.mapM read = some values := by
  rw [listField]
  cases hv : fields.lookup name with
  | none => simp
  | some v => cases v <;> simp [listOf]

end Fields

theorem mapM_eq_some_iff {α β : Type} {read : α → Option β} {xs : List α} {ys : List β} :
    xs.mapM read = some ys ↔ List.Forall₂ (fun x y => read x = some y) xs ys := by
  induction xs generalizing ys with
  | nil => simp [eq_comm]
  | cons x xs ih =>
    rw [List.mapM_cons, List.forall₂_cons_left_iff]
    simp only [Option.pure_def, Option.bind_eq_bind, Option.bind_eq_some_iff, Option.some.injEq,
      ih]
    constructor
    · rintro ⟨y, hy, ys, hys, rfl⟩
      exact ⟨y, ys, hy, hys, rfl⟩
    · rintro ⟨y, ys, hy, hys, rfl⟩
      exact ⟨y, hy, ys, hys, rfl⟩

theorem mapM_map {α β : Type} {read : α → Option β} {write : β → α}
    (h : ∀ x y, read x = some y → read (write y) = some y) {xs : List α} {ys : List β}
    (hxs : xs.mapM read = some ys) : (ys.map write).mapM read = some ys := by
  rw [mapM_eq_some_iff] at hxs ⊢
  induction hxs with
  | nil => exact .nil
  | cons hx _ ih => exact .cons (h _ _ hx) ih

theorem listOf_map {α : Type} {read : Json → Option α} {write : α → Json}
    (hread : ∀ j x, read j = some x → read (write x) = some x)
    {fields : List (String × Json)} {name : String} {values : List α}
    (hvalues : listField fields name read = some values) :
    listOf read (.array (values.map write)) = some values := by
  obtain ⟨items, -, hitems⟩ := listField_eq_some.mp hvalues
  exact mapM_map hread hitems

/-- What is known of a UI schema that was read, by its variant. -/
inductive IsRead (read : Json → Option UiSchema) (content : Json) : Variant → UiSchema → Prop where
  | control {fields : List (String × Json)} {scope : String} {label : Option String}
      (hfields : fieldsOf ["scope", "label", "options", "rule"] content = some fields)
      (hscope : stringField fields "scope" = some scope)
      (hlabel : optionalStringField fields "label" = some label) :
      IsRead read content .control
        (.control scope label (valueField fields "options") (valueField fields "rule"))
  | horizontalLayout {fields : List (String × Json)} {elements : List UiSchema}
      (hfields : fieldsOf ["elements", "options", "rule"] content = some fields)
      (helements : listField fields "elements" read = some elements) :
      IsRead read content .horizontalLayout
        (.horizontalLayout elements (valueField fields "options") (valueField fields "rule"))
  | verticalLayout {fields : List (String × Json)} {elements : List UiSchema}
      (hfields : fieldsOf ["elements", "options", "rule"] content = some fields)
      (helements : listField fields "elements" read = some elements) :
      IsRead read content .verticalLayout
        (.verticalLayout elements (valueField fields "options") (valueField fields "rule"))
  | group {fields : List (String × Json)} {label : String} {elements : List UiSchema}
      (hfields : fieldsOf ["label", "elements", "options", "rule"] content = some fields)
      (hlabel : stringField fields "label" = some label)
      (helements : listField fields "elements" read = some elements) :
      IsRead read content .group
        (.group label elements (valueField fields "options") (valueField fields "rule"))
  | categorization {fields : List (String × Json)} {categories : List UiSchemaCategory}
      (hfields : fieldsOf ["elements", "options", "rule"] content = some fields)
      (hcategories : listField fields "elements" (readCategory read) = some categories) :
      IsRead read content .categorization
        (.categorization categories (valueField fields "options") (valueField fields "rule"))
  | category {category : UiSchemaCategory} (hcategory : readCategory read content = some category) :
      IsRead read content .category (.category category)

theorem isRead {read : Json → Option UiSchema} {content : Json} {variant : Variant} {ui : UiSchema}
    (h : readVariant read content variant = some ui) : IsRead read content variant ui := by
  cases variant with
  | control =>
    simp only [readVariant, Option.pure_def, Option.bind_eq_bind, Option.bind_eq_some_iff,
      Option.some.injEq] at h
    obtain ⟨fields, hfields, scope, hscope, label, hlabel, rfl⟩ := h
    exact .control hfields hscope hlabel
  | horizontalLayout =>
    simp only [readVariant, Option.pure_def, Option.bind_eq_bind, Option.bind_eq_some_iff,
      Option.some.injEq] at h
    obtain ⟨fields, hfields, elements, helements, rfl⟩ := h
    exact .horizontalLayout hfields helements
  | verticalLayout =>
    simp only [readVariant, Option.pure_def, Option.bind_eq_bind, Option.bind_eq_some_iff,
      Option.some.injEq] at h
    obtain ⟨fields, hfields, elements, helements, rfl⟩ := h
    exact .verticalLayout hfields helements
  | group =>
    simp only [readVariant, Option.pure_def, Option.bind_eq_bind, Option.bind_eq_some_iff,
      Option.some.injEq] at h
    obtain ⟨fields, hfields, label, hlabel, elements, helements, rfl⟩ := h
    exact .group hfields hlabel helements
  | categorization =>
    simp only [readVariant, Option.pure_def, Option.bind_eq_bind, Option.bind_eq_some_iff,
      Option.some.injEq] at h
    obtain ⟨fields, hfields, categories, hcategories, rfl⟩ := h
    exact .categorization hfields hcategories
  | category =>
    obtain ⟨category, hcategory, rfl⟩ := Option.map_eq_some_iff.mp h
    exact .category hcategory

/-- What holds of an element where it holds of those in it, holds of every element that is read. -/
theorem element_induction {motive : Nat → Json → UiSchema → Prop}
    (hstep : ∀ depth nested doc variant content ui,
      (∀ j ui, element depth true j = some ui → motive depth j ui) →
      tagged nested doc = some (variant, content) →
      IsRead (element depth true) content variant ui → motive (depth + 1) doc ui)
    {depth : Nat} {nested : Bool} {doc : Json} {ui : UiSchema}
    (h : element depth nested doc = some ui) : motive depth doc ui := by
  induction depth generalizing nested doc ui with
  | zero => cases h
  | succ depth ih =>
    rw [element] at h
    obtain ⟨⟨variant, content⟩, htagged, hvariant⟩ := Option.bind_eq_some_iff.mp h
    exact hstep depth nested doc variant content ui (fun j ui hj => ih hj) htagged (isRead hvariant)

theorem readCategory_eq_some {read : Json → Option UiSchema} {content : Json}
    {category : UiSchemaCategory} (h : readCategory read content = some category) :
    ∃ fields label elements, fieldsOf ["label", "elements", "options"] content = some fields ∧
      stringField fields "label" = some label ∧
      listField fields "elements" read = some elements ∧
      category = .mk label elements (valueField fields "options") := by
  simp only [readCategory, Option.pure_def, Option.bind_eq_bind, Option.bind_eq_some_iff,
    Option.some.injEq] at h
  obtain ⟨fields, hfields, label, hlabel, elements, helements, rfl⟩ := h
  exact ⟨fields, label, elements, hfields, hlabel, helements, rfl⟩

theorem readCategory_serialize {read : Json → Option UiSchema}
    (hread : ∀ j ui, read j = some ui → read (serialize ui) = some ui) (content : Json)
    (category : UiSchemaCategory) (h : readCategory read content = some category) :
    readCategory read (serializeCategory category) = some category := by
  obtain ⟨fields, label, elements, -, -, helements, rfl⟩ := readCategory_eq_some h
  rw [serializeCategory, categoryEntries, serializeAll_eq_map, readCategory, fieldsOf,
    if_pos (by simp)]
  simp [textOf, listOf_map hread helements]

theorem element_serialize_of_isRead {depth : Nat}
    (hread : ∀ j ui, element depth true j = some ui → element depth true (serialize ui) = some ui)
    {content : Json} {variant : Variant} {ui : UiSchema}
    (h : IsRead (element depth true) content variant ui) (nested : Bool) :
    element (depth + 1) nested (serialize ui) = some ui := by
  cases h with
  | @control _ _ label =>
    refine (element_object depth nested .control (by cases label <;> simp [labelEntry])).trans ?_
    cases label <;> simp [readVariant, fieldsOf, labelEntry, textOf, optionalTextOf]
  | horizontalLayout _ helements =>
    rw [serialize, serializeAll_eq_map]
    refine (element_object depth nested .horizontalLayout (by simp)).trans ?_
    simp [readVariant, fieldsOf, listOf_map hread helements]
  | verticalLayout _ helements =>
    rw [serialize, serializeAll_eq_map]
    refine (element_object depth nested .verticalLayout (by simp)).trans ?_
    simp [readVariant, fieldsOf, listOf_map hread helements]
  | group _ _ helements =>
    rw [serialize, serializeAll_eq_map]
    refine (element_object depth nested .group (by simp)).trans ?_
    simp [readVariant, fieldsOf, textOf, listOf_map hread helements]
  | categorization _ hcategories =>
    rw [serialize, serializeCategories_eq_map]
    refine (element_object depth nested .categorization (by simp)).trans ?_
    simp [readVariant, fieldsOf, listOf_map (readCategory_serialize hread) hcategories]
  | @category category hcategory =>
    have hread := readCategory_serialize hread _ _ hcategory
    obtain ⟨label, elements, options⟩ := category
    rw [serialize, categoryEntries]
    refine (element_object depth nested .category (by simp)).trans ?_
    rw [readVariant]
    exact Option.map_eq_some_iff.mpr ⟨_, hread, rfl⟩

theorem element_serialize {depth : Nat} {nested : Bool} {doc : Json} {ui : UiSchema}
    (h : element depth nested doc = some ui) (nested' : Bool) :
    element depth nested' (serialize ui) = some ui := by
  revert nested'
  refine element_induction
    (motive := fun depth _ ui => ∀ nested', element depth nested' (serialize ui) = some ui) ?_ h
  intro depth nested doc variant content ui hread htagged hvariant
  exact element_serialize_of_isRead (fun j ui hj => hread j ui hj true) hvariant

end RoundTrip

section Nesting

variable {fields : List (String × Json)} {content : Json} {d : Nat}

theorem nesting_of_tagged {nested : Bool} {doc : Json} {variant : Variant}
    (h : tagged nested doc = some (variant, content)) : content.nesting ≤ doc.nesting := by
  cases doc with
  | object entries =>
    rw [tagged] at h
    split at h
    · obtain ⟨_, -, heq⟩ := Option.map_eq_some_iff.mp h
      obtain ⟨rfl, rfl⟩ := Prod.mk.inj heq
      refine Nat.succ_le_succ (entriesNesting_le_iff.mpr fun e he => ?_)
      exact entriesNesting_le_iff.mp le_rfl e (List.mem_of_mem_filter he)
    · cases h
  | array items =>
    cases items with
    | nil => cases h
    | cons tag items =>
      obtain ⟨_, -, heq⟩ := Option.map_eq_some_iff.mp h
      obtain ⟨rfl, rfl⟩ := Prod.mk.inj heq
      exact Nat.succ_le_succ (le_max_right _ _)
  | _ => cases h

theorem nesting_of_fieldsOf {names : List String} (h : fieldsOf names content = some fields) :
    ∃ d, content.nesting = d + 1 ∧ ∀ e ∈ fields, e.2.nesting ≤ d := by
  cases content with
  | object entries =>
    obtain ⟨-, heq⟩ := Option.ite_none_right_eq_some.mp h
    obtain rfl := Option.some_inj.mp heq
    exact ⟨_, rfl, entriesNesting_le_iff.mp le_rfl⟩
  | array items =>
    obtain ⟨-, heq⟩ := Option.ite_none_right_eq_some.mp h
    obtain rfl := Option.some_inj.mp heq
    exact ⟨_, rfl, fun e he => itemsNesting_le_iff.mp le_rfl e.2 (List.of_mem_zip he).2⟩
  | _ => cases h

theorem mem_of_lookup {name : String} {j : Json} (h : fields.lookup name = some j) :
    (name, j) ∈ fields :=
  have hchild : (object fields).child name = some j := h
  mem_of_child hchild

theorem nesting_optional (h : ∀ e ∈ fields, e.2.nesting ≤ d) (name : String) :
    (optional (valueField fields name)).nesting ≤ d := by
  rw [optional_valueField]
  refine (nesting_normal_le _).trans ?_
  cases hlookup : fields.lookup name with
  | none => exact Nat.zero_le d
  | some j => exact h (name, j) (mem_of_lookup hlookup)

theorem nesting_listField {α : Type} {read : Json → Option α} {write : α → Json}
    (hread : ∀ j x, read j = some x → (write x).nesting ≤ j.nesting) {name : String}
    {values : List α} (hvalues : listField fields name read = some values)
    (h : ∀ e ∈ fields, e.2.nesting ≤ d) : (array (values.map write)).nesting ≤ d := by
  obtain ⟨items, hlookup, hitems⟩ := listField_eq_some.mp hvalues
  refine le_trans (Nat.succ_le_succ ?_) (h (name, _) (mem_of_lookup hlookup))
  clear hlookup hvalues
  induction mapM_eq_some_iff.mp hitems with
  | nil => exact le_rfl
  | cons hx _ ih => exact max_le_max (hread _ _ hx) (ih (mapM_eq_some_iff.mpr ‹_›))

theorem nesting_serializeCategory {read : Json → Option UiSchema}
    (hread : ∀ j ui, read j = some ui → (serialize ui).nesting ≤ j.nesting) (content : Json)
    (category : UiSchemaCategory) (h : readCategory read content = some category) :
    (serializeCategory category).nesting ≤ content.nesting := by
  obtain ⟨fields, label, elements, hfields, -, helements, rfl⟩ := readCategory_eq_some h
  obtain ⟨d, hd, hle⟩ := nesting_of_fieldsOf hfields
  rw [serializeCategory, categoryEntries, serializeAll_eq_map, hd]
  refine Nat.succ_le_succ (entriesNesting_le_iff.mpr ?_)
  simp [nesting_optional hle, nesting_listField hread helements hle]

theorem nesting_serialize_of_isRead {read : Json → Option UiSchema}
    (hread : ∀ j ui, read j = some ui → (serialize ui).nesting ≤ j.nesting) {variant : Variant}
    {ui : UiSchema} (h : IsRead read content variant ui) :
    (serialize ui).nesting ≤ content.nesting := by
  cases h with
  | @control _ _ label hfields =>
    obtain ⟨d, hd, hle⟩ := nesting_of_fieldsOf hfields
    rw [serialize, hd]
    refine Nat.succ_le_succ (entriesNesting_le_iff.mpr ?_)
    cases label <;> simp [labelEntry, nesting_optional hle]
  | horizontalLayout hfields helements | verticalLayout hfields helements
  | group hfields _ helements =>
    obtain ⟨d, hd, hle⟩ := nesting_of_fieldsOf hfields
    rw [serialize, serializeAll_eq_map, hd]
    refine Nat.succ_le_succ (entriesNesting_le_iff.mpr ?_)
    simp [nesting_optional hle, nesting_listField hread helements hle]
  | categorization hfields hcategories =>
    obtain ⟨d, hd, hle⟩ := nesting_of_fieldsOf hfields
    rw [serialize, serializeCategories_eq_map, hd]
    refine Nat.succ_le_succ (entriesNesting_le_iff.mpr ?_)
    simp [nesting_optional hle,
      nesting_listField (nesting_serializeCategory hread) hcategories hle]
  | category hcategory =>
    have hnesting := nesting_serializeCategory hread _ _ hcategory
    rw [serializeCategory] at hnesting
    rw [serialize, nesting, entriesNesting, nesting_string, Nat.zero_max]
    exact hnesting

theorem nesting_serialize {depth : Nat} {nested : Bool} {doc : Json} {ui : UiSchema}
    (h : element depth nested doc = some ui) : (serialize ui).nesting ≤ doc.nesting := by
  refine element_induction
    (motive := fun _ doc ui => (serialize ui).nesting ≤ doc.nesting) ?_ h
  intro depth nested doc variant content ui hread htagged hvariant
  exact (nesting_serialize_of_isRead hread hvariant).trans (nesting_of_tagged htagged)

end Nesting

section Depth

variable {content : Json} {d : Nat} {α : Type}

theorem mapM_congr {f g : Json → Option α} {items : List Json} (h : ∀ j ∈ items, f j = g j) :
    items.mapM f = items.mapM g := by
  induction items with
  | nil => rfl
  | cons item items ih =>
    obtain ⟨hitem, hitems⟩ := List.forall_mem_cons.mp h
    rw [List.mapM_cons, List.mapM_cons, hitem, ih hitems]

theorem listField_congr {f g : Json → Option α} (h : ∀ j, j.nesting < d → f j = g j)
    {fields : List (String × Json)} (hle : ∀ e ∈ fields, e.2.nesting ≤ d) (name : String) :
    listField fields name f = listField fields name g := by
  rw [listField, listField]
  cases hlookup : fields.lookup name with
  | none => rfl
  | some j =>
    have hj := hle (name, j) (mem_of_lookup hlookup)
    cases j with
    | array items =>
      refine mapM_congr fun item hitem => h item (lt_of_le_of_lt ?_ hj)
      exact itemsNesting_le_iff.mp le_rfl item hitem
    | _ => rfl

theorem readCategory_congr {f g : Json → Option UiSchema}
    (h : ∀ j, j.nesting < content.nesting → f j = g j) :
    readCategory f content = readCategory g content := by
  rw [readCategory, readCategory]
  cases hfields : fieldsOf ["label", "elements", "options"] content with
  | none => rfl
  | some fields =>
    obtain ⟨d, hd, hle⟩ := nesting_of_fieldsOf hfields
    have hlist := listField_congr (fun j hj => h j (by omega)) hle "elements"
    simp only [Option.bind_eq_bind, Option.bind_some, hlist]

theorem readVariant_congr {f g : Json → Option UiSchema}
    (h : ∀ j, j.nesting < content.nesting → f j = g j) (variant : Variant) :
    readVariant f content variant = readVariant g content variant := by
  have hlist : ∀ {names : List String} {fields : List (String × Json)},
      fieldsOf names content = some fields →
      listField fields "elements" f = listField fields "elements" g ∧
        listField fields "elements" (readCategory f) =
          listField fields "elements" (readCategory g) := by
    intro names fields hfields
    obtain ⟨d, hd, hle⟩ := nesting_of_fieldsOf hfields
    refine ⟨listField_congr (fun j hj => h j (by omega)) hle _,
      listField_congr (fun j hj => readCategory_congr fun i hi => h i (by omega)) hle _⟩
  cases variant with
  | control => rfl
  | category => rw [readVariant, readVariant, readCategory_congr h]
  | horizontalLayout | verticalLayout | group =>
    simp only [readVariant, Option.bind_eq_bind]
    refine Option.bind_congr fun fields hfields => ?_
    rw [(hlist hfields).1]
  | categorization =>
    simp only [readVariant, Option.bind_eq_bind]
    refine Option.bind_congr fun fields hfields => ?_
    rw [(hlist hfields).2]

theorem element_of_nesting_zero {doc : Json} (h : doc.nesting = 0) (depth : Nat) (nested : Bool) :
    element depth nested doc = none := by
  cases depth with
  | zero => rfl
  | succ depth =>
    cases doc with
    | array items => cases h
    | object entries => cases h
    | _ => rfl

/-- The depth is no restriction on a document that nests no deeper. -/
theorem element_eq_of_nesting_le {doc : Json} {n m : Nat} (hn : doc.nesting ≤ n)
    (hm : doc.nesting ≤ m) (nested : Bool) : element n nested doc = element m nested doc := by
  induction n generalizing m nested doc with
  | zero =>
    have hzero := Nat.le_zero.mp hn
    rw [element_of_nesting_zero hzero, element_of_nesting_zero hzero]
  | succ n ih =>
    cases m with
    | zero =>
      have hzero := Nat.le_zero.mp hm
      rw [element_of_nesting_zero hzero, element_of_nesting_zero hzero]
    | succ m =>
      rw [element, element]
      refine Option.bind_congr fun ⟨variant, content⟩ htagged => ?_
      have hcontent := nesting_of_tagged htagged
      exact readVariant_congr (fun j hj => ih (by omega) (by omega) true) variant

theorem deserialize_of_nesting_le {doc : Json} {limit limit' : Nat} (h : doc.nesting ≤ limit)
    (h' : doc.nesting ≤ limit') : deserialize limit doc = deserialize limit' doc := by
  rw [deserialize, deserialize, if_pos h, if_pos h', element_eq_of_nesting_le h h']

end Depth

theorem deserialize_serialize (limit : Nat) {doc : Json} {ui : UiSchema}
    (h : deserialize limit doc = some ui) : deserialize limit ui.serialize = some ui := by
  obtain ⟨hlimit, helement⟩ := Option.ite_none_right_eq_some.mp h
  rw [deserialize, if_pos ((nesting_serialize helement).trans hlimit)]
  exact element_serialize helement false

theorem deserialize_serialize_example :
    let ui := horizontalLayout [control "#/properties/foo" (some "Foo") none none,
      categorization [.mk "bar" [] (some (Value.ofJson (.object [("detail", .bool true)])))]
        none none] none none
    deserialize 127 ui.serialize = some ui :=
  deserialize_serialize 127 (show deserialize 127 (.object [("type", .string "HorizontalLayout"),
    ("elements", .array [
      .object [("label", .string "Foo"), ("type", .string "Control"),
        ("scope", .string "#/properties/foo")],
      .array [.string "Categorization", .array [.object [("type", .string "Category"),
        ("label", .string "bar"), ("elements", .array []),
        ("options", .object [("detail", .bool true)])]], .null, .null]])]) = some _ from rfl)

end UiSchema

end Workflows.GraphProxy
