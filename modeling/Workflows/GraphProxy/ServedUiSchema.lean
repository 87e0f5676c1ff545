import Workflows.GraphProxy.UiSchema

/-!
# The UI schema that is served

What a form is rendered from are the members of each element of the tree. The schema that is served
has those of the document where no element has a member that its variant has no field for, and no
category of a categorization has a type.
-/

namespace Workflows.GraphProxy

open Json

/-- The members of an element that its variant has no field for. -/
def Variant.unread : Variant → List String
  | .control => []
  | .horizontalLayout => ["label", "scope"]
  | .verticalLayout => ["label", "scope"]
  | .group => ["scope"]
  | .categorization => ["label", "scope"]
  | .category => ["scope", "rule"]

namespace UiSchema

def memberOf (j : Json) (name : String) : Json := ((j.child name).getD .null).normal

def shown (j : Json) : List Json := ["type", "label", "scope", "options", "rule"].map (memberOf j)

def elementsOf (j : Json) : List Json :=
  match j.child "elements" with
  | some (.array items) => items
  | _ => []

def elementAt : Json → List Nat → Option Json
  | j, [] => some j
  | j, i :: path => ((elementsOf j)[i]?).bind (elementAt · path)

/-- The same members at every element, and the same elements in the same order. -/
def Keeps (doc served : Json) : Prop :=
  ∀ path, (elementAt doc path).map shown = (elementAt served path).map shown

structure TypedElement (variant : Variant) (e : Json) : Prop where
  type : e.child "type" = some (.string variant.name)
  unread : ∀ name ∈ variant.unread, memberOf e name = .null
  elements : variant = .control → elementsOf e = []
  categories : variant = .categorization →
    ∀ category ∈ elementsOf e, memberOf category "type" = .null

structure UntypedCategory (e : Json) : Prop where
  type : memberOf e "type" = .null
  object : ∃ entries, e = .object entries
  unread : ∀ name ∈ ["scope", "rule"], memberOf e name = .null

def ReadWhole (e : Json) : Prop := (∃ variant, TypedElement variant e) ∨ UntypedCategory e

def NothingDropped (doc : Json) : Prop :=
  ∀ path e, elementAt doc path = some e → ReadWhole e

section Trees

theorem forall₂_iff_getElem? {α : Type} {R : α → α → Prop} {xs ys : List α} :
    List.Forall₂ R xs ys ↔ ∀ i : Nat, Option.Rel R xs[i]? ys[i]? := by
  constructor
  · intro h i
    induction h generalizing i with
    | nil => exact .none
    | cons hxy _ ih =>
      cases i with
      | zero => exact .some hxy
      | succ i => exact ih i
  · intro h
    induction xs generalizing ys with
    | nil =>
      cases ys with
      | nil => exact .nil
      | cons y ys => exact nomatch h 0
    | cons x xs ih =>
      cases ys with
      | nil => exact nomatch h 0
      | cons y ys =>
        cases h 0 with
        | some hxy => exact .cons hxy (ih fun i => h (i + 1))

theorem keeps_iff {doc served : Json} :
    Keeps doc served ↔
      shown doc = shown served ∧ List.Forall₂ Keeps (elementsOf doc) (elementsOf served) := by
  constructor
  · intro h
    refine ⟨Option.some_inj.mp (h []), forall₂_iff_getElem?.mpr fun i => ?_⟩
    have hi : ∀ path, _ := fun path => h (i :: path)
    simp only [elementAt] at hi
    cases hx : (elementsOf doc)[i]? with
    | none =>
      cases hy : (elementsOf served)[i]? with
      | none => exact .none
      | some y => simpa [hx, hy, elementAt] using hi []
    | some x =>
      cases hy : (elementsOf served)[i]? with
      | none => simpa [hx, hy, elementAt] using hi []
      | some y => exact .some fun path => by simpa [hx, hy] using hi path
  · rintro ⟨hshown, helements⟩ path
    cases path with
    | nil => exact congrArg some hshown
    | cons i path =>
      rw [elementAt, elementAt]
      have hi := forall₂_iff_getElem?.mp helements i
      generalize (elementsOf doc)[i]? = x, (elementsOf served)[i]? = y at hi
      cases hi with
      | none => rfl
      | some h => exact h path

theorem nothingDropped_iff {doc : Json} :
    NothingDropped doc ↔ ReadWhole doc ∧ ∀ item ∈ elementsOf doc, NothingDropped item := by
  constructor
  · refine fun h => ⟨h [] doc rfl, fun item hitem path e he => ?_⟩
    obtain ⟨i, hi⟩ := List.mem_iff_getElem?.mp hitem
    exact h (i :: path) e (by rw [elementAt, hi, Option.bind_some, he])
  · rintro ⟨hdoc, hitems⟩ path e he
    cases path with
    | nil =>
      obtain rfl := Option.some_inj.mp he
      exact hdoc
    | cons i path =>
      obtain ⟨item, hitem, he⟩ := Option.bind_eq_some_iff.mp he
      exact hitems item (List.mem_of_getElem? hitem) path e he

end Trees

section Members

variable {fields : List (String × Json)} {name : String}

@[simp] theorem memberOf_nil : memberOf (.object []) name = .null := rfl

@[simp] theorem memberOf_cons {key : String} {j : Json} :
    memberOf (.object ((key, j) :: fields)) name =
      if name = key then j.normal else memberOf (.object fields) name := by
  rw [memberOf, child, lookup_cons_ite]
  split_ifs <;> rfl

@[simp] theorem normal_string (text : String) : (Json.string text).normal = .string text := rfl

theorem memberOf_object : memberOf (.object fields) name = optional (valueField fields name) :=
  optional_valueField.symm

theorem memberOf_of_stringField {text : String} (h : stringField fields name = some text) :
    memberOf (.object fields) name = .string text := by
  obtain ⟨j, hlookup, htext⟩ := Option.bind_eq_some_iff.mp h
  rw [memberOf, child, hlookup]
  cases j with
  | string s =>
    obtain rfl := Option.some_inj.mp htext
    rfl
  | _ => cases htext

theorem memberOf_of_optionalStringField {text : Option String}
    (h : optionalStringField fields name = some text) :
    memberOf (.object fields) name = (text.map Json.string).getD .null := by
  rw [optionalStringField] at h
  rw [memberOf, child]
  cases hlookup : fields.lookup name with
  | none =>
    rw [hlookup] at h
    obtain rfl := Option.some_inj.mp h
    rfl
  | some j =>
    rw [hlookup] at h
    cases j with
    | null | string _ =>
      obtain rfl := Option.some_inj.mp h
      rfl
    | _ => cases h

@[simp] theorem normal_optional {v : Option Value} : (optional v).normal = optional v := by
  cases v with
  | none => rfl
  | some v => exact v.normal_json

theorem fields_of_fieldsOf {names : List String} {fields' : List (String × Json)}
    (h : fieldsOf names (.object fields) = some fields') : fields' = fields :=
  (Option.some_inj.mp (Option.ite_none_right_eq_some.mp h).2).symm

theorem shown_inj {a b : Json} :
    shown a = shown b ↔ memberOf a "type" = memberOf b "type" ∧
      memberOf a "label" = memberOf b "label" ∧ memberOf a "scope" = memberOf b "scope" ∧
      memberOf a "options" = memberOf b "options" ∧ memberOf a "rule" = memberOf b "rule" := by
  simp [shown]

theorem shown_serialize_iff {read : Json → Option UiSchema} {doc : Json} {variant : Variant}
    {ui : UiSchema} (htype : memberOf doc "type" = .string variant.name)
    (hmember : ∀ name, name ≠ "type" → memberOf doc name = memberOf (.object fields) name)
    (h : IsRead read (.object fields) variant ui) :
    shown doc = shown (serialize ui) ↔
      ∀ name ∈ variant.unread, memberOf doc name = .null := by
  have hoptions := (hmember "options" (by decide)).trans memberOf_object
  have hrule := (hmember "rule" (by decide)).trans memberOf_object
  have hlabel := hmember "label" (by decide)
  have hscope := hmember "scope" (by decide)
  rw [shown_inj, htype, hoptions, hrule]
  cases h with
  | @control _ _ label hfields hscope' hlabel' =>
    obtain rfl := fields_of_fieldsOf hfields
    rw [hlabel, hscope, memberOf_of_stringField hscope', memberOf_of_optionalStringField hlabel']
    cases label <;> simp [Variant.unread, Variant.name, serialize, labelEntry]
  | horizontalLayout hfields | verticalLayout hfields | categorization hfields =>
    obtain rfl := fields_of_fieldsOf hfields
    simp [Variant.unread, Variant.name, serialize]
  | group hfields hlabel' =>
    obtain rfl := fields_of_fieldsOf hfields
    rw [hlabel, memberOf_of_stringField hlabel']
    simp [Variant.unread, Variant.name, serialize]
  | category hcategory =>
    obtain ⟨_, label, elements, hfields, hlabel', -, rfl⟩ := readCategory_eq_some hcategory
    obtain rfl := fields_of_fieldsOf hfields
    rw [hlabel, memberOf_of_stringField hlabel']
    simp [Variant.unread, Variant.name, serialize, categoryEntries, hrule]

/-- The elements of a list that was read, when what is read of each keeps it under a condition. -/
theorem forall₂_keeps_iff {α : Type} {read : Json → Option α} {write : α → Json}
    {good : Json → Prop} (hread : ∀ j x, read j = some x → (Keeps j (write x) ↔ good j))
    {values : List α} (h : listField fields "elements" read = some values) :
    List.Forall₂ Keeps (elementsOf (.object fields)) (values.map write) ↔
      ∀ item ∈ elementsOf (.object fields), good item := by
  obtain ⟨items, hlookup, hitems⟩ := listField_eq_some.mp h
  have helements : elementsOf (.object fields) = items := by rw [elementsOf, child, hlookup]
  rw [helements, List.forall₂_map_right_iff]
  clear hlookup h helements
  induction mapM_eq_some_iff.mp hitems with
  | nil => simp
  | cons hx hxs ih =>
    rw [List.forall₂_cons, List.forall_mem_cons]
    exact and_congr (hread _ _ hx) (ih (mapM_eq_some_iff.mpr hxs))

end Members

section Served

variable {doc content : Json} {variant : Variant} {fields : List (String × Json)}

theorem name_inj {v w : Variant} : v.name = w.name ↔ v = w := by
  cases v <;> cases w <;> decide

theorem not_untypedCategory (h : doc.child "type" = some (.string variant.name)) :
    ¬UntypedCategory doc := by
  intro huntyped
  have htype := huntyped.type
  rw [memberOf, h] at htype
  cases htype

theorem readWhole_iff (h : doc.child "type" = some (.string variant.name)) :
    ReadWhole doc ↔ TypedElement variant doc := by
  refine ⟨?_, fun htyped => .inl ⟨variant, htyped⟩⟩
  rintro (⟨variant', htyped⟩ | huntyped)
  · have hname := htyped.type.symm.trans h
    simp only [Option.some.injEq, Json.string.injEq, name_inj] at hname
    exact hname ▸ htyped
  · exact absurd huntyped (not_untypedCategory h)

theorem lookup_eq_head? {entries : List (String × Json)} {name : String} :
    entries.lookup name = (entries.filter (·.1 = name)).head?.map (·.2) := by
  induction entries with
  | nil => rfl
  | cons entry entries ih =>
    obtain ⟨key, j⟩ := entry
    rw [lookup_cons_ite, List.filter_cons]
    obtain rfl | hne := eq_or_ne key name
    · simp
    · rw [if_neg hne.symm, if_neg (by simpa using hne)]
      exact ih

theorem lookup_filter_type {entries : List (String × Json)} {name : String} (h : name ≠ "type") :
    (entries.filter (·.1 ≠ "type")).lookup name = entries.lookup name := by
  rw [lookup_eq_head?, lookup_eq_head?, List.filter_filter]
  congr 3
  funext entry
  obtain rfl | hne := eq_or_ne entry.1 name
  · simp [h]
  · simp [hne]

/-- Where an object is read, the tag is its one member of that name. -/
theorem tagged_object_eq_some {nested : Bool} {entries : List (String × Json)}
    (h : tagged nested (.object entries) = some (variant, content)) :
    (∃ tag, entries.lookup "type" = some tag ∧ Variant.ofTag nested tag = some variant) ∧
      content = .object (entries.filter (·.1 ≠ "type")) := by
  rw [tagged] at h
  split at h
  · rename_i key tag hfilter
    obtain ⟨variant, htag, heq⟩ := Option.map_eq_some_iff.mp h
    obtain ⟨rfl, rfl⟩ := Prod.mk.inj heq
    exact ⟨⟨tag, by rw [lookup_eq_head?, hfilter]; rfl, htag⟩, rfl⟩
  · cases h

theorem ofTag_string {nested : Bool} {text : String}
    (h : Variant.ofTag nested (.string text) = some variant) : variant.name = text := by
  simpa using List.find?_some h

theorem memberOf_eq_string {name text : String} :
    memberOf doc name = .string text ↔ doc.child name = some (.string text) := by
  rw [memberOf]
  cases doc.child name with
  | none => simp [normal]
  | some j => cases j <;> simp [normal]

theorem type_serialize {read : Json → Option UiSchema} {ui : UiSchema}
    (h : IsRead read content variant ui) :
    memberOf (serialize ui) "type" = .string variant.name := by
  cases h <;> simp [serialize, Variant.name]

theorem object_of_type {text : String} (h : doc.child "type" = some (.string text)) :
    ∃ entries, doc = .object entries :=
  object_of_child_isSome (by decide +kernel) h

theorem child_type {nested : Bool} (htagged : tagged nested doc = some (variant, content))
    (h : ReadWhole doc) : doc.child "type" = some (.string variant.name) := by
  rcases h with ⟨variant', htyped⟩ | huntyped
  · have htype := htyped.type
    obtain ⟨entries, rfl⟩ := object_of_type htype
    obtain ⟨⟨tag, hlookup, htag⟩, -⟩ := tagged_object_eq_some htagged
    obtain rfl := Option.some_inj.mp (hlookup.symm.trans htype)
    rw [htype, ofTag_string htag]
  · obtain ⟨entries, rfl⟩ := huntyped.object
    obtain ⟨⟨tag, hlookup, htag⟩, -⟩ := tagged_object_eq_some htagged
    have htype := huntyped.type
    rw [memberOf, child, hlookup, Option.getD_some, normal_eq_null] at htype
    subst htype
    cases htag

theorem elementsOf_eq {a b : Json} (h : a.child "elements" = b.child "elements") :
    elementsOf a = elementsOf b := by
  rw [elementsOf, elementsOf, h]

variable {read : Json → Option UiSchema}

theorem readWhole_iff_untypedCategory (h : memberOf doc "type" = .null) :
    ReadWhole doc ↔ UntypedCategory doc := by
  refine ⟨?_, .inr⟩
  rintro (⟨variant, htyped⟩ | huntyped)
  · rw [memberOf_eq_string.mpr htyped.type] at h
    cases h
  · exact huntyped

theorem object_of_readWhole (h : ReadWhole doc) : ∃ entries, doc = .object entries := by
  rcases h with ⟨variant, htyped⟩ | huntyped
  · exact object_of_type htyped.type
  · exact huntyped.object

theorem keeps_serializeCategory
    (hread : ∀ j ui, read j = some ui → (Keeps j (serialize ui) ↔ NothingDropped j))
    (content : Json) (category : UiSchemaCategory) (h : readCategory read content = some category) :
    Keeps content (serializeCategory category) ↔
      memberOf content "type" = .null ∧ NothingDropped content := by
  obtain ⟨fields', label, elements, hfields, hlabel, helements, rfl⟩ := readCategory_eq_some h
  rw [keeps_iff, nothingDropped_iff, serializeCategory, categoryEntries, serializeAll_eq_map]
  by_cases hobject : ∃ fields, content = .object fields
  · obtain ⟨fields, rfl⟩ := hobject
    obtain rfl := fields_of_fieldsOf hfields
    rw [← and_assoc]
    refine and_congr ?_ (forall₂_keeps_iff hread helements)
    rw [shown_inj, memberOf_of_stringField hlabel, @memberOf_object fields' "options"]
    have hwhole : memberOf (.object fields') "type" = .null →
        (ReadWhole (.object fields') ↔
          memberOf (.object fields') "scope" = .null ∧
            memberOf (.object fields') "rule" = .null) := by
      intro htype
      rw [readWhole_iff_untypedCategory htype]
      exact ⟨fun huntyped => by simpa using huntyped.unread,
        fun hunread => ⟨htype, ⟨_, rfl⟩, by simpa using hunread⟩⟩
    simpa using fun htype => (hwhole htype).symm
  · refine iff_of_false (fun hkeeps => hobject ?_) (fun hwhole =>
      hobject (object_of_readWhole hwhole.2.1))
    have hshown := (shown_inj.mp hkeeps.1).2.1
    exact object_of_child_isSome (by decide +kernel) (memberOf_eq_string.mp hshown)

theorem typedElement_iff (h : doc.child "type" = some (.string variant.name)) :
    TypedElement variant doc ↔ (∀ name ∈ variant.unread, memberOf doc name = .null) ∧
      (variant = .control → elementsOf doc = []) ∧
      (variant = .categorization →
        ∀ category ∈ elementsOf doc, memberOf category "type" = .null) :=
  ⟨fun htyped => ⟨htyped.unread, htyped.elements, htyped.categories⟩,
    fun ⟨hunread, helements, hcategories⟩ => ⟨h, hunread, helements, hcategories⟩⟩

theorem elementsOf_control (scope : String) (label : Option String) (options rule : Option Value) :
    elementsOf (serialize (.control scope label options rule)) = [] := by
  cases label <;> rfl

theorem elementsOf_serialize_iff
    (hread : ∀ j ui, read j = some ui → (Keeps j (serialize ui) ↔ NothingDropped j))
    {ui : UiSchema} (h : IsRead read (.object fields) variant ui) :
    List.Forall₂ Keeps (elementsOf (.object fields)) (elementsOf (serialize ui)) ↔
      (variant = .control → elementsOf (.object fields) = []) ∧
      (variant = .categorization →
        ∀ category ∈ elementsOf (.object fields), memberOf category "type" = .null) ∧
      ∀ item ∈ elementsOf (.object fields), NothingDropped item := by
  cases h with
  | control =>
    simp only [elementsOf_control, List.forall₂_nil_right_iff, true_implies, reduceCtorEq,
      false_implies, true_and, iff_self_and]
    exact fun hnil item hitem => nomatch hnil ▸ hitem
  | horizontalLayout hfields helements | verticalLayout hfields helements
  | group hfields _ helements =>
    obtain rfl := fields_of_fieldsOf hfields
    rw [serialize, serializeAll_eq_map]
    refine (forall₂_keeps_iff hread helements).trans ?_
    simp
  | categorization hfields hcategories =>
    obtain rfl := fields_of_fieldsOf hfields
    rw [serialize, serializeCategories_eq_map]
    refine (forall₂_keeps_iff (keeps_serializeCategory hread) hcategories).trans ?_
    simp [forall_and]
  | category hcategory =>
    obtain ⟨_, label, elements, hfields, -, helements, rfl⟩ := readCategory_eq_some hcategory
    obtain rfl := fields_of_fieldsOf hfields
    rw [serialize, categoryEntries, serializeAll_eq_map]
    refine (forall₂_keeps_iff hread helements).trans ?_
    simp

theorem keeps_serialize
    (hread : ∀ j ui, read j = some ui → (Keeps j (serialize ui) ↔ NothingDropped j))
    {nested : Bool} {ui : UiSchema} (htagged : tagged nested doc = some (variant, content))
    (h : IsRead read content variant ui) : Keeps doc (serialize ui) ↔ NothingDropped doc := by
  rw [keeps_iff, nothingDropped_iff]
  by_cases htype : doc.child "type" = some (.string variant.name)
  · obtain ⟨entries, rfl⟩ := object_of_type htype
    obtain ⟨-, rfl⟩ := tagged_object_eq_some htagged
    have hmember : ∀ name, name ≠ "type" →
        memberOf (.object entries) name = memberOf (.object (entries.filter (·.1 ≠ "type"))) name :=
      fun name hname => by rw [memberOf, memberOf, child, child, lookup_filter_type hname]
    have helements : elementsOf (.object entries) =
        elementsOf (.object (entries.filter (·.1 ≠ "type"))) :=
      elementsOf_eq (lookup_filter_type (by decide)).symm
    rw [shown_serialize_iff (memberOf_eq_string.mpr htype) hmember h, readWhole_iff htype,
      typedElement_iff htype, helements, elementsOf_serialize_iff hread h]
    simp only [and_assoc]
  · refine iff_of_false (fun hkeeps => htype ?_) (fun hwhole => htype (child_type htagged hwhole.1))
    have hshown := (shown_inj.mp hkeeps.1).1
    rw [type_serialize h] at hshown
    exact memberOf_eq_string.mp hshown

theorem keeps_serialize_of_element {depth : Nat} {nested : Bool} {ui : UiSchema}
    (h : element depth nested doc = some ui) : Keeps doc (serialize ui) ↔ NothingDropped doc := by
  refine element_induction
    (motive := fun _ doc ui => Keeps doc (serialize ui) ↔ NothingDropped doc) ?_ h
  intro depth nested doc variant content ui hread htagged hvariant
  exact keeps_serialize hread htagged hvariant

theorem keeps_deserialized {limit : Nat} {ui : UiSchema} (h : deserialize limit doc = some ui) :
    Keeps doc ui.serialize ↔ NothingDropped doc :=
  keeps_serialize_of_element (Option.ite_none_right_eq_some.mp h).2

theorem keeps_deserialized_example :
    Keeps (.object [("type", .string "Control"), ("scope", .string "#/properties/foo")])
      (serialize (.control "#/properties/foo" none none none)) :=
  (keeps_deserialized (show deserialize 127 _ = some _ from rfl)).mpr
    (nothingDropped_iff.mpr ⟨.inl ⟨.control, rfl, by simp [Variant.unread], fun _ => rfl,
      fun h => nomatch h⟩, fun item hitem => nomatch hitem⟩)

/-- A category is served without the type that it has in the document. -/
theorem not_keeps :
    ∃ ui, deserialize 127 (.object [("type", .string "Categorization"),
        ("elements", .array [.object [("type", .string "Category"), ("label", .string "foo"),
          ("elements", .array [])]])]) = some ui ∧
      ¬Keeps (.object [("type", .string "Categorization"),
        ("elements", .array [.object [("type", .string "Category"), ("label", .string "foo"),
          ("elements", .array [])]])]) ui.serialize := by
  refine ⟨.categorization [.mk "foo" [] none] none none, rfl, fun h => ?_⟩
  have htype := (shown_inj.mp (Option.some_inj.mp (h [0]))).1
  exact nomatch (show Json.string "Category" = .null from htype)

end Served

end UiSchema

end Workflows.GraphProxy
