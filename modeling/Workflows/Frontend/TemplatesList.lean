import Workflows.Foundations.Execution
import Workflows.Foundations.FormUrlEncoded
import Workflows.Frontend.ScanRange
import Workflows.Frontend.SelectedTasks
import Workflows.GraphProxy.Pagination
import Workflows.GraphProxy.Selection

/-!
# The page of the templates

The science groups and the text that templates are searched for stand in the address. The proxy
makes a label selector of the groups, and what the server lists for it is searched and cut into
pages in the browser. Whenever the address changes an effect goes back to the first page.
-/

namespace Workflows.Frontend

open Selectors GraphProxy

section Pages

variable {α : Type}

/-- What `useClientSidePagination` returns, but for the number of the page. -/
def totalPages (items : List α) (perPage : Nat) : Nat := (items.length + perPage - 1) / perPage

def paginatedItems (items : List α) (perPage pageNumber : Nat) : List α :=
  (items.drop ((pageNumber - 1) * perPage)).take perPage

variable {items : List α} {perPage : Nat}

theorem le_totalPages_iff (hper : 0 < perPage) {p : Nat} (hp : 1 ≤ p) :
    p ≤ totalPages items perPage ↔ (p - 1) * perPage < items.length := by
  obtain ⟨q, rfl⟩ := Nat.exists_eq_add_of_le' hp
  rw [totalPages, Nat.le_div_iff_mul_le hper, Nat.add_sub_cancel, Nat.succ_mul]
  omega

theorem paginatedItems_ne_nil (hper : 0 < perPage) {p : Nat} (hp : 1 ≤ p)
    (h : p ≤ totalPages items perPage) : paginatedItems items perPage p ≠ [] := by
  have hlt := (le_totalPages_iff hper hp).mp h
  apply List.ne_nil_of_length_pos
  rw [paginatedItems, List.length_take, List.length_drop]
  omega

theorem totalPages_pos (hper : 0 < perPage) (h : items ≠ []) : 1 ≤ totalPages items perPage := by
  rw [le_totalPages_iff hper le_rfl]
  have hlength := List.length_pos_iff.mpr h
  omega

/-- The pages up to one are the items up to its end. -/
theorem flatMap_paginatedItems (n : Nat) :
    (List.range n).flatMap (fun p => paginatedItems items perPage (p + 1)) =
      items.take (n * perPage) := by
  induction n with
  | zero => simp
  | succ n ih =>
    rw [List.range_succ, List.flatMap_append, ih, List.flatMap_singleton, paginatedItems,
      Nat.add_sub_cancel, Nat.succ_mul, List.take_add]

/-- The pages, one behind the other, are the items. -/
theorem flatMap_totalPages (hper : 0 < perPage) :
    (List.range (totalPages items perPage)).flatMap
      (fun p => paginatedItems items perPage (p + 1)) = items := by
  rw [flatMap_paginatedItems, List.take_of_length_le]
  have hnot : ¬ totalPages items perPage + 1 ≤ totalPages items perPage := by omega
  rw [le_totalPages_iff hper (Nat.le_add_left 1 _), Nat.add_sub_cancel] at hnot
  omega

end Pages

structure TemplateNode where
  name : String
  title : Option String
  description : Option String
  deriving DecidableEq

/-- A template of the cluster, with the labels that it is selected by. -/
structure ClusterTemplate where
  labels : Labels
  node : TemplateNode

section Search

-- `toUpperCase` knows the letters of all languages.
variable (toUpperCase : String → String)

def templateMatchesSearch (search name : String) (title description : Option String) : Bool :=
  let trimmedSearch := String.ofList (trim search.toList)
  if trimmedSearch = "" then true
  else
    let upperSearch := toUpperCase trimmedSearch
    [some name, title, description].any fun field =>
      field.any fun field => upperSearch.toList <:+: (toUpperCase field).toList

end Search

section Filter

/-- The values of the enumeration `ScienceGroup`. -/
def scienceGroupValue : ScienceGroup → String
  | .mx => "MX"
  | .examples => "EXAMPLES"
  | .magneticMaterials => "MAGNETIC_MATERIALS"
  | .condensedMatter => "CONDENSED_MATTER"
  | .imaging => "IMAGING"
  | .bioCryoImaging => "BIO_CRYO_IMAGING"
  | .surfaces => "SURFACES"
  | .crystallography => "CRYSTALLOGRAPHY"
  | .spectroscopy => "SPECTROSCOPY"

def scienceGroups : List ScienceGroup :=
  [.mx, .examples, .magneticMaterials, .condensedMatter, .imaging, .bioCryoImaging, .surfaces,
    .crystallography, .spectroscopy]

def convertStringToScienceGroup (input : String) : Option ScienceGroup :=
  scienceGroups.find? (scienceGroupValue · = input)

def splitCommas (text : String) : List String := (text.toList.splitOn ',').map String.ofList

def getFilterFromParams (searchParams : SearchParams) : WorkflowTemplatesFilter where
  scienceGroup :=
    (searchParams.get "group").map fun text =>
      (splitCommas text).filterMap convertStringToScienceGroup

def handleSetFilter (scienceGroup : List ScienceGroup) (searchParams : SearchParams) :
    SearchParams :=
  if scienceGroup ≠ [] then
    searchParams.set "group" (",".intercalate (scienceGroup.map scienceGroupValue))
  else searchParams.delete "group"

def handleSearch (search : String) (searchParams : SearchParams) : SearchParams :=
  if search ≠ "" then searchParams.set "search" search else searchParams.delete "search"

end Filter

section Location

/-- The search parameters of a location. -/
def readSearch (locationSearch : String) : SearchParams :=
  match locationSearch.toList with
  | '?' :: query => FormUrlEncoded.parse query
  | query => FormUrlEncoded.parse query

/-- The location to which `setSearchParams` navigates. -/
def writeSearch (searchParams : SearchParams) : String :=
  if searchParams = [] then "" else String.ofList ('?' :: FormUrlEncoded.print searchParams)

theorem readSearch_writeSearch (searchParams : SearchParams) :
    readSearch (writeSearch searchParams) = searchParams := by
  rw [writeSearch]
  split_ifs with hnil
  · rw [hnil]
    rfl
  · rw [readSearch, String.toList_ofList]
    exact FormUrlEncoded.parse_print searchParams

end Location

/-- The page at an address. -/
structure TemplatesList where
  locationSearch : String
  pageNumber : Nat
  deriving DecidableEq

namespace TemplatesList

inductive Action where
  | search (text : String)
  | setFilter (scienceGroup : List ScienceGroup)
  | turn (page : Nat)
  | visit (locationSearch : String)

section Page

variable (toUpperCase : String → String) (order : HashOrder ScienceGroup)
variable (codec : OpaqueCursor Nat) (server : String → ListOptions → Answer ClusterTemplate)

/-- The nodes that the query answers with. -/
def fetchNodes (filter : WorkflowTemplatesFilter) : Option (List TemplateNode) :=
  match filter.createLabelSelection order with
  | .error _ => none
  | .ok selector =>
    match workflowTemplates codec ClusterTemplate.node (server selector) none none with
    | .error _ => none
    | .ok connection => some connection.nodes

def matchesParams (searchParams : SearchParams) (node : TemplateNode) : Bool :=
  templateMatchesSearch toUpperCase ((searchParams.get "search").getD "") node.name
    (some (node.title.getD "")) node.description

def filteredNodes (s : TemplatesList) : Option (List TemplateNode) :=
  (fetchNodes order codec server (getFilterFromParams (readSearch s.locationSearch))).map
    (List.filter (matchesParams toUpperCase (readSearch s.locationSearch)))

def shown (s : TemplatesList) : Option (List TemplateNode) :=
  (filteredNodes toUpperCase order codec server s).map (paginatedItems · 10 s.pageNumber)

def openAt (locationSearch : String) : TemplatesList where
  locationSearch := locationSearch
  pageNumber := 1

/-- The effect runs when the address has changed. -/
def navigate (s : TemplatesList) (locationSearch : String) : TemplatesList where
  locationSearch := locationSearch
  pageNumber := if locationSearch = s.locationSearch then s.pageNumber else 1

/-- A user can turn to the pages that there are. -/
def step (s : TemplatesList) : Action → Option TemplatesList
  | .search text =>
    some (s.navigate (writeSearch (handleSearch text (readSearch s.locationSearch))))
  | .setFilter scienceGroup =>
    some (s.navigate (writeSearch (handleSetFilter scienceGroup (readSearch s.locationSearch))))
  | .turn page =>
    match filteredNodes toUpperCase order codec server s with
    | some nodes =>
      if 1 ≤ page ∧ page ≤ totalPages nodes 10 then some { s with pageNumber := page } else none
    | none => none
  | .visit locationSearch => some (s.navigate locationSearch)

end Page

section Asked

instance (r : Requirement) (labels : Labels) : Decidable (r.Matches labels) := by
  unfold Requirement.Matches
  split <;> infer_instance

instance (filter : WorkflowTemplatesFilter) (labels : Labels) : Decidable (filter.Asks labels) := by
  unfold WorkflowTemplatesFilter.Asks
  infer_instance

/-- The server lists the templates that a label selector selects. -/
def ServesTemplates (server : String → ListOptions → Answer ClusterTemplate)
    (templates : List ClusterTemplate) : Prop :=
  ∀ selector rs, parse selector = some rs →
    ServesByOffset (server selector)
      (templates.filter fun template => ∀ r ∈ rs, r.Matches template.labels)

variable (toUpperCase : String → String) (templates : List ClusterTemplate)

/-- The nodes of the first hundred templates in all of the groups. -/
def inGroups (Asks : Labels → Prop) [DecidablePred Asks] : List TemplateNode :=
  ((templates.filter fun template => Asks template.labels).take 100).map (·.node)

/-- What an address asks for. -/
def asked (searchParams : SearchParams) : List TemplateNode :=
  (inGroups templates (getFilterFromParams searchParams).Asks).filter
    (matchesParams toUpperCase searchParams)

end Asked

section Params

variable {params : SearchParams} {name other value : String}

theorem get_delete_of_ne (h : other ≠ name) :
    (params.delete name).get other = params.get other := by
  induction params with
  | nil => rfl
  | cons entry params ih =>
    rw [SearchParams.delete, SearchParams.get] at ih ⊢
    rw [List.filter_cons]
    split_ifs with hkeep
    · rw [List.lookup_cons, SearchParams.get, List.lookup_cons]
      split
      · rfl
      · exact ih
    · have heq : entry.1 = name := by simpa using hkeep
      rw [SearchParams.get, List.lookup_cons, heq, beq_false_of_ne h]
      exact ih

theorem get_set_of_ne (h : other ≠ name) :
    (params.set name value).get other = params.get other := by
  induction params with
  | nil => simp [SearchParams.set, SearchParams.get, List.lookup_cons, beq_false_of_ne h]
  | cons entry params ih =>
    rw [SearchParams.set]
    split_ifs with heq
    · rw [SearchParams.get, List.lookup_cons, SearchParams.get, List.lookup_cons, heq,
        beq_false_of_ne h]
      exact get_delete_of_ne h
    · rw [SearchParams.get, List.lookup_cons, SearchParams.get, List.lookup_cons]
      split
      · rfl
      · exact ih

theorem convert_value (group : ScienceGroup) :
    convertStringToScienceGroup (scienceGroupValue group) = some group := by
  cases group <;> decide +kernel

theorem splitCommas_intercalate {values : List String} (hne : values ≠ [])
    (h : ∀ value ∈ values, ',' ∉ value.toList) :
    splitCommas (",".intercalate values) = values := by
  have hlist : (",".intercalate values).toList = [','].intercalate (values.map String.toList) := by
    rw [String.toList_intercalate]
    rfl
  rw [splitCommas, hlist, List.splitOn_intercalate ',' ?_ (by simpa using hne), List.map_map]
  · simp
  · simpa using h

theorem comma_not_mem_value (group : ScienceGroup) : ',' ∉ (scienceGroupValue group).toList := by
  cases group <;> decide +kernel

/-- The groups that are written into the address are read back from it. -/
theorem asks_handleSetFilter (scienceGroup : List ScienceGroup) (labels : Labels) :
    (getFilterFromParams (handleSetFilter scienceGroup params)).Asks labels ↔
      ∀ group ∈ scienceGroup, labels.get (scienceGroupPrefix ++ group.key) = some "true" := by
  rw [handleSetFilter, getFilterFromParams]
  split_ifs with hne
  · have hvalues : splitCommas (",".intercalate (scienceGroup.map scienceGroupValue)) =
        scienceGroup.map scienceGroupValue := by
      refine splitCommas_intercalate (by simpa using hne) ?_
      simpa using fun group _ => comma_not_mem_value group
    have hgroups : (scienceGroup.map scienceGroupValue).filterMap convertStringToScienceGroup =
        scienceGroup := by
      rw [List.filterMap_map]
      have hsome : convertStringToScienceGroup ∘ scienceGroupValue = some := funext convert_value
      rw [hsome, List.filterMap_some]
    rw [SearchParams.get_set_self, Option.map_some, hvalues, hgroups]
    simp [WorkflowTemplatesFilter.Asks]
  · rw [ne_eq, not_not] at hne
    rw [SearchParams.get_delete_self, hne]
    simp [WorkflowTemplatesFilter.Asks]

theorem get_handleSearch (text : String) :
    ((handleSearch text params).get "search").getD "" = text := by
  rw [handleSearch]
  split_ifs with hne
  · rw [SearchParams.get_set_self, Option.getD_some]
  · rw [SearchParams.get_delete_self, Option.getD_none]
    exact (not_not.mp hne).symm

theorem getFilter_handleSearch (text : String) :
    getFilterFromParams (handleSearch text params) = getFilterFromParams params := by
  have hne : "group" ≠ "search" := by decide
  rw [handleSearch, getFilterFromParams, getFilterFromParams]
  split_ifs
  · rw [get_set_of_ne hne]
  · rw [get_delete_of_ne hne]

end Params

section Run

variable {toUpperCase : String → String} {order : HashOrder ScienceGroup}
variable {codec : OpaqueCursor Nat} {server : String → ListOptions → Answer ClusterTemplate}
variable {templates : List ClusterTemplate} {s t : TemplatesList} {a : Action}

theorem isValid_groupRequirement (group : ScienceGroup) : group.requirement.isValid := by
  cases group <;> decide +kernel

/-- The selector of a filter is accepted, and lists what the filter asks for. -/
theorem fetchNodes_eq (hserver : ServesTemplates server templates)
    (filter : WorkflowTemplatesFilter) :
    fetchNodes order codec server filter = some (inGroups templates filter.Asks) := by
  have hrequirement : ∀ r ∈ groupRequirements order filter, ∃ group : ScienceGroup,
      r = group.requirement := by
    intro r hr
    rw [groupRequirements] at hr
    split at hr
    · obtain ⟨group, -, rfl⟩ := List.mem_map.mp hr
      exact ⟨group, rfl⟩
    · cases hr
  have hplain : ∀ r ∈ groupRequirements order filter, r.Plain := by
    intro r hr
    obtain ⟨group, rfl⟩ := hrequirement r hr
    exact plain_groupRequirement group
  have hvalid : (groupRequirements order filter).all (·.isValid) := by
    rw [List.all_eq_true]
    intro r hr
    obtain ⟨group, rfl⟩ := hrequirement r hr
    exact isValid_groupRequirement group
  have hparse := parse_print hplain
  rw [if_pos hvalid] at hparse
  have hasks : (templates.filter fun template =>
      ∀ r ∈ groupRequirements order filter, r.Matches template.labels) =
      templates.filter fun template => filter.Asks template.labels :=
    List.filter_congr fun template _ =>
      decide_eq_decide.mpr (matches_groupRequirements order filter template.labels)
  have hlist := hserver _ _ hparse
  rw [hasks] at hlist
  have hpage : resolvePage codec ClusterTemplate.node (server _) workflowTemplatesLimits
      ("Invalid Cursor: " ++ ·) none none = .ok _ :=
    resolvePage_eq_ok hlist (by decide) (.inr ⟨rfl, rfl⟩)
  rw [fetchNodes, createLabelSelection_templates]
  dsimp only
  rw [workflowTemplates, hpage]
  dsimp only
  rw [Connection.nodes, nodes_edgesFrom]
  rfl

theorem filteredNodes_eq (hserver : ServesTemplates server templates) (s : TemplatesList) :
    filteredNodes toUpperCase order codec server s =
      some (asked toUpperCase templates (readSearch s.locationSearch)) := by
  rw [filteredNodes, fetchNodes_eq hserver]
  rfl

theorem shown_eq (hserver : ServesTemplates server templates) (s : TemplatesList) :
    shown toUpperCase order codec server s =
      some (paginatedItems (asked toUpperCase templates (readSearch s.locationSearch)) 10
        s.pageNumber) := by
  rw [shown, filteredNodes_eq hserver]
  rfl

/-- The number is that of a page there is, or the first. -/
def OnPage (items : List TemplateNode) (s : TemplatesList) : Prop :=
  1 ≤ s.pageNumber ∧ (s.pageNumber = 1 ∨ s.pageNumber ≤ totalPages items 10)

theorem onPage_navigate (h : OnPage (asked toUpperCase templates (readSearch s.locationSearch)) s)
    (locationSearch : String) :
    OnPage (asked toUpperCase templates (readSearch (s.navigate locationSearch).locationSearch))
      (s.navigate locationSearch) := by
  by_cases hsame : locationSearch = s.locationSearch
  · have hnavigate : s.navigate locationSearch = s := by
      rw [navigate, if_pos hsame, hsame]
    rw [hnavigate]
    exact h
  · have hfirst : (s.navigate locationSearch).pageNumber = 1 := if_neg hsame
    rw [OnPage, hfirst]
    exact ⟨le_rfl, .inl rfl⟩

theorem onPage_step (hserver : ServesTemplates server templates)
    (h : OnPage (asked toUpperCase templates (readSearch s.locationSearch)) s)
    (hstep : step toUpperCase order codec server s a = some t) :
    OnPage (asked toUpperCase templates (readSearch t.locationSearch)) t := by
  cases a with
  | search text =>
    cases hstep
    exact onPage_navigate h _
  | setFilter scienceGroup =>
    cases hstep
    exact onPage_navigate h _
  | turn page =>
    simp only [step, filteredNodes_eq hserver] at hstep
    obtain ⟨⟨hpos, hle⟩, hstep⟩ := Option.ite_none_right_eq_some.mp hstep
    cases hstep
    exact ⟨hpos, .inr hle⟩
  | visit locationSearch =>
    cases hstep
    exact onPage_navigate h _

/-- What the page shows of the templates that it is asked for, and can be turned to. -/
structure Lists (toUpperCase : String → String)
    (order : HashOrder ScienceGroup) (codec : OpaqueCursor Nat)
    (server : String → ListOptions → Answer ClusterTemplate) (items : List TemplateNode)
    (s : TemplatesList) : Prop where
  shown_eq : shown toUpperCase order codec server s =
    some (paginatedItems items 10 s.pageNumber)
  shown_ne_nil : items ≠ [] → shown toUpperCase order codec server s ≠ some []
  turn : ∀ p, 1 ≤ p → p ≤ totalPages items 10 →
    ∃ t, step toUpperCase order codec server s (.turn p) = some t ∧
      shown toUpperCase order codec server t = some (paginatedItems items 10 p)
  pages : (List.range (totalPages items 10)).flatMap (fun p => paginatedItems items 10 (p + 1)) =
    items

theorem lists_of_onPage (hserver : ServesTemplates server templates)
    (h : OnPage (asked toUpperCase templates (readSearch s.locationSearch)) s) :
    Lists toUpperCase order codec server
      (asked toUpperCase templates (readSearch s.locationSearch)) s where
  shown_eq := shown_eq hserver s
  shown_ne_nil := by
    intro hne hnil
    rw [shown_eq hserver, Option.some.injEq] at hnil
    refine paginatedItems_ne_nil (by decide) h.1 ?_ hnil
    obtain hfirst | hle := h.2
    · rw [hfirst]
      exact totalPages_pos (by decide) hne
    · exact hle
  turn := by
    intro p hpos hle
    have hstep : step toUpperCase order codec server s (.turn p) =
        some { s with pageNumber := p } := by
      simp only [step, filteredNodes_eq hserver]
      exact if_pos ⟨hpos, hle⟩
    exact ⟨_, hstep, shown_eq hserver _⟩
  pages := flatMap_totalPages (by decide)

end Run

section Examples

/-- A server that has the templates. -/
def exampleServer (templates : List ClusterTemplate) (selector : String) (options : ListOptions) :
    Answer ClusterTemplate :=
  match parse selector with
  | none => .failed
  | some rs =>
    let found := templates.filter fun template => ∀ r ∈ rs, r.Matches template.labels
    .listed
      { items := (found.drop (options.continueAt.getD 0)).take options.limit
        continueToken :=
          if options.continueAt.getD 0 + options.limit < found.length then some "" else none }

theorem servesTemplates_exampleServer (templates : List ClusterTemplate) :
    ServesTemplates (exampleServer templates) templates := by
  intro selector rs hparse options
  refine ⟨_, by rw [exampleServer, hparse], rfl, ?_⟩
  split_ifs with hmore <;> simp [hmore]

/-- One template is for the group and one is not. -/
def exampleTemplates : List ClusterTemplate :=
  [{ labels :=
        { get := fun key => if key = "workflows.diamond.ac.uk/science-group-mx" then some "true"
            else none
          valid := by
            intro key value h
            obtain ⟨rfl, h⟩ := Option.ite_none_right_eq_some.mp h
            cases h
            decide +kernel }
     node := ⟨"fit", some "Fitting", none⟩ },
    { labels := { get := fun _ => none, valid := by simp }
      node := ⟨"count", none, none⟩ }]

def exampleUpperCase (text : String) : String := String.ofList (text.toList.map Char.toUpper)

end Examples

end TemplatesList

end Workflows.Frontend
