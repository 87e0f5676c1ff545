import Workflows.Foundations.JsonText

/-!
# The tasks selected in the address

The page of a workflow keeps its selected tasks in the search parameter `tasks`, as the text of a
JSON array. Whenever the address changes, an effect of the page reads the parameter and writes what
it read back. The members of an object are kept in the order of their keys.
-/

namespace Workflows.Frontend

open Json

/-- The names and values of `URLSearchParams`, in their order. -/
abbrev SearchParams := List (String × String)

namespace SearchParams

def get (params : SearchParams) (name : String) : Option String := params.lookup name

def delete (params : SearchParams) (name : String) : SearchParams :=
  params.filter fun entry => entry.1 ≠ name

/-- The first value is replaced and the others are dropped. -/
def set : SearchParams → String → String → SearchParams
  | [], name, value => [(name, value)]
  | entry :: params, name, value =>
    if entry.1 = name then (name, value) :: delete params name
    else entry :: set params name value

variable {params : SearchParams} {name other value : String}

theorem get_delete_self : (delete params name).get name = none := by
  rw [get, List.lookup_eq_none_iff]
  intro entry hentry
  have hne := of_decide_eq_true (List.mem_filter.mp hentry).2
  exact bne_iff_ne.mpr (Ne.symm hne)

theorem get_set_self : (set params name value).get name = some value := by
  induction params with
  | nil => simp [set, get]
  | cons entry params ih =>
    rw [set]
    split_ifs with heq
    · simp [get]
    · rw [get, List.lookup_cons, beq_false_of_ne (Ne.symm heq)]
      exact ih

theorem delete_delete : delete (delete params name) name = delete params name := by
  rw [delete, delete, List.filter_filter]
  simp

theorem set_set : set (set params name other) name value = set params name value := by
  induction params with
  | nil => simp [set, delete]
  | cons entry params ih =>
    rw [set, set]
    split_ifs with heq
    · rw [set, if_pos rfl, delete_delete]
    · rw [set, if_neg heq, ih]

theorem delete_set : delete (set params name value) name = delete params name := by
  induction params with
  | nil => simp [set, delete]
  | cons entry params ih =>
    rw [set]
    split_ifs with heq
    · rw [delete, List.filter_cons_of_neg (by simp), ← delete, delete_delete, delete, delete,
        List.filter_cons_of_neg (by simpa using heq)]
    · rw [delete, List.filter_cons_of_pos (by simpa using heq), ← delete, ih, delete, delete,
        List.filter_cons_of_pos (by simpa using heq)]

end SearchParams

section Parameter

variable (format : NumberFormat) (limit : Nat)

/-- `JSON.parse`, where it does not throw. -/
def parseTasks (taskParam : String) : Option Json := parse format limit taskParam.toList

def stringOf : Json → Option String
  | .string s => some s
  | _ => none

def taskIdsOf : Json → List String
  | .array items => (items.mapM stringOf).getD []
  | _ => []

def getTasksIdsFromSearchParams (searchParams : SearchParams) : List String :=
  match searchParams.get "tasks" with
  | none => []
  | some taskParam =>
    if taskParam = "" then []
    else
      match parseTasks format limit taskParam with
      | some parsed => taskIdsOf parsed
      | none => []

/-- The `taskIds` of the page, which may be any JSON value. -/
def pageTaskIds (searchParams : SearchParams) : Json :=
  match searchParams.get "tasks" with
  | none => .array []
  | some taskParam =>
    if taskParam = "" then .array []
    else (parseTasks format limit taskParam).getD (.array [])

end Parameter

section Page

variable (format : NumberFormat) (limit : Nat) (lengthPositive : List (String × Json) → Bool)

/-- Whether `length` is greater than zero; `lengthPositive` says it of an object's members. -/
def hasLength : Json → Bool
  | .array items => !items.isEmpty
  | .string s => s ≠ ""
  | .object entries => lengthPositive entries
  | _ => false

def updateSearchParamsWithTaskIds (updatedTaskIds : Json) (searchParams : SearchParams) :
    SearchParams :=
  if hasLength lengthPositive updatedTaskIds then
    searchParams.set "tasks" (String.ofList (text updatedTaskIds))
  else searchParams.delete "tasks"

def setSelectedTaskIds (taskIds : List String) (searchParams : SearchParams) : SearchParams :=
  updateSearchParamsWithTaskIds lengthPositive (.array (taskIds.map .string)) searchParams

def orEmpty : Json → Json
  | .null => .array []
  | taskIds => taskIds

/-- The effect that runs after the address has changed. -/
def settle (searchParams : SearchParams) : SearchParams :=
  updateSearchParamsWithTaskIds lengthPositive (orEmpty (pageTaskIds format limit searchParams))
    searchParams

inductive SelectionEvent where
  | navigate (taskId : String) (isCtrl : Bool)
  | selectOutput (outputTaskIds : List String)
  | selectClear

def onNavigate (selectedTaskIds : List String) (taskId : String) (isCtrl : Bool) : List String :=
  if isCtrl then
    if taskId ∈ selectedTaskIds then selectedTaskIds.filter fun id => id ≠ taskId
    else selectedTaskIds ++ [taskId]
  else [taskId]

def SelectionEvent.select (selectedTaskIds : List String) : SelectionEvent → List String
  | .navigate taskId isCtrl => onNavigate selectedTaskIds taskId isCtrl
  | .selectOutput outputTaskIds => outputTaskIds
  | .selectClear => []

def selectStep (searchParams : SearchParams) (event : SelectionEvent) : SearchParams :=
  settle format limit lengthPositive
    (setSelectedTaskIds lengthPositive
      (event.select (getTasksIdsFromSearchParams format limit searchParams)) searchParams)

end Page

section Values

variable {format : NumberFormat} {limit : Nat} {lengthPositive : List (String × Json) → Bool}

/-- A value that is read back from its text. -/
def Stored (format : NumberFormat) (limit : Nat) (v : Json) : Prop :=
  v.Canonical format.IsNumber ∧ v.nesting ≤ limit

theorem parseTasks_text {v : Json} (h : Stored format limit v) :
    parseTasks format limit (String.ofList (text v)) = some v := by
  rw [parseTasks, String.toList_ofList, parse_text h.1, if_pos h.2]

theorem text_ne_empty {v : Json} (h : Stored format limit v) : String.ofList (text v) ≠ "" := by
  obtain ⟨c, cs, htext, -⟩ := text_head h.1
  intro hempty
  have hlist := congrArg String.toList hempty
  rw [String.toList_ofList, htext] at hlist
  cases hlist

theorem stored_strings (hlimit : 1 ≤ limit) (taskIds : List String) :
    Stored format limit (.array (taskIds.map .string)) := by
  refine ⟨.array ?_, ?_⟩
  · simp only [List.forall_mem_map]
    exact fun s _ => .string s
  · have hitems : itemsNesting (taskIds.map .string) ≤ 0 := by
      simp only [itemsNesting_le_iff, List.forall_mem_map]
      exact fun s _ => le_rfl
    rw [nesting]
    omega

theorem stored_orEmpty (hlimit : 1 ≤ limit) {v : Json} (h : Stored format limit v) :
    Stored format limit (orEmpty v) := by
  cases v with
  | null => exact stored_strings hlimit []
  | _ => exact h

theorem stored_pageTaskIds (hlimit : 1 ≤ limit) (searchParams : SearchParams) :
    Stored format limit (pageTaskIds format limit searchParams) := by
  have hnil : Stored format limit (.array []) := stored_strings hlimit []
  rw [pageTaskIds]
  split
  next => exact hnil
  next taskParam _ =>
    split_ifs
    · exact hnil
    · cases hparsed : parseTasks format limit taskParam with
      | none => exact hnil
      | some v => exact ⟨canonical_of_parse hparsed, nesting_of_parse hparsed⟩

theorem taskIdsOf_strings (taskIds : List String) :
    taskIdsOf (.array (taskIds.map .string)) = taskIds := by
  have hall : (taskIds.map .string).mapM stringOf = some taskIds := by
    rw [List.mapM_map]
    induction taskIds with
    | nil => rfl
    | cons taskId taskIds ih =>
      rw [List.mapM_cons, ih]
      rfl
  rw [taskIdsOf, hall, Option.getD_some]

theorem taskIdsOf_orEmpty (v : Json) : taskIdsOf (orEmpty v) = taskIdsOf v := by
  cases v <;> rfl

/-- What the two readers of the parameter make of it. -/
theorem getTasks_eq_taskIdsOf (searchParams : SearchParams) :
    getTasksIdsFromSearchParams format limit searchParams =
      taskIdsOf (pageTaskIds format limit searchParams) := by
  rw [getTasksIdsFromSearchParams, pageTaskIds]
  split
  next => rfl
  next taskParam _ =>
    split_ifs
    · rfl
    · cases parseTasks format limit taskParam <;> rfl

theorem taskIdsOf_of_not_hasLength {v : Json} (h : hasLength lengthPositive v = false) :
    taskIdsOf v = [] := by
  cases v with
  | array items =>
    cases items with
    | nil => rfl
    | cons item items => cases h
  | _ => rfl

theorem orEmpty_of_hasLength {v : Json} (h : hasLength lengthPositive v) : orEmpty v = v := by
  cases v with
  | null => cases h
  | _ => rfl

theorem pageTaskIds_update {v : Json} (h : Stored format limit v) (searchParams : SearchParams) :
    pageTaskIds format limit (updateSearchParamsWithTaskIds lengthPositive v searchParams) =
      if hasLength lengthPositive v then v else .array [] := by
  rw [updateSearchParamsWithTaskIds]
  split_ifs
  · rw [pageTaskIds, SearchParams.get_set_self]
    dsimp only
    rw [if_neg (text_ne_empty h), parseTasks_text h, Option.getD_some]
  · rw [pageTaskIds, SearchParams.get_delete_self]

theorem getTasks_update {v : Json} (h : Stored format limit v) (searchParams : SearchParams) :
    getTasksIdsFromSearchParams format limit
      (updateSearchParamsWithTaskIds lengthPositive v searchParams) = taskIdsOf v := by
  rw [getTasks_eq_taskIdsOf, pageTaskIds_update h]
  split_ifs with hlength
  · rfl
  · rw [taskIdsOf_of_not_hasLength (Bool.eq_false_of_not_eq_true hlength)]
    rfl

/-- Writing back what was written changes nothing. -/
theorem settle_update {v : Json} (h : Stored format limit v) (searchParams : SearchParams) :
    settle format limit lengthPositive
        (updateSearchParamsWithTaskIds lengthPositive v searchParams) =
      updateSearchParamsWithTaskIds lengthPositive v searchParams := by
  rw [settle, pageTaskIds_update h]
  split_ifs with hlength
  · rw [orEmpty_of_hasLength hlength, updateSearchParamsWithTaskIds, if_pos hlength,
      updateSearchParamsWithTaskIds, if_pos hlength, SearchParams.set_set]
  · rw [updateSearchParamsWithTaskIds, updateSearchParamsWithTaskIds, if_neg hlength]
    exact SearchParams.delete_delete

theorem delete_update (v : Json) (searchParams : SearchParams) :
    (updateSearchParamsWithTaskIds lengthPositive v searchParams).delete "tasks" =
      searchParams.delete "tasks" := by
  rw [updateSearchParamsWithTaskIds]
  split_ifs
  · exact SearchParams.delete_set
  · exact SearchParams.delete_delete

end Values

section Run

variable {format : NumberFormat} {limit : Nat} {lengthPositive : List (String × Json) → Bool}

theorem getTasks_settle (hlimit : 1 ≤ limit) (searchParams : SearchParams) :
    getTasksIdsFromSearchParams format limit (settle format limit lengthPositive searchParams) =
      getTasksIdsFromSearchParams format limit searchParams := by
  have hstored : Stored format limit (pageTaskIds format limit searchParams) :=
    stored_pageTaskIds hlimit searchParams
  rw [settle, getTasks_update (stored_orEmpty hlimit hstored), taskIdsOf_orEmpty,
    ← getTasks_eq_taskIdsOf]

theorem settle_settle (hlimit : 1 ≤ limit) (searchParams : SearchParams) :
    settle format limit lengthPositive (settle format limit lengthPositive searchParams) =
      settle format limit lengthPositive searchParams :=
  settle_update (stored_orEmpty hlimit (stored_pageTaskIds hlimit searchParams)) searchParams

theorem delete_settle (searchParams : SearchParams) :
    (settle format limit lengthPositive searchParams).delete "tasks" =
      searchParams.delete "tasks" :=
  delete_update _ searchParams

/-- One event does to the address what it does to the list. -/
theorem getTasks_selectStep (hlimit : 1 ≤ limit) (searchParams : SearchParams)
    (event : SelectionEvent) :
    getTasksIdsFromSearchParams format limit
        (selectStep format limit lengthPositive searchParams event) =
      event.select (getTasksIdsFromSearchParams format limit searchParams) := by
  rw [selectStep, getTasks_settle hlimit, setSelectedTaskIds, getTasks_update (stored_strings hlimit _),
    taskIdsOf_strings]

theorem delete_selectStep (searchParams : SearchParams) (event : SelectionEvent) :
    (selectStep format limit lengthPositive searchParams event).delete "tasks" =
      searchParams.delete "tasks" := by
  rw [selectStep, delete_settle, setSelectedTaskIds, delete_update]

theorem nodup_onNavigate {selectedTaskIds : List String} (h : selectedTaskIds.Nodup)
    (taskId : String) (isCtrl : Bool) : (onNavigate selectedTaskIds taskId isCtrl).Nodup := by
  rw [onNavigate]
  split_ifs with hctrl hmem
  · exact h.filter _
  · refine List.nodup_append.mpr ⟨h, List.nodup_singleton _, ?_⟩
    rintro a ha b hb rfl
    rw [List.mem_singleton.mp hb] at ha
    exact hmem ha
  · exact List.nodup_singleton _

/-- The outputs offered by an event name no task twice. -/
def SelectionEvent.Distinct : SelectionEvent → Prop
  | .selectOutput outputTaskIds => outputTaskIds.Nodup
  | _ => True

theorem nodup_select {selectedTaskIds : List String} (h : selectedTaskIds.Nodup)
    {event : SelectionEvent} (hevent : event.Distinct) : (event.select selectedTaskIds).Nodup := by
  cases event with
  | navigate taskId isCtrl => exact nodup_onNavigate h taskId isCtrl
  | selectOutput outputTaskIds => exact hevent
  | selectClear => exact List.nodup_nil

theorem nodup_foldl_select {events : List SelectionEvent} {selectedTaskIds : List String}
    (h : selectedTaskIds.Nodup) (hevents : ∀ event ∈ events, event.Distinct) :
    (events.foldl SelectionEvent.select selectedTaskIds).Nodup := by
  induction events generalizing selectedTaskIds with
  | nil => exact h
  | cons event events ih =>
    obtain ⟨hevent, hevents⟩ := List.forall_mem_cons.mp hevents
    exact ih (nodup_select h hevent) hevents

end Run

end Workflows.Frontend
