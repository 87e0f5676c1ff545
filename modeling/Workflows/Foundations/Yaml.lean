import Mathlib.Data.List.Basic
import Mathlib.Tactic.SplitIfs

/-!
# YAML values

Values as an untyped reader gives them, with the operations on mappings by string keys, and which
of them can be written as JSON.
-/

namespace Workflows

/-- A scalar that is no string keeps its text, which a typed reader may take for a string. -/
inductive Yaml where
  | null (text : String)
  | bool (text : String)
  | number (text : String) (finite : Bool)
  | string (s : String)
  | sequence (items : List Yaml)
  | mapping (entries : List (Yaml × Yaml))
  | tagged (tag : String) (value : Yaml)

namespace Yaml

abbrev Mapping := List (Yaml × Yaml)

/-- `as_str`, which looks behind tags. -/
def asStr : Yaml → Option String
  | string s => some s
  | tagged _ value => value.asStr
  | _ => none

/-- Changes a mapping in place, behind tags too. -/
def modifyMapping {ε : Type} (missing : ε) (f : Mapping → Except ε Mapping) : Yaml → Except ε Yaml
  | mapping entries => (f entries).map mapping
  | tagged tag value => (value.modifyMapping missing f).map (tagged tag)
  | _ => .error missing

def isKey (name : String) : Yaml → Bool
  | string s => s = name
  | _ => false

namespace Mapping

def get (m : Mapping) (name : String) : Option Yaml :=
  (m.find? fun entry => isKey name entry.1).map (·.2)

def insert (m : Mapping) (name : String) (value : Yaml) : Mapping :=
  if m.any fun entry => isKey name entry.1 then
    m.map fun entry => if isKey name entry.1 then (entry.1, value) else entry
  else m ++ [(string name, value)]

def remove (m : Mapping) (name : String) : Mapping :=
  m.filter fun entry => !isKey name entry.1

end Mapping

/-- `as_mapping`, which looks behind tags; anything else has no entries. -/
def entries : Yaml → Mapping
  | mapping entries => entries
  | tagged _ value => value.entries
  | _ => []

/-- The keys that JSON has a text for. -/
def isJsonKey : Yaml → Bool
  | string _ | bool _ | number _ true => true
  | _ => false

mutual

/-- Whether `serde_json` can write the value. -/
def isJson : Yaml → Bool
  | sequence items => itemsJson items
  | mapping entries => entriesJson entries
  | tagged _ value => value.isJson
  | _ => true

def itemsJson : List Yaml → Bool
  | [] => true
  | item :: items => item.isJson && itemsJson items

def entriesJson : List (Yaml × Yaml) → Bool
  | [] => true
  | (key, value) :: entries => key.isJsonKey && value.isJson && entriesJson entries

end

section Keys

variable {name other : String} {value : Yaml} {m : Mapping}

theorem isKey_iff {key : Yaml} : key.isKey name ↔ key = string name := by
  cases key with
  | string s => simp [isKey]
  | _ => simp [isKey]

@[simp] theorem isKey_string_self : (string name).isKey name = true := isKey_iff.mpr rfl

theorem isKey_string_of_ne (h : other ≠ name) : (string name).isKey other = false :=
  decide_eq_false h.symm

namespace Mapping

theorem get_cons (entry : Yaml × Yaml) (m : Mapping) :
    get (entry :: m) name = if entry.1.isKey name then some entry.2 else get m name := by
  rw [get, List.find?_cons]
  cases entry.1.isKey name with
  | true => rfl
  | false => rfl

theorem get_eq_none_iff : get m name = none ↔ (m.any fun entry => isKey name entry.1) = false := by
  rw [get, Option.map_eq_none_iff, List.find?_eq_none, List.any_eq_false]

theorem get_map (m : Mapping) (name other : String) (value : Yaml) :
    get (m.map fun entry => if isKey name entry.1 then (entry.1, value) else entry) other =
      if name = other then (get m name).map fun _ => value else get m other := by
  induction m with
  | nil => simp [get]
  | cons entry m ih =>
    rw [List.map_cons, get_cons, ih, get_cons, get_cons]
    cases hkey : entry.1.isKey name with
    | true =>
      obtain rfl | hne := eq_or_ne name other
      · simp [hkey]
      · have hother : entry.1.isKey other = false := by
          rw [isKey_iff.mp hkey, isKey_string_of_ne hne.symm]
        simp [hother, hne]
    | false =>
      obtain rfl | hne := eq_or_ne name other
      · simp [hkey]
      · simp [hne]

theorem get_append_singleton (m : Mapping) (name other : String) (value : Yaml) :
    get (m ++ [(string name, value)]) other =
      (get m other).or (if name = other then some value else none) := by
  rw [get, List.find?_append, Option.map_or]
  obtain rfl | hne := eq_or_ne name other
  · simp [get]
  · simp [get, isKey_string_of_ne hne.symm, hne]

@[simp] theorem get_insert_self (m : Mapping) (name : String) (value : Yaml) :
    get (m.insert name value) name = some value := by
  rw [insert]
  split_ifs with hany
  · rw [get_map, if_pos rfl]
    cases hget : get m name with
    | some v => rfl
    | none => exact absurd hany (by simp [get_eq_none_iff.mp hget])
  · rw [get_append_singleton, if_pos rfl, get_eq_none_iff.mpr (Bool.eq_false_iff.mpr hany)]
    rfl

theorem get_insert_of_ne (h : name ≠ other) (m : Mapping) (value : Yaml) :
    get (m.insert name value) other = get m other := by
  rw [insert]
  split_ifs with hany
  · rw [get_map, if_neg h]
  · rw [get_append_singleton, if_neg h, Option.or_none]

@[simp] theorem get_remove_self (m : Mapping) (name : String) : get (m.remove name) name = none := by
  rw [get_eq_none_iff, remove, List.any_eq_false]
  intro entry hentry
  have hkey := (List.mem_filter.mp hentry).2
  simpa using hkey

theorem remove_cons (entry : Yaml × Yaml) (m : Mapping) :
    remove (entry :: m) name =
      if entry.1.isKey name then remove m name else entry :: remove m name := by
  rw [remove, List.filter_cons]
  cases entry.1.isKey name with
  | true => rfl
  | false => rfl

theorem remove_insert_of_ne (h : name ≠ other) (m : Mapping) (value : Yaml) :
    (m.insert name value).remove other = (m.remove other).insert name value := by
  have hkey : ∀ entry : Yaml × Yaml, isKey name entry.1 → isKey other entry.1 = false := by
    intro entry hentry
    rw [isKey_iff.mp hentry, isKey_string_of_ne h.symm]
  have hany : (m.remove other).any (fun entry => isKey name entry.1) =
      m.any fun entry => isKey name entry.1 := by
    rw [remove, List.any_filter]
    congr 1
    funext entry
    cases hentry : isKey name entry.1 with
    | true => simp [hkey entry hentry]
    | false => simp
  rw [insert, insert, hany]
  split_ifs with hmem
  · rw [remove, remove, List.filter_map]
    congr 2
    funext entry
    simp only [Function.comp_apply]
    split_ifs
    · rfl
    · rfl
  · rw [remove, remove, List.filter_append]
    simp [isKey_string_of_ne h.symm]

theorem entriesJson_cons (entry : Yaml × Yaml) (m : Mapping) :
    entriesJson (entry :: m) = (entry.1.isJsonKey && entry.2.isJson && entriesJson m) := rfl

theorem entriesJson_append (m more : Mapping) :
    entriesJson (m ++ more) = (entriesJson m && entriesJson more) := by
  induction m with
  | nil => rfl
  | cons entry m ih =>
    rw [List.cons_append, entriesJson_cons, entriesJson_cons, ih, ← Bool.and_assoc]

theorem entriesJson_map (m : Mapping) (name : String) (value : Yaml) :
    entriesJson (m.map fun entry => if isKey name entry.1 then (entry.1, value) else entry) =
      (entriesJson (m.remove name) &&
        ((m.any fun entry => isKey name entry.1).not || value.isJson)) := by
  induction m with
  | nil => rfl
  | cons entry m ih =>
    rw [List.map_cons, entriesJson_cons, ih, remove_cons, List.any_cons]
    cases hkey : entry.1.isKey name with
    | true =>
      rw [isKey_iff.mp hkey]
      cases hjson : value.isJson with
      | true => simp [hjson, isJsonKey]
      | false => simp [hjson]
    | false =>
      simp only [Bool.false_eq_true, if_false, Bool.false_or]
      rw [entriesJson_cons, Bool.and_assoc _ (entriesJson _)]

/-- A mapping with a new entry is written if the rest and the entry are. -/
theorem entriesJson_insert (m : Mapping) (name : String) (value : Yaml) :
    entriesJson (m.insert name value) = (entriesJson (m.remove name) && value.isJson) := by
  rw [insert]
  split_ifs with hany
  · rw [entriesJson_map, hany]
    rfl
  · have hremove : m.remove name = m := by
      rw [remove, List.filter_eq_self]
      intro entry hentry
      have hkey := List.any_eq_false.mp (Bool.eq_false_iff.mpr hany) entry hentry
      simpa using hkey
    rw [hremove, entriesJson_append, entriesJson_cons]
    simp [entriesJson, isJsonKey]

end Mapping

end Keys

end Yaml

end Workflows
