import Workflows.Foundations.JsonText

/-!
# Conservative merging of JSON values

Two objects are merged key by key, and what only one of them has under a key is taken. Where the
values conflict the first one stays. What becomes of two arrays is left open.
-/

namespace Workflows

namespace Json

def isObject : Json → Bool
  | .object _ => true
  | _ => false

def isArray : Json → Bool
  | .array _ => true
  | _ => false

theorem exists_object {j : Json} (h : j.isObject = true) : ∃ entries, j = .object entries := by
  cases j with
  | object entries => exact ⟨entries, rfl⟩
  | _ => cases h

section Fields

def field : Json → String → Option Json
  | .object entries, key => entries.lookup key
  | _, _ => none

/-- What stands in the objects below each other under the keys. -/
def fieldAt : Json → List String → Option Json
  | j, [] => some j
  | j, key :: path => (j.field key).bind (fieldAt · path)

theorem fieldAt_cons (j : Json) (key : String) (path : List String) :
    j.fieldAt (key :: path) = (j.field key).bind (fieldAt · path) := rfl

theorem fieldAt_append (j : Json) (path path' : List String) :
    j.fieldAt (path ++ path') = (j.fieldAt path).bind (fieldAt · path') := by
  induction path generalizing j with
  | nil => rfl
  | cons key path ih =>
    rw [List.cons_append, fieldAt_cons, fieldAt_cons, Option.bind_assoc]
    exact congrArg _ (funext ih)

theorem fieldAt_singleton (j : Json) (key : String) : j.fieldAt [key] = j.field key :=
  Option.bind_fun_some _

theorem isObject_of_field {j v : Json} {key : String} (h : j.field key = some v) :
    j.isObject = true := by
  cases j with
  | object entries => rfl
  | _ => cases h

end Fields

/-- `c` has what `a` has, and where `a` has nothing under a key it has what `b` has there. -/
structure Fills (a b c : Json) : Prop where
  kept : ∀ path v, a.fieldAt path = some v → v.isObject = false →
    (v.isArray = true → ∀ w, b.fieldAt path = some w → w.isArray = false) →
    c.fieldAt path = some v
  filled : ∀ path v key, a.fieldAt path = some v → v.isObject = true → v.field key = none →
    c.fieldAt (path ++ [key]) = b.fieldAt (path ++ [key])

end Json

structure ConservativeMerger where
  merge : Json → Json → Json
  object : ∀ as bs, ∃ cs, merge (.object as) (.object bs) = .object cs ∧
    ∀ key, cs.lookup key =
      match as.lookup key, bs.lookup key with
      | some a, some b => some (merge a b)
      | some a, none => some a
      | none, b => b
  conflict : ∀ a b : Json, ¬(a.isObject = true ∧ b.isObject = true) →
    ¬(a.isArray = true ∧ b.isArray = true) → merge a b = a

namespace ConservativeMerger

open Json

variable (M : ConservativeMerger) {a b v : Json} {key : String}

theorem field_merge (ha : a.isObject = true) : (M.merge a b).field key =
    match a.field key, b.field key with
    | some v, some w => some (M.merge v w)
    | some v, none => some v
    | none, w => w := by
  obtain ⟨as, rfl⟩ := exists_object ha
  cases hb : b.isObject with
  | true =>
    obtain ⟨bs, rfl⟩ := exists_object hb
    obtain ⟨cs, hmerge, hlookup⟩ := M.object as bs
    rw [hmerge]
    exact hlookup key
  | false =>
    have hnone : b.field key = none := by
      by_contra hsome
      obtain ⟨w, hw⟩ := Option.ne_none_iff_exists'.mp hsome
      rw [isObject_of_field hw] at hb
      cases hb
    have hkeep : M.merge (.object as) b = .object as := by
      apply M.conflict
      · simp [hb]
      · simp [isArray]
    rw [hkeep, hnone]
    cases (Json.object as).field key <;> rfl

theorem fieldAt_merge_cons (hv : a.field key = some v) (path : List String) :
    (M.merge a b).fieldAt (key :: path) =
      match b.field key with
      | some w => (M.merge v w).fieldAt path
      | none => v.fieldAt path := by
  rw [fieldAt_cons, M.field_merge (isObject_of_field hv), hv]
  cases b.field key <;> rfl

/-- The induction is on the path: the merged values below a key are merged themselves. -/
theorem fills_merge (a b : Json) : Fills a b (M.merge a b) where
  kept path v hv hobject harray := by
    induction path generalizing a b with
    | nil =>
      obtain rfl := Option.some.inj hv
      apply congrArg some
      apply M.conflict
      · rw [hobject]
        exact fun h => Bool.false_ne_true h.1
      · intro h
        rw [harray h.1 b rfl] at h
        exact Bool.false_ne_true h.2
    | cons key path ih =>
      obtain ⟨u, hu, hrest⟩ := Option.bind_eq_some_iff.mp hv
      rw [M.fieldAt_merge_cons hu]
      cases hw : b.field key with
      | none => exact hrest
      | some w =>
        apply ih u w hrest
        intro hv' x hx
        exact harray hv' x (by rw [fieldAt_cons, hw]; exact hx)
  filled path v key hv hobject hnone := by
    induction path generalizing a b with
    | nil =>
      obtain rfl := Option.some.inj hv
      rw [List.nil_append, fieldAt_singleton, fieldAt_singleton, M.field_merge hobject, hnone]
    | cons name path ih =>
      obtain ⟨u, hu, hrest⟩ := Option.bind_eq_some_iff.mp hv
      rw [List.cons_append, M.fieldAt_merge_cons hu, fieldAt_cons b]
      cases hw : b.field name with
      | none =>
        rw [fieldAt_append, hrest]
        exact (fieldAt_singleton v key).trans hnone
      | some w => exact ih u w hrest

section Instance

mutual

/-- Of two arrays, one after the other. -/
def mergeJson : Json → Json → Json
  | .object as, .object bs =>
    .object (mergeEntries as bs ++ bs.filter fun e => (as.lookup e.1).isNone)
  | .array as, .array bs => .array (as ++ bs)
  | a, _ => a

def mergeEntries : List (String × Json) → List (String × Json) → List (String × Json)
  | [], _ => []
  | (key, a) :: as, bs =>
    (key, match bs.lookup key with
      | some b => mergeJson a b
      | none => a) :: mergeEntries as bs

end

theorem lookup_mergeEntries (as bs : List (String × Json)) (key : String) :
    (mergeEntries as bs).lookup key = (as.lookup key).map fun a =>
      match bs.lookup key with
      | some b => mergeJson a b
      | none => a := by
  induction as with
  | nil => rfl
  | cons entry as ih =>
    obtain ⟨name, a⟩ := entry
    rw [mergeEntries, lookup_cons_ite, lookup_cons_ite, ih]
    split_ifs with h
    · rw [h]
      rfl
    · rfl

theorem lookup_filter_fst (p : String → Bool) (bs : List (String × Json)) (key : String) :
    (bs.filter fun e => p e.1).lookup key = if p key then bs.lookup key else none := by
  induction bs with
  | nil => simp
  | cons entry bs ih =>
    obtain ⟨name, b⟩ := entry
    rw [List.filter_cons, lookup_cons_ite]
    by_cases hkey : key = name
    · subst hkey
      by_cases hp : p key
      · simp [hp]
      · simp [hp, ih]
    · by_cases hp : p name
      · simp [hp, hkey, ih, lookup_cons_ite]
      · simp [hp, hkey, ih]

def ofJson : ConservativeMerger where
  merge := mergeJson
  object as bs := by
    refine ⟨_, rfl, fun key => ?_⟩
    rw [List.lookup_append, lookup_mergeEntries,
      lookup_filter_fst fun name => (as.lookup name).isNone]
    cases as.lookup key with
    | none => rfl
    | some a => cases bs.lookup key <;> rfl
  conflict a b hobject harray := by
    cases a with
    | object as =>
      cases b with
      | object bs => exact absurd ⟨rfl, rfl⟩ hobject
      | _ => rfl
    | array as =>
      cases b with
      | array bs => exact absurd ⟨rfl, rfl⟩ harray
      | _ => rfl
    | _ => rfl

end Instance

end ConservativeMerger

end Workflows
