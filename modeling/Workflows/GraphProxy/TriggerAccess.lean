import Workflows.Foundations.Selectors
import Workflows.GraphProxy.Identifiers
import Workflows.GraphProxy.Triggers

/-!
# Whose Triggers a caller can see

A Trigger is created with the POSIX uid of its creator as a label. The query for one Trigger
compares the label, the one for all of them puts the uid into a label selector, and both let the
caller see the same Triggers.
-/

namespace Workflows.GraphProxy

open Selectors

inductive TriggerAccessError where
  | trigger (e : TriggerError)
  | forbiddenAccess
  | api (message : String)
  deriving DecidableEq

def TriggerAccessError.message : TriggerAccessError → String
  | trigger e => e.message
  | forbiddenAccess => "Forbidden from accessing resource"
  | api message => message

def posixUidKey : String := "workflows.diamond.ac.uk/posixuid"

/-- The object that is sent to be created: a name is generated from `generateName` where there is
none. -/
structure TriggerCreation where
  generateName : String
  name : Option String
  labels : List (String × String)
  templateRef : Option String
  deriving DecidableEq

def triggerOf (posixUid templateRef : String) (name : Option String) : TriggerCreation where
  generateName := templateRef ++ "-"
  name := name
  labels := [(posixUidKey, posixUid)]
  templateRef := some templateRef

section Cluster

/-- A Trigger of the cluster, with the uid of the caller who created it, which is not stored. -/
structure StoredTrigger where
  nameSpace : String
  name : String
  labels : List (String × String)
  templateRef : Option String
  creator : String
  deriving DecidableEq

def StoredTrigger.toTrigger (t : StoredTrigger) : Trigger where
  name := some t.name
  labels := some t.labels
  templateRef := t.templateRef

abbrev Cluster := List StoredTrigger

variable (cluster : Cluster)

def Cluster.find (nameSpace name : String) : Option StoredTrigger :=
  List.find? (fun t => t.nameSpace = nameSpace ∧ t.name = name) cluster

def Cluster.get (nameSpace name : String) : Except String Trigger :=
  match cluster.find nameSpace name with
  | some t => .ok t.toTrigger
  | none => .error "NotFound"

/-- The suffix is for a name that has to be generated. Labels are checked, and names are unique. -/
def Cluster.create (nameSpace creator suffix : String) (creation : TriggerCreation) :
    Except String StoredTrigger :=
  let name := creation.name.getD (creation.generateName ++ suffix)
  if creation.labels.all fun label => isQualifiedName label.1 && isLabelValue label.2 then
    if (cluster.find nameSpace name).isNone then
      .ok { nameSpace, name, labels := creation.labels, templateRef := creation.templateRef
            creator }
    else .error "AlreadyExists"
  else .error "Invalid"

end Cluster

section Resolvers

variable (ctx : TriggerContext)

def trigger (cluster : Cluster) (name : String) (visit : Option String) :
    Except TriggerAccessError TriggerGQL :=
  match ctx.client with
  | .error e => .error (.trigger e)
  | .ok _ =>
    match getPosixFromCtx ctx with
    | .error e => .error (.trigger e)
    | .ok posixUid =>
      match cluster.get (visit.getD "events") name with
      | .error message => .error (.api message)
      | .ok t =>
        if (t.labels.bind (·.lookup posixUidKey)).any (· = posixUid) then .ok (.ofTrigger t)
        else .error .forbiddenAccess

def createTrigger (cluster : Cluster) (suffix templateRef : String) (name : Option String)
    (visit : Option VisitInput) : Except TriggerAccessError StoredTrigger :=
  match ctx.client with
  | .error e => .error (.trigger e)
  | .ok _ =>
    match getPosixFromCtx ctx with
    | .error e => .error (.trigger e)
    | .ok posixUid =>
      match cluster.create ((visit.map VisitInput.display).getD "events") posixUid suffix
        (triggerOf posixUid templateRef name) with
      | .error message => .error (.api message)
      | .ok t => .ok t

end Resolvers

inductive TriggerAction where
  | create (ctx : TriggerContext) (suffix templateRef : String) (name : Option String)
    (visit : Option VisitInput)
  | delete (nameSpace name : String)

def TriggerAction.run (cluster : Cluster) : TriggerAction → Cluster
  | .create ctx suffix templateRef name visit =>
    match createTrigger ctx cluster suffix templateRef name visit with
    | .ok t => cluster ++ [t]
    | .error _ => cluster
  | .delete nameSpace name =>
    cluster.filter fun t => ¬(t.nameSpace = nameSpace ∧ t.name = name)

def labelsOf (t : StoredTrigger) (key : String) : Option String := t.labels.lookup key

/-- What the cluster lists for a selector. -/
structure Listed (cluster : Cluster) (selector : String) (items : List StoredTrigger) : Prop where
  sublist : items.Sublist cluster
  mem_iff : ∀ rs, parse selector = some rs → ∀ t ∈ cluster, ∀ labels : Labels,
    labels.get = labelsOf t → (t ∈ items ↔ ∀ r ∈ rs, r.Matches labels)

/-- Each Trigger has the uid of its creator as its label, and a name of its own. -/
structure Tidy (cluster : Cluster) : Prop where
  labels : ∀ t ∈ cluster, t.labels = [(posixUidKey, t.creator)] ∧ isLabelValue t.creator
  names : (cluster.map fun t => (t.nameSpace, t.name)).Nodup

variable {cluster : Cluster}

section Run

theorem Cluster.find_eq_none_iff {nameSpace name : String} :
    cluster.find nameSpace name = none ↔ (nameSpace, name) ∉ cluster.map fun t => (t.nameSpace, t.name) := by
  simp only [Cluster.find, List.find?_eq_none, List.mem_map, Prod.mk.injEq, decide_eq_true_eq]
  push Not
  rfl

theorem Cluster.find_eq_some {nameSpace name : String} {t : StoredTrigger}
    (h : cluster.find nameSpace name = some t) :
    t ∈ cluster ∧ t.nameSpace = nameSpace ∧ t.name = name :=
  ⟨List.mem_of_find?_eq_some h, by simpa using List.find?_some h⟩

theorem createTrigger_eq_ok {ctx : TriggerContext} {suffix templateRef : String}
    {name : Option String} {visit : Option VisitInput} {t : StoredTrigger}
    (h : createTrigger ctx cluster suffix templateRef name visit = .ok t) :
    getPosixFromCtx ctx = .ok t.creator ∧ t.labels = [(posixUidKey, t.creator)] ∧
      isLabelValue t.creator ∧ cluster.find t.nameSpace t.name = none ∧
      t.nameSpace = (visit.map VisitInput.display).getD "events" ∧
      t.name = name.getD (templateRef ++ "-" ++ suffix) ∧ t.templateRef = some templateRef := by
  unfold createTrigger at h
  split at h
  next => cases h
  next =>
    split at h
    next => cases h
    next posixUid hposix =>
      split at h
      next => cases h
      next created hcreate =>
        cases h
        simp only [Cluster.create] at hcreate
        split_ifs at hcreate with hlabels hnone
        cases hcreate
        simp only [triggerOf, List.all_cons, List.all_nil, Bool.and_true,
          Bool.and_eq_true] at hlabels
        exact ⟨hposix, rfl, hlabels.2, Option.isNone_iff_eq_none.mp hnone, rfl, rfl, rfl⟩

theorem Tidy.run (h : Tidy cluster) (action : TriggerAction) : Tidy (action.run cluster) := by
  cases action with
  | create ctx suffix templateRef name visit =>
    simp only [TriggerAction.run]
    split
    next t ht =>
      obtain ⟨-, hlabels, hvalue, hnone, -⟩ := createTrigger_eq_ok ht
      refine ⟨fun u hu => ?_, ?_⟩
      · obtain hu | hu := List.mem_append.mp hu
        · exact h.labels u hu
        · obtain rfl := List.mem_singleton.mp hu
          exact ⟨hlabels, hvalue⟩
      · rw [List.map_append]
        refine List.Nodup.append h.names (List.nodup_singleton _) ?_
        rw [List.map_singleton, List.disjoint_singleton]
        exact Cluster.find_eq_none_iff.mp hnone
    next => exact h
  | delete nameSpace name =>
    refine ⟨fun t ht => h.labels t (List.mem_of_mem_filter ht), ?_⟩
    exact h.names.sublist (List.filter_sublist.map _)

theorem tidy_run (actions : List TriggerAction) : Tidy (actions.foldl TriggerAction.run []) := by
  induction actions using List.reverseRecOn with
  | nil => exact ⟨fun _ ht => (nomatch ht), List.nodup_nil⟩
  | append_singleton actions action ih =>
    rw [List.foldl_append]
    exact ih.run action

end Run

section Selector

variable {posixUid : String}

def posixUidRequirement (posixUid : String) : Requirement := ⟨posixUidKey, .eq, [posixUid]⟩

theorem isQualifiedName_posixUidKey : isQualifiedName posixUidKey := by decide +kernel

theorem print_posixUidRequirement (posixUid : String) :
    (posixUidRequirement posixUid).print = posixUidLabel posixUid := by
  have hprefix : posixUidKey ++ "=" = "workflows.diamond.ac.uk/posixuid=" := by decide +kernel
  have hprint : (posixUidRequirement posixUid).print = posixUidKey ++ "=" ++ posixUid := by
    change posixUidKey ++ "=" ++ String.join [posixUid] = _
    rw [join_singleton]
  rw [hprint, hprefix]
  rfl

/-- The selector of a uid that can be a label asks for that label. -/
theorem parse_posixUidLabel (h : isLabelValue posixUid) :
    parse (posixUidLabel posixUid) = some [posixUidRequirement posixUid] := by
  have hkey := plain_of_isQualifiedName isQualifiedName_posixUidKey
  have hplain : ∀ r ∈ [posixUidRequirement posixUid], r.Plain := by
    intro r hr
    obtain rfl := List.mem_singleton.mp hr
    refine { key_ne := hkey.1, key := hkey.2, values := fun value hvalue => ?_,
             count := ⟨posixUid, rfl⟩ }
    simp only [posixUidRequirement, List.mem_singleton] at hvalue
    subst hvalue
    exact plain_of_isLabelValue h
  have hvalid : [posixUidRequirement posixUid].all (·.isValid) = true := by
    simp [posixUidRequirement, Requirement.isValid, isQualifiedName_posixUidKey, h]
  have hparse := parse_print hplain
  rw [if_pos hvalid] at hparse
  rw [List.map_singleton, String.intercalate_singleton, print_posixUidRequirement] at hparse
  exact hparse

theorem labelsOf_posixUidKey (h : Tidy cluster) {t : StoredTrigger} (ht : t ∈ cluster) :
    labelsOf t posixUidKey = some t.creator := by
  simp [labelsOf, (h.labels t ht).1]

/-- The labels of a Trigger, which were checked when it was created. -/
def Tidy.labelsAt (h : Tidy cluster) {t : StoredTrigger} (ht : t ∈ cluster) : Labels where
  get := labelsOf t
  valid key value hget := by
    simp only [labelsOf, (h.labels t ht).1, List.lookup_cons, List.lookup_nil] at hget
    split at hget
    next heq =>
      cases hget
      rw [beq_iff_eq.mp heq]
      exact ⟨isQualifiedName_posixUidKey, (h.labels t ht).2⟩
    next => cases hget

theorem Listed.mem_iff_creator {items : List StoredTrigger} (h : Tidy cluster)
    (hlisted : Listed cluster (posixUidLabel posixUid) items) (huid : isLabelValue posixUid)
    {t : StoredTrigger} (ht : t ∈ cluster) : t ∈ items ↔ t.creator = posixUid := by
  rw [hlisted.mem_iff _ (parse_posixUidLabel huid) t ht (h.labelsAt ht) rfl]
  simp only [posixUidRequirement, List.mem_singleton, forall_eq, Requirement.Matches, exists_eq_left,
    Tidy.labelsAt, labelsOf_posixUidKey h ht, Option.some.injEq]

theorem Listed.eq_filter {items : List StoredTrigger} (h : Tidy cluster)
    (hlisted : Listed cluster (posixUidLabel posixUid) items) (huid : isLabelValue posixUid) :
    items = cluster.filter (·.creator = posixUid) := by
  have hnodup : cluster.Nodup := h.names.of_map
  have hown : ∀ t ∈ items, decide (t.creator = posixUid) = true := by
    intro t ht
    exact decide_eq_true ((hlisted.mem_iff_creator h huid (hlisted.sublist.subset ht)).mp ht)
  have hsublist : items.Sublist (cluster.filter (·.creator = posixUid)) := by
    rw [← List.filter_eq_self.mpr hown]
    exact hlisted.sublist.filter _
  refine hsublist.eq_of_length_le (List.Subperm.length_le ?_)
  refine (hnodup.filter _).subperm fun t ht => ?_
  obtain ⟨ht, hcreator⟩ := List.mem_filter.mp ht
  exact (hlisted.mem_iff_creator h huid ht).mpr (of_decide_eq_true hcreator)

/-- A server that goes by the labels lists what the caller has created. -/
theorem listed_filter (h : Tidy cluster) (huid : isLabelValue posixUid) :
    Listed cluster (posixUidLabel posixUid) (cluster.filter (·.creator = posixUid)) where
  sublist := List.filter_sublist
  mem_iff rs hrs t ht labels hlabels := by
    rw [parse_posixUidLabel huid, Option.some.injEq] at hrs
    subst hrs
    simp only [posixUidRequirement, List.mem_singleton, forall_eq, Requirement.Matches,
      exists_eq_left, hlabels, labelsOf_posixUidKey h ht, Option.some.injEq, List.mem_filter, ht,
      true_and, decide_eq_true_eq]

end Selector

section Access

variable {codec : OpaqueCursor String} {items : List StoredTrigger}

/-- In every state that callers bring about by creating and deleting Triggers, a caller is given
the Triggers he has created and no others, by name as well as on every page of the listing. -/
theorem trigger_access {actions : List TriggerAction}
    (listing : TriggerListing (items.map StoredTrigger.toTrigger))
    (huid : isLabelValue listing.posixUid)
    (hlisted : Listed (actions.foldl TriggerAction.run []) (posixUidLabel listing.posixUid) items) :
    (∀ nameSpace name,
      trigger listing.ctx (actions.foldl TriggerAction.run []) name (some nameSpace) =
        match Cluster.find (actions.foldl TriggerAction.run []) nameSpace name with
        | none => .error (.api "NotFound")
        | some t =>
          if t.creator = listing.posixUid then .ok (.ofTrigger t.toTrigger)
          else .error .forbiddenAccess) ∧
    ∀ start limit page, TriggerPage codec listing start limit page →
      page.nodes = ((((actions.foldl TriggerAction.run []).filter
        (·.creator = listing.posixUid)).drop start).take (triggersLimit limit)).map
          fun t => .ofTrigger t.toTrigger := by
  have htidy := tidy_run actions
  generalize actions.foldl TriggerAction.run [] = cluster at hlisted htidy ⊢
  constructor
  · intro nameSpace name
    simp only [trigger, listing.client_ctx, listing.getPosixFromCtx_ctx, Option.getD_some, Cluster.get]
    cases hfind : cluster.find nameSpace name with
    | none => rfl
    | some t =>
      have hlabel := labelsOf_posixUidKey htidy (Cluster.find_eq_some hfind).1
      rw [labelsOf] at hlabel
      simp [StoredTrigger.toTrigger, hlabel]
  · intro start limit page hpage
    obtain ⟨hlimit, cursor, hcursor, heq⟩ := hpage.eq_ok
    obtain ⟨page', hpage', hnodes, -⟩ := triggers_eq_ok hcursor hlimit
    obtain rfl := Except.ok.inj (hpage'.symm.trans heq)
    rw [hnodes, ← hlisted.eq_filter htidy huid, ← List.map_drop, ← List.map_take, List.map_map]
    rfl

def callerContext (posixUid : String) : TriggerContext where
  client := .ok fun _ => .error "Gone"
  claims := .ok (.object [("posix_uid", .string posixUid)])

def exampleCreations : List TriggerAction :=
  [.create (callerContext "7357") "s6qzl" "test-trigger" none none,
    .create (callerContext "1234") "bv597" "test-trigger" none none]

def exampleCluster : Cluster := exampleCreations.foldl TriggerAction.run []

def exampleListing : TriggerListing
    ((exampleCluster.filter (·.creator = "7357")).map StoredTrigger.toTrigger) := .decimal _

theorem trigger_access_example :
    (∀ nameSpace name, trigger exampleListing.ctx exampleCluster name (some nameSpace) =
        match exampleCluster.find nameSpace name with
        | none => .error (.api "NotFound")
        | some t =>
          if t.creator = "7357" then .ok (.ofTrigger t.toTrigger) else .error .forbiddenAccess) ∧
      ∀ start limit page, TriggerPage plainCursor exampleListing start limit page →
        page.nodes = (((exampleCluster.filter (·.creator = "7357")).drop start).take
          (triggersLimit limit)).map fun t => .ofTrigger t.toTrigger :=
  have huid : isLabelValue "7357" := by decide +kernel
  trigger_access exampleListing huid (listed_filter (tidy_run exampleCreations) huid)

end Access

end Workflows.GraphProxy
