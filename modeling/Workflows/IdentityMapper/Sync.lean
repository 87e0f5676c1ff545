import Workflows.IdentityMapper.Lookup

/-!
# The sync of LDAP to Kubernetes

`sync_ldap_to_kubernetes` issues its calls one by one: the creates, the deletes and the updates,
each over a set and so in an unknown order. The first call that is refused raises and ends the run.
-/

namespace Workflows.IdentityMapper

/-- Iteration over a set visits its elements in some order. -/
structure SetOrder where
  arrange : List Int → List Int
  perm : ∀ xs, (arrange xs).Perm xs

inductive Call where
  | create (uid : Int) (spec : Identity)
  | delete (uid : Int)
  | patch (uid : Int) (spec : Identity)
  deriving DecidableEq

section Sync

variable (order : SetOrder) (ldap kube : Std.TreeMap Int Identity)

def toCreate : List Int := ldap.keys.filter (· ∉ kube)

def toDelete : List Int := kube.keys.filter (· ∉ ldap)

def toUpdate : List Int := ldap.keys.filter fun uid => uid ∈ kube ∧ ldap[uid]? ≠ kube[uid]?

def creates : List Call :=
  (order.arrange (toCreate ldap kube)).filterMap fun uid => ldap[uid]?.map (Call.create uid)

def deletes : List Call :=
  (order.arrange (toDelete ldap kube)).map Call.delete

def updates : List Call :=
  (order.arrange (toUpdate ldap kube)).filterMap fun uid => ldap[uid]?.map (Call.patch uid)

def syncLdapToKubernetes : List Call :=
  creates order ldap kube ++ deletes order ldap kube ++ updates order ldap kube

theorem mem_creates_iff {c : Call} :
    c ∈ creates order ldap kube ↔
      ∃ uid spec, c = .create uid spec ∧ ldap[uid]? = some spec ∧ kube[uid]? = none := by
  simp only [creates, List.mem_filterMap, (order.perm _).mem_iff, toCreate, List.mem_filter,
    Std.TreeMap.mem_keys, decide_eq_true_eq, Option.map_eq_some_iff]
  constructor
  · rintro ⟨uid, ⟨-, hkube⟩, spec, hspec, rfl⟩
    exact ⟨uid, spec, rfl, hspec, Std.TreeMap.getElem?_eq_none hkube⟩
  · rintro ⟨uid, spec, rfl, hspec, hkube⟩
    refine ⟨uid, ⟨?_, ?_⟩, spec, hspec, rfl⟩
    · exact Std.TreeMap.mem_iff_isSome_getElem?.mpr (by simp [hspec])
    · simp [Std.TreeMap.mem_iff_isSome_getElem?, hkube]

theorem mem_deletes_iff {c : Call} :
    c ∈ deletes order ldap kube ↔
      ∃ uid, c = .delete uid ∧ (kube[uid]?).isSome ∧ ldap[uid]? = none := by
  simp only [deletes, List.mem_map, (order.perm _).mem_iff, toDelete, List.mem_filter,
    Std.TreeMap.mem_keys, decide_eq_true_eq, Std.TreeMap.mem_iff_isSome_getElem?]
  constructor
  · rintro ⟨uid, ⟨hkube, hldap⟩, rfl⟩
    exact ⟨uid, rfl, hkube, by simpa using hldap⟩
  · rintro ⟨uid, rfl, hkube, hldap⟩
    exact ⟨uid, ⟨hkube, by simp [hldap]⟩, rfl⟩

theorem mem_updates_iff {c : Call} :
    c ∈ updates order ldap kube ↔
      ∃ uid spec, c = .patch uid spec ∧ ldap[uid]? = some spec ∧ (kube[uid]?).isSome ∧
        kube[uid]? ≠ some spec := by
  simp only [updates, List.mem_filterMap, (order.perm _).mem_iff, toUpdate, List.mem_filter,
    Std.TreeMap.mem_keys, decide_eq_true_eq, Option.map_eq_some_iff,
    Std.TreeMap.mem_iff_isSome_getElem?]
  constructor
  · rintro ⟨uid, ⟨-, hkube, hne⟩, spec, hspec, rfl⟩
    exact ⟨uid, spec, rfl, hspec, hkube, fun heq => hne (hspec.trans heq.symm)⟩
  · rintro ⟨uid, spec, rfl, hspec, hkube, hne⟩
    exact ⟨uid, ⟨by simp [hspec], hkube, fun heq => hne (heq.symm.trans hspec)⟩, spec, hspec, rfl⟩

end Sync

section Cluster

def userIdentity (uid : Int) (spec : Identity) : UserIdentity where
  name := toString uid
  uid := some spec.uid
  gid := some spec.gid
  supplementalGroups := some spec.supplementalGroups

/-- What the API server does: it refuses to create an object under a name in use, and to delete or
patch one that it does not have. -/
def apply (items : List UserIdentity) : Call → Option (List UserIdentity)
  | .create uid spec =>
    if items.any (·.name = toString uid) then none else some (items ++ [userIdentity uid spec])
  | .delete uid =>
    if items.any (·.name = toString uid) then some (items.filter (·.name ≠ toString uid)) else none
  | .patch uid spec =>
    if items.any (·.name = toString uid) then
      some (items.map fun o => if o.name = toString uid then userIdentity uid spec else o)
    else none

variable (fails : Call → Bool)

def attempt (items : List UserIdentity) (c : Call) : Option (List UserIdentity) :=
  if fails c then none else apply items c

/-- The cluster after the calls up to the first that fails. -/
def perform (items : List UserIdentity) : List Call → List UserIdentity
  | [] => items
  | c :: cs =>
    match attempt fails items c with
    | none => items
    | some next => perform next cs

/-- `_main`. -/
def run (order : SetOrder) (people : Search PersonEntry) (groups : Search GroupEntry)
    (items : List UserIdentity) : List UserIdentity :=
  match lookupIdentitiesInKubernetes items with
  | none => items
  | some kube =>
    perform fails items (syncLdapToKubernetes order (lookupIdentitiesInLdap people groups) kube)

end Cluster

end Workflows.IdentityMapper
