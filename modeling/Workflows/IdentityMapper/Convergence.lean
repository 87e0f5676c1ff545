import Workflows.IdentityMapper.Removal

/-!
# Convergence of the sync

Every call of a run is about one uid and leaves the object of every other one alone. So a complete
run brings each uid to what the directory says of it, from any cluster and in any order.
-/

namespace Workflows.IdentityMapper

open Dictionary

/-- What the directory says, keyed by the uid. -/
structure Directory where
  identities : Std.TreeMap Int Identity
  keyed : ∀ (uid : Int) (identity : Identity), identities[uid]? = some identity →
    identity.uid = uid

/-- The objects of a cluster: each can be read and is named by its uid. -/
structure Cluster where
  items : List UserIdentity
  named : ∀ o ∈ items, ∃ identity, o.identity? = some identity ∧ o.name = toString identity.uid
  nodup : (items.map (·.name)).Nodup

/-- What is recorded under the name of the uid. -/
def stored (items : List UserIdentity) (uid : Int) : Option Identity :=
  (items.find? (·.name = toString uid)).bind UserIdentity.identity?

theorem identity?_userIdentity (uid : Int) (spec : Identity) :
    (userIdentity uid spec).identity? = some spec := rfl

namespace Cluster

variable (c : Cluster)

theorem stored_isSome_iff (uid : Int) :
    (stored c.items uid).isSome ↔ c.items.any (·.name = toString uid) := by
  rw [stored, List.any_eq_true]
  cases hfind : c.items.find? (·.name = toString uid) with
  | none =>
    rw [List.find?_eq_none] at hfind
    simpa using hfind
  | some o =>
    obtain ⟨identity, hidentity, -⟩ := c.named o (List.mem_of_find?_eq_some hfind)
    simp only [Option.bind_some, hidentity, Option.isSome_some, true_iff]
    exact ⟨o, List.mem_of_find?_eq_some hfind, by simpa using List.find?_some hfind⟩

theorem stored_eq_some_iff (uid : Int) (identity : Identity) :
    stored c.items uid = some identity ↔
      ∃ o ∈ c.items, o.identity? = some identity ∧ identity.uid = uid := by
  rw [stored, Option.bind_eq_some_iff]
  constructor
  · rintro ⟨o, hfind, hidentity⟩
    have ho := List.mem_of_find?_eq_some hfind
    have hname : o.name = toString uid := by simpa using List.find?_some hfind
    obtain ⟨identity', hidentity', hname'⟩ := c.named o ho
    cases hidentity'.symm.trans hidentity
    exact ⟨o, ho, hidentity, toString_inj.mp (hname'.symm.trans hname)⟩
  · rintro ⟨o, ho, hidentity, rfl⟩
    obtain ⟨identity', hidentity', hname⟩ := c.named o ho
    cases hidentity'.symm.trans hidentity
    refine ⟨o, ?_, hidentity⟩
    cases hfind : c.items.find? (·.name = toString identity.uid) with
    | none =>
      rw [List.find?_eq_none] at hfind
      exact absurd (by simpa using hname) (hfind o ho)
    | some o' =>
      have hname' : o'.name = toString identity.uid := by simpa using List.find?_some hfind
      rw [List.inj_on_of_nodup_map c.nodup (List.mem_of_find?_eq_some hfind) ho
        (hname'.trans hname.symm)]

/-- The lookup reads what is recorded. -/
theorem exists_lookup : ∃ kube, lookupIdentitiesInKubernetes c.items = some kube ∧
    ∀ uid : Int, kube[uid]? = stored c.items uid := by
  cases hkube : lookupIdentitiesInKubernetes c.items with
  | none =>
    obtain ⟨o, ho, hnone⟩ := lookupIdentitiesInKubernetes_eq_none_iff.mp hkube
    obtain ⟨identity, hidentity, -⟩ := c.named o ho
    cases hnone.symm.trans hidentity
  | some kube =>
    refine ⟨kube, rfl, fun uid => ?_⟩
    rw [getElem?_kube hkube]
    refine Option.ext fun identity => ?_
    rw [stored_eq_some_iff]
    constructor
    · intro hlast
      obtain ⟨hmem, huid⟩ := mem_of_lastWith hlast
      obtain ⟨o, ho, hidentity⟩ := List.mem_filterMap.mp hmem
      exact ⟨o, ho, hidentity, huid⟩
    · rintro ⟨o, ho, hidentity, huid⟩
      have hmem : identity ∈ c.items.filterMap UserIdentity.identity? :=
        List.mem_filterMap.mpr ⟨o, ho, hidentity⟩
      obtain ⟨last, hlast⟩ := Option.isSome_iff_exists.mp
        (lastWith_isSome_iff.mpr ⟨identity, hmem, huid⟩ :
          (lastWith Identity.uid uid (c.items.filterMap UserIdentity.identity?)).isSome)
      obtain ⟨hmem', huid'⟩ := mem_of_lastWith hlast
      obtain ⟨o', ho', hidentity'⟩ := List.mem_filterMap.mp hmem'
      have heq := (c.stored_eq_some_iff uid identity).mpr ⟨o, ho, hidentity, huid⟩
      have heq' := (c.stored_eq_some_iff uid last).mpr ⟨o', ho', hidentity', huid'⟩
      rw [hlast, ← heq', heq]

end Cluster

section Calls

def Call.uid : Call → Int
  | .create uid _ => uid
  | .delete uid => uid
  | .patch uid _ => uid

/-- What is recorded of its uid after the call. -/
def Call.result : Call → Option Identity
  | .create _ spec => some spec
  | .delete _ => none
  | .patch _ spec => some spec

/-- What is recorded before a call that is not refused. -/
def Call.Accepts : Call → Option Identity → Prop
  | .create _ _, recorded => recorded = none
  | .delete _, recorded => recorded.isSome
  | .patch _ _, recorded => recorded.isSome

/-- The spec of the call is that of its uid. -/
def Call.Keyed (call : Call) : Prop := ∀ spec ∈ call.result, spec.uid = call.uid

theorem stored_create {items : List UserIdentity} {uid : Int} {spec : Identity}
    (hfree : ∀ o ∈ items, o.name ≠ toString uid) (n : Int) :
    stored (items ++ [userIdentity uid spec]) n =
      if n = uid then some spec else stored items n := by
  rw [stored, List.find?_append]
  split_ifs with hn
  · subst hn
    rw [List.find?_eq_none.mpr fun o ho => by simpa using hfree o ho]
    simp [userIdentity, UserIdentity.identity?, UserIdentity.groups]
  · have hne : (userIdentity uid spec).name ≠ toString n := fun h => hn (toString_inj.mp h).symm
    rw [List.find?_cons_of_neg (by simpa using hne), List.find?_nil, Option.or_none, stored]

theorem stored_delete (items : List UserIdentity) (uid n : Int) :
    stored (items.filter (·.name ≠ toString uid)) n =
      if n = uid then none else stored items n := by
  rw [stored, List.find?_filter]
  split_ifs with hn
  · subst hn
    rw [List.find?_eq_none.mpr fun o _ => by simp, Option.bind_none]
  · rw [stored]
    congr 1
    refine List.find?_congr fun o _ => ?_
    have hne : toString n ≠ toString uid := fun h => hn (toString_inj.mp h)
    simp only [decide_eq_true_eq, decide_eq_decide]
    exact and_iff_right_of_imp fun hname => hname ▸ hne

theorem stored_patch {items : List UserIdentity} {uid : Int} {spec : Identity}
    (hany : ∃ o ∈ items, o.name = toString uid) (n : Int) :
    stored (items.map fun o => if o.name = toString uid then userIdentity uid spec else o) n =
      if n = uid then some spec else stored items n := by
  have hname : ∀ o : UserIdentity,
      (if o.name = toString uid then userIdentity uid spec else o).name = o.name := by
    intro o
    split_ifs with h
    · exact h.symm
    · rfl
  rw [stored, List.find?_map]
  simp only [Function.comp_def, hname]
  split_ifs with hn
  · subst hn
    cases hfind : items.find? (·.name = toString n) with
    | none =>
      obtain ⟨o, ho, ho'⟩ := hany
      exact absurd (by simpa using ho') (List.find?_eq_none.mp hfind o ho)
    | some o =>
      have ho : o.name = toString n := by simpa using List.find?_some hfind
      simp [ho, identity?_userIdentity]
  · rw [stored]
    cases hfind : items.find? (·.name = toString n) with
    | none => rfl
    | some o =>
      have ho : o.name = toString n := by simpa using List.find?_some hfind
      have hne : o.name ≠ toString uid := fun h => hn (toString_inj.mp (ho.symm.trans h))
      rw [Option.map_some, Option.bind_some, Option.bind_some, if_neg hne]

namespace Cluster

variable (c : Cluster)

/-- A call that is not refused changes what is recorded of its uid and nothing else. -/
theorem apply_eq_some {call : Call} {next : List UserIdentity} (hkeyed : call.Keyed)
    (h : apply c.items call = some next) :
    ∃ c' : Cluster, c'.items = next ∧
      ∀ uid, stored next uid = if uid = call.uid then call.result else stored c.items uid := by
  cases call with
  | create uid spec =>
    simp only [apply] at h
    split_ifs at h with hany
    cases h
    have hfree : ∀ o ∈ c.items, o.name ≠ toString uid := by simpa using hany
    have hspec : spec.uid = uid := hkeyed spec rfl
    refine ⟨⟨_, fun o ho => ?_, ?_⟩, rfl, stored_create hfree⟩
    · obtain ho | ho := List.mem_append.mp ho
      · exact c.named o ho
      · rw [List.mem_singleton.mp ho]
        exact ⟨spec, rfl, by rw [hspec]; rfl⟩
    · rw [List.map_append, List.nodup_append]
      refine ⟨c.nodup, List.nodup_singleton _, fun a ha b hb => ?_⟩
      obtain ⟨o, ho, rfl⟩ := List.mem_map.mp ha
      obtain rfl := List.mem_singleton.mp hb
      exact hfree o ho
  | delete uid =>
    simp only [apply] at h
    split_ifs at h
    cases h
    refine ⟨⟨_, fun o ho => c.named o (List.mem_of_mem_filter ho), ?_⟩, rfl,
      stored_delete c.items uid⟩
    exact c.nodup.sublist (List.filter_sublist.map _)
  | patch uid spec =>
    simp only [apply] at h
    split_ifs at h with hany
    cases h
    have hany : ∃ o ∈ c.items, o.name = toString uid := by simpa using hany
    have hspec : spec.uid = uid := hkeyed spec rfl
    refine ⟨⟨_, fun o ho => ?_, ?_⟩, rfl, stored_patch hany⟩
    · obtain ⟨o', ho', rfl⟩ := List.mem_map.mp ho
      split_ifs with hname
      · exact ⟨spec, rfl, by rw [hspec]; rfl⟩
      · exact c.named o' ho'
    · rw [List.map_map]
      refine Eq.mp (congrArg List.Nodup (List.map_congr_left fun o _ => ?_)) c.nodup
      simp only [Function.comp_apply]
      split_ifs with hname
      · exact hname
      · rfl

theorem apply_isSome {call : Call} (h : call.Accepts (stored c.items call.uid)) :
    (apply c.items call).isSome := by
  cases call with
  | create uid spec =>
    have hnone : stored c.items uid = none := h
    have hany : ¬c.items.any (·.name = toString uid) := by
      rw [← c.stored_isSome_iff, hnone]
      simp
    rw [apply, if_neg hany]
    rfl
  | delete uid =>
    rw [apply, if_pos ((c.stored_isSome_iff uid).mp h)]
    rfl
  | patch uid spec =>
    rw [apply, if_pos ((c.stored_isSome_iff uid).mp h)]
    rfl

/-- An aborted run leaves a cluster behind. -/
theorem exists_perform (fails : Call → Bool) {calls : List Call}
    (hkeyed : ∀ call ∈ calls, call.Keyed) :
    ∃ c' : Cluster, c'.items = perform fails c.items calls := by
  induction calls generalizing c with
  | nil => exact ⟨c, rfl⟩
  | cons call calls ih =>
    obtain ⟨hcall, hcalls⟩ := List.forall_mem_cons.mp hkeyed
    rw [perform]
    cases hattempt : attempt fails c.items call with
    | none => exact ⟨c, rfl⟩
    | some next =>
      rw [attempt] at hattempt
      split_ifs at hattempt
      obtain ⟨c', rfl, -⟩ := c.apply_eq_some hcall hattempt
      exact ih c' hcalls

/-- Calls of distinct uids that are accepted at the start all go through. -/
theorem perform_all {calls : List Call} (hkeyed : ∀ call ∈ calls, call.Keyed)
    (haccepts : ∀ call ∈ calls, call.Accepts (stored c.items call.uid))
    (hnodup : (calls.map Call.uid).Nodup) :
    ∃ c' : Cluster, c'.items = perform (fun _ => false) c.items calls ∧
      (∀ call ∈ calls, stored c'.items call.uid = call.result) ∧
      ∀ uid, (∀ call ∈ calls, call.uid ≠ uid) → stored c'.items uid = stored c.items uid := by
  induction calls generalizing c with
  | nil => exact ⟨c, rfl, by simp, fun _ _ => rfl⟩
  | cons call calls ih =>
    obtain ⟨hcall, hcalls⟩ := List.forall_mem_cons.mp hkeyed
    obtain ⟨hfirst, hrest⟩ := List.forall_mem_cons.mp haccepts
    obtain ⟨hnew, hnodup⟩ := List.nodup_cons.mp hnodup
    obtain ⟨next, hnext⟩ := Option.isSome_iff_exists.mp (c.apply_isSome hfirst)
    obtain ⟨mid, rfl, hmid⟩ := c.apply_eq_some hcall hnext
    have hother : ∀ other ∈ calls, other.uid ≠ call.uid := fun other hmem heq =>
      hnew (List.mem_map.mpr ⟨other, hmem, heq⟩)
    obtain ⟨c', hc', hresult, hframe⟩ := ih mid hcalls (fun other hmem => by
      rw [hmid, if_neg (hother other hmem)]
      exact hrest other hmem) hnodup
    refine ⟨c', ?_, List.forall_mem_cons.mpr ⟨?_, hresult⟩, fun uid huid => ?_⟩
    · rw [hc', perform, attempt, if_neg (by simp), hnext]
    · rw [hframe call.uid hother, hmid, if_pos rfl]
    · obtain ⟨hne, huid⟩ := List.forall_mem_cons.mp huid
      rw [hframe uid huid, hmid, if_neg hne.symm]

end Cluster

end Calls

section Sync

variable (order : SetOrder) (ldap : Std.TreeMap Int Identity) {kube : Std.TreeMap Int Identity}

/-- A call is accepted, is about a uid that is to change, and makes it what the directory says. -/
theorem spec_of_mem_sync {call : Call} (h : call ∈ syncLdapToKubernetes order ldap kube) :
    call.Accepts kube[call.uid]? ∧ call.result = ldap[call.uid]? ∧
      kube[call.uid]? ≠ ldap[call.uid]? := by
  rw [syncLdapToKubernetes, List.mem_append, List.mem_append] at h
  obtain (h | h) | h := h
  · obtain ⟨uid, spec, rfl, hldap, hkube⟩ := (mem_creates_iff _ _ _).mp h
    refine ⟨hkube, hldap.symm, fun heq => ?_⟩
    cases hkube.symm.trans (heq.trans hldap)
  · obtain ⟨uid, rfl, hkube, hldap⟩ := (mem_deletes_iff _ _ _).mp h
    refine ⟨hkube, hldap.symm, fun heq => ?_⟩
    have hnone : kube[uid]? = none := heq.trans hldap
    rw [hnone] at hkube
    cases hkube
  · obtain ⟨uid, spec, rfl, hldap, hkube, hne⟩ := (mem_updates_iff _ _ _).mp h
    exact ⟨hkube, hldap.symm, fun heq => hne (heq.trans hldap)⟩

theorem exists_mem_sync {uid : Int} (h : kube[uid]? ≠ ldap[uid]?) :
    ∃ call ∈ syncLdapToKubernetes order ldap kube, call.uid = uid := by
  simp only [syncLdapToKubernetes, List.mem_append]
  cases hldap : ldap[uid]? with
  | none =>
    have hkube : (kube[uid]?).isSome := by
      rw [Option.isSome_iff_ne_none]
      exact fun hnone => h (hnone.trans hldap.symm)
    exact ⟨_, .inl (.inr ((mem_deletes_iff _ _ _).mpr ⟨uid, rfl, hkube, hldap⟩)), rfl⟩
  | some spec =>
    cases hkube : kube[uid]? with
    | none =>
      exact ⟨_, .inl (.inl ((mem_creates_iff _ _ _).mpr ⟨uid, spec, rfl, hldap, hkube⟩)), rfl⟩
    | some recorded =>
      have hsome : (kube[uid]?).isSome := by rw [hkube]; rfl
      have hne : kube[uid]? ≠ some spec := fun heq => h (heq.trans hldap.symm)
      exact ⟨_, .inr ((mem_updates_iff _ _ _).mpr ⟨uid, spec, rfl, hldap, hsome, hne⟩), rfl⟩

theorem sync_eq_nil (h : ∀ uid : Int, kube[uid]? = ldap[uid]?) :
    syncLdapToKubernetes order ldap kube = [] := by
  refine List.eq_nil_iff_forall_not_mem.mpr fun call hcall => ?_
  exact (spec_of_mem_sync order ldap hcall).2.2 (h call.uid)

theorem sublist_map_uid (recorded : Int → Option Identity) {call : Int → Identity → Call}
    (hcall : ∀ uid spec, (call uid spec).uid = uid) (uids : List Int) :
    ((uids.filterMap fun uid => (recorded uid).map (call uid)).map Call.uid).Sublist uids := by
  induction uids with
  | nil => exact List.Sublist.slnil
  | cons uid uids ih =>
    cases hrecorded : recorded uid with
    | none =>
      rw [List.filterMap_cons_none (by rw [hrecorded]; rfl)]
      exact ih.cons uid
    | some spec =>
      rw [List.filterMap_cons_some (by rw [hrecorded]; rfl), List.map_cons, hcall]
      exact ih.cons_cons uid

theorem nodup_sync :
    ((syncLdapToKubernetes order ldap kube).map Call.uid).Nodup := by
  have hsublist : ((syncLdapToKubernetes order ldap kube).map Call.uid).Sublist
      (order.arrange (toCreate ldap kube) ++ order.arrange (toDelete ldap kube) ++
        order.arrange (toUpdate ldap kube)) := by
    rw [syncLdapToKubernetes, List.map_append, List.map_append]
    refine ((sublist_map_uid _ (fun _ _ => rfl) _).append ?_).append
      (sublist_map_uid _ (fun _ _ => rfl) _)
    rw [deletes, List.map_map]
    have hid : (order.arrange (toDelete ldap kube)).map (Call.uid ∘ Call.delete) =
        order.arrange (toDelete ldap kube) := List.map_id _
    rw [hid]
  have hperm := ((order.perm (toCreate ldap kube)).append (order.perm (toDelete ldap kube))).append
    (order.perm (toUpdate ldap kube))
  refine (hperm.nodup_iff.mpr ?_).sublist hsublist
  have hcreate : ∀ uid ∈ toCreate ldap kube, uid ∉ kube := fun uid h => by
    simpa using (List.mem_filter.mp h).2
  have hdelete : ∀ uid ∈ toDelete ldap kube, uid ∈ kube ∧ uid ∉ ldap := fun uid h =>
    ⟨by simpa using (List.mem_filter.mp h).1, by simpa using (List.mem_filter.mp h).2⟩
  have hupdate : ∀ uid ∈ toUpdate ldap kube, uid ∈ ldap ∧ uid ∈ kube := fun uid h =>
    ⟨by simpa using (List.mem_filter.mp h).1, (by simpa using (List.mem_filter.mp h).2 : _ ∧ _).1⟩
  refine List.nodup_append.mpr ⟨List.nodup_append.mpr ⟨(nodup_keys ldap).filter _,
    (nodup_keys kube).filter _, ?_⟩, (nodup_keys ldap).filter _, ?_⟩
  · rintro a ha b hb rfl
    exact hcreate a ha (hdelete a hb).1
  · rintro a ha b hb rfl
    obtain ha | ha := List.mem_append.mp ha
    · exact hcreate a ha (hupdate a hb).2
    · exact (hdelete a ha).2 (hupdate a hb).1

/-- `_main` with what the directory says given. -/
def runWith (fails : Call → Bool) (items : List UserIdentity) : List UserIdentity :=
  match lookupIdentitiesInKubernetes items with
  | none => items
  | some kube => perform fails items (syncLdapToKubernetes order ldap kube)

end Sync

section Runs

variable (order : SetOrder) (directory : Directory)

theorem keyed_sync {kube : Std.TreeMap Int Identity} :
    ∀ call ∈ syncLdapToKubernetes order directory.identities kube, call.Keyed := by
  intro call hcall spec hspec
  rw [(spec_of_mem_sync order _ hcall).2.1] at hspec
  exact directory.keyed call.uid spec hspec

namespace Cluster

variable (c : Cluster)

theorem exists_runWith (fails : Call → Bool) :
    ∃ c' : Cluster, c'.items = runWith order directory.identities fails c.items := by
  obtain ⟨kube, hkube, -⟩ := c.exists_lookup
  simp only [runWith, hkube]
  exact c.exists_perform fails (keyed_sync order directory)

/-- A complete run leaves of each uid what the directory says. -/
theorem runWith_complete :
    ∃ c' : Cluster, c'.items = runWith order directory.identities (fun _ => false) c.items ∧
      ∀ uid : Int, stored c'.items uid = directory.identities[uid]? := by
  obtain ⟨kube, hkube, hstored⟩ := c.exists_lookup
  have haccepts : ∀ call ∈ syncLdapToKubernetes order directory.identities kube,
      call.Accepts (stored c.items call.uid) := fun call hcall =>
    hstored call.uid ▸ (spec_of_mem_sync order _ hcall).1
  obtain ⟨c', hitems, hresult, hframe⟩ :=
    c.perform_all (keyed_sync order directory) haccepts (nodup_sync order _)
  refine ⟨c', by simp only [runWith, hkube, hitems], fun uid => ?_⟩
  by_cases heq : kube[uid]? = directory.identities[uid]?
  · rw [hframe uid, ← hstored, heq]
    rintro call hcall rfl
    exact (spec_of_mem_sync order _ hcall).2.2 heq
  · obtain ⟨call, hcall, rfl⟩ := exists_mem_sync order _ heq
    rw [hresult call hcall, (spec_of_mem_sync order _ hcall).2.1]

end Cluster

/-- A complete run after an aborted one finds the directory in the cluster, and the run after it
has nothing to do. -/
theorem runWith_converges (order' : SetOrder) (fails : Call → Bool) (c : Cluster) :
    ∃ kube, lookupIdentitiesInKubernetes
        (runWith order' directory.identities (fun _ => false)
          (runWith order directory.identities fails c.items)) = some kube ∧
      (∀ uid : Int, kube[uid]? = directory.identities[uid]?) ∧
      ∀ order'', syncLdapToKubernetes order'' directory.identities kube = [] := by
  obtain ⟨aborted, haborted⟩ := c.exists_runWith order directory fails
  obtain ⟨complete, hcomplete, hstored⟩ := aborted.runWith_complete order' directory
  obtain ⟨kube, hkube, hrecorded⟩ := complete.exists_lookup
  have hequal : ∀ uid : Int, kube[uid]? = directory.identities[uid]? := fun uid =>
    (hrecorded uid).trans (hstored uid)
  refine ⟨kube, ?_, hequal, fun order'' => sync_eq_nil order'' _ hequal⟩
  rw [← haborted, ← hcomplete, hkube]

end Runs

end Workflows.IdentityMapper
