import Workflows.IdentityMapper.Sync

/-!
# What an incomplete answer removes

A search that ends early looks like a smaller directory. A run then deletes every identity it has
not received and rewrites the groups of the others, unless one of its calls is refused before.
-/

namespace Workflows.IdentityMapper

open Dictionary

/-- Every object is still there and has lost no group. -/
def Intact (before after : List UserIdentity) : Prop :=
  ∀ o ∈ before, ∃ o' ∈ after, o'.name = o.name ∧ ∀ g ∈ o.groups, g ∈ o'.groups

/-- The group search is only made when the other one has found a user. -/
def Incomplete (people : Search PersonEntry) (groups : Search GroupEntry) : Prop :=
  people.complete = false ∨ (groups.complete = false ∧ ∃ e ∈ people.entries, e.user?.isSome)

/-- A run after an incomplete answer removes nothing, whatever the order of its calls and whichever
of them fail. -/
def KeepsIdentities (people : Search PersonEntry) (groups : Search GroupEntry)
    (items : List UserIdentity) : Prop :=
  Incomplete people groups →
    ∀ fails order, Intact items (run fails order people groups items)

section Condition

variable (people : Search PersonEntry) (groups : Search GroupEntry) (items : List UserIdentity)

def Recorded (uid : Int) : Prop := ∃ o ∈ items, o.uid = some uid

def Found (uid : Int) : Prop := ∃ e ∈ people.entries, ∃ user, e.user? = some user ∧ user.uid = uid

/-- A received group other than the primary one lists the user received for the uid. -/
def Lists (uid g : Int) : Prop :=
  ∃ user, received people.entries uid = some user ∧ g ≠ user.gid ∧
    ∃ e ∈ groups.entries, ∃ group, e.group? = some group ∧ group.gid = g ∧
      user.username ∈ e.memberUid

/-- What is recorded for the uid is what the received entries say. -/
def UpToDate (uid : Int) : Prop :=
  lastWith Identity.uid uid (items.filterMap UserIdentity.identity?) =
    (received people.entries uid).map (identityOf groups.entries)

/-- An object cannot be read, or a create is refused because its name is taken, or no object named
after a recorded uid is missing from the answer. In the last case a delete is refused before the
updates, or these take no group away. -/
def Spared : Prop :=
  (∃ o ∈ items, o.identity? = none) ∨
  (∃ o ∈ items, ∃ uid, o.name = toString uid ∧ Found people uid ∧ ¬Recorded items uid) ∨
  (∀ o ∈ items, ∀ uid, o.name = toString uid → Recorded items uid → Found people uid) ∧
    ((∃ uid, Recorded items uid ∧ ¬Found people uid) ∨
      ∀ o ∈ items, ∀ uid, o.name = toString uid → Recorded items uid →
        UpToDate people groups items uid ∨ ∀ g ∈ o.groups, Lists people groups uid g)

end Condition

variable {people : Search PersonEntry} {groups : Search GroupEntry} {items : List UserIdentity}

theorem toString_inj {a b : Int} : toString a = toString b ↔ a = b := Int.repr_inj

section Lookups

theorem found_iff {uid : Int} : Found people uid ↔ (received people.entries uid).isSome := by
  simp only [Found, received, lastWith_isSome_iff, List.mem_filterMap]
  constructor
  · rintro ⟨e, he, user, huser, hu⟩
    exact ⟨user, ⟨e, he, huser⟩, hu⟩
  · rintro ⟨user, ⟨e, he, huser⟩, hu⟩
    exact ⟨e, he, user, huser, hu⟩

theorem mem_memberships {groups : List GroupEntry} {username : String} {group : Group} :
    group ∈ memberships groups username ↔
      ∃ e ∈ groups, e.group? = some group ∧ username ∈ e.memberUid := by
  simp only [memberships, List.mem_flatMap]
  constructor
  · rintro ⟨e, he, hgroup⟩
    cases hopt : e.group? with
    | none => simp [hopt] at hgroup
    | some other =>
      simp only [hopt, List.mem_map, List.mem_filter, decide_eq_true_eq] at hgroup
      obtain ⟨m, ⟨hm, rfl⟩, rfl⟩ := hgroup
      exact ⟨e, he, hopt, hm⟩
  · rintro ⟨e, he, hgroup, hm⟩
    exact ⟨e, he, by simpa [hgroup] using hm⟩

theorem mem_supplementalGroups {user : User} {g : Int} :
    g ∈ (identityOf groups.entries user).supplementalGroups ↔ g ≠ user.gid ∧
      ∃ e ∈ groups.entries, ∃ group, e.group? = some group ∧ group.gid = g ∧
        user.username ∈ e.memberUid := by
  simp only [identityOf, supplementary, List.mem_insertionSort, List.mem_filter, List.mem_map,
    mem_memberships, decide_eq_true_eq]
  constructor
  · rintro ⟨⟨group, ⟨e, he, hgroup, hm⟩, hg⟩, hne⟩
    exact ⟨hne, e, he, group, hgroup, hg, hm⟩
  · rintro ⟨hne, e, he, group, hgroup, hg, hm⟩
    exact ⟨⟨group, ⟨e, he, hgroup, hm⟩, hg⟩, hne⟩

/-- Of an identity that the lookup finds, the groups are those that list its user. -/
theorem lists_iff {uid g : Int} {spec : Identity}
    (h : (lookupIdentitiesInLdap people groups)[uid]? = some spec) :
    Lists people groups uid g ↔ g ∈ spec.supplementalGroups := by
  rw [getElem?_lookupIdentitiesInLdap] at h
  obtain ⟨user, huser, rfl⟩ := Option.map_eq_some_iff.mp h
  rw [mem_supplementalGroups, Lists]
  simp [huser]

theorem filterMap_of_mapM {α β : Type} {f : α → Option β} {xs : List α} {ys : List β}
    (h : xs.mapM f = some ys) : xs.filterMap f = ys := by
  induction xs generalizing ys with
  | nil => simpa using h
  | cons x xs ih =>
    simp only [List.mapM_cons, Option.pure_def, Option.bind_eq_bind, Option.bind_eq_some_iff,
      Option.some.injEq] at h
    obtain ⟨y, hy, zs, hzs, rfl⟩ := h
    rw [List.filterMap_cons_some hy, ih hzs]

theorem mapM_eq_none_iff {α β : Type} {f : α → Option β} {xs : List α} :
    xs.mapM f = none ↔ ∃ x ∈ xs, f x = none := by
  induction xs with
  | nil => simp
  | cons x xs ih =>
    cases hx : f x with
    | none => simp [List.mapM_cons, hx]
    | some y =>
      cases hxs : xs.mapM f with
      | none =>
        obtain ⟨z, hz, hnone⟩ := ih.mp hxs
        simp [List.mapM_cons, hx, hxs, show ∃ a ∈ xs, f a = none from ⟨z, hz, hnone⟩]
      | some ys =>
        have hsome : ¬∃ z ∈ xs, f z = none := fun h => by simp [ih.mpr h] at hxs
        simpa [List.mapM_cons, hx, hxs] using hsome

theorem lookupIdentitiesInKubernetes_eq_none_iff :
    lookupIdentitiesInKubernetes items = none ↔ ∃ o ∈ items, o.identity? = none := by
  rw [lookupIdentitiesInKubernetes, Option.map_eq_none_iff, mapM_eq_none_iff]

variable {kube : Std.TreeMap Int Identity}

theorem getElem?_kube (h : lookupIdentitiesInKubernetes items = some kube) (uid : Int) :
    kube[uid]? = lastWith Identity.uid uid (items.filterMap UserIdentity.identity?) := by
  obtain ⟨identities, hidentities, rfl⟩ := Option.map_eq_some_iff.mp h
  rw [getElem?_dictOf, filterMap_of_mapM hidentities]
  simp

theorem recorded_iff (h : lookupIdentitiesInKubernetes items = some kube) (uid : Int) :
    Recorded items uid ↔ (kube[uid]?).isSome := by
  have hread : ∀ o ∈ items, o.identity? ≠ none := fun o ho hnone => by
    rw [lookupIdentitiesInKubernetes_eq_none_iff.mpr ⟨o, ho, hnone⟩] at h
    cases h
  rw [getElem?_kube h, lastWith_isSome_iff]
  simp only [List.mem_filterMap, Recorded]
  constructor
  · rintro ⟨o, ho, hu⟩
    obtain ⟨identity, hidentity⟩ := Option.ne_none_iff_exists'.mp (hread o ho)
    refine ⟨identity, ⟨o, ho, hidentity⟩, ?_⟩
    simp only [UserIdentity.identity?, hu] at hidentity
    split at hidentity
    next uid' gid' heq _ =>
      cases heq
      cases hidentity
      rfl
    next => cases hidentity
  · rintro ⟨identity, ⟨o, ho, hidentity⟩, rfl⟩
    refine ⟨o, ho, ?_⟩
    unfold UserIdentity.identity? at hidentity
    split at hidentity
    next uid' gid' heq _ =>
      cases hidentity
      exact heq
    next => cases hidentity

end Lookups

section Perform

variable {fails : Call → Bool}

def Call.name : Call → String
  | .create uid _ => toString uid
  | .delete uid => toString uid
  | .patch uid _ => toString uid

/-- The call takes nothing away from the objects. -/
def Gentle (items : List UserIdentity) : Call → Prop
  | .create _ _ => True
  | .delete uid => ∀ o ∈ items, o.name ≠ toString uid
  | .patch uid spec => ∀ o ∈ items, o.name = toString uid → ∀ g ∈ o.groups,
      g ∈ spec.supplementalGroups

theorem intact_refl : Intact items items := fun o ho => ⟨o, ho, rfl, fun _ hg => hg⟩

theorem Intact.apply {after next : List UserIdentity} {c : Call} (h : Intact items after)
    (hgentle : Gentle items c) (hnext : apply after c = some next) : Intact items next := by
  cases c with
  | create uid spec =>
    simp only [IdentityMapper.apply] at hnext
    split_ifs at hnext
    cases hnext
    intro o ho
    obtain ⟨o', ho', hname, hgroups⟩ := h o ho
    exact ⟨o', List.mem_append_left _ ho', hname, hgroups⟩
  | delete uid =>
    simp only [IdentityMapper.apply] at hnext
    split_ifs at hnext
    cases hnext
    intro o ho
    obtain ⟨o', ho', hname, hgroups⟩ := h o ho
    have hne : o'.name ≠ toString uid := hname ▸ hgentle o ho
    exact ⟨o', List.mem_filter.mpr ⟨ho', by simpa using hne⟩, hname, hgroups⟩
  | patch uid spec =>
    simp only [IdentityMapper.apply] at hnext
    split_ifs at hnext
    cases hnext
    intro o ho
    obtain ⟨o', ho', hname, hgroups⟩ := h o ho
    refine ⟨_, List.mem_map_of_mem ho', ?_⟩
    split_ifs with hpatched
    · have hoName : o.name = toString uid := hname.symm.trans hpatched
      exact ⟨hoName.symm, hgentle o ho hoName⟩
    · exact ⟨hname, hgroups⟩

theorem Intact.perform {after : List UserIdentity} {calls : List Call} (h : Intact items after)
    (hgentle : ∀ c ∈ calls, Gentle items c) : Intact items (perform fails after calls) := by
  induction calls generalizing after with
  | nil => exact h
  | cons c calls ih =>
    obtain ⟨hc, hcalls⟩ := List.forall_mem_cons.mp hgentle
    rw [IdentityMapper.perform]
    split
    next => exact h
    next next hnext =>
      rw [attempt] at hnext
      split_ifs at hnext
      exact ih (h.apply hc hnext) hcalls

/-- The cluster after all of the calls, if none of them fails. -/
def performAll (fails : Call → Bool) (items : List UserIdentity) (calls : List Call) :
    Option (List UserIdentity) :=
  calls.foldlM (attempt fails) items

theorem performAll_cons {c : Call} {calls : List Call} :
    performAll fails items (c :: calls) =
      (attempt fails items c).bind fun next => performAll fails next calls := rfl

theorem perform_append (calls rest : List Call) :
    perform fails items (calls ++ rest) =
      match performAll fails items calls with
      | none => perform fails items calls
      | some next => perform fails next rest := by
  induction calls generalizing items with
  | nil => rfl
  | cons c calls ih =>
    rw [List.cons_append, perform, perform, performAll_cons]
    cases attempt fails items c with
    | none => rfl
    | some next => exact ih

theorem perform_of_fails {calls : List Call} (h : ∀ c ∈ calls, fails c = true) :
    perform fails items calls = items := by
  cases calls with
  | nil => rfl
  | cons c calls => simp [perform, attempt, h c List.mem_cons_self]

/-- The objects are still there after the creates, and the rest are named by them. -/
theorem performAll_creates {calls : List Call} {next : List UserIdentity}
    (hcreate : ∀ c ∈ calls, ∃ uid spec, c = .create uid spec)
    (h : performAll fails items calls = some next) :
    (∀ o ∈ items, o ∈ next) ∧ (∀ o ∈ next, o ∈ items ∨ ∃ c ∈ calls, o.name = c.name) ∧
      ∀ c ∈ calls, ∀ o ∈ items, o.name ≠ c.name := by
  induction calls generalizing items with
  | nil =>
    cases h
    exact ⟨fun _ ho => ho, fun _ ho => .inl ho, by simp⟩
  | cons c calls ih =>
    obtain ⟨⟨uid, spec, rfl⟩, hcalls⟩ := List.forall_mem_cons.mp hcreate
    rw [performAll_cons, Option.bind_eq_some_iff] at h
    obtain ⟨mid, hmid, hnext⟩ := h
    simp only [attempt, apply] at hmid
    split_ifs at hmid with hfails hany
    cases hmid
    have hfree : ∀ o ∈ items, o.name ≠ toString uid := by simpa using hany
    obtain ⟨hkept, hnew, hnames⟩ := ih hcalls hnext
    refine ⟨fun o ho => hkept o (List.mem_append_left _ ho), fun o ho => ?_, ?_⟩
    · obtain hmem | ⟨c, hc, hname⟩ := hnew o ho
      · obtain hmem | hmem := List.mem_append.mp hmem
        · exact .inl hmem
        · rw [List.mem_singleton.mp hmem]
          exact .inr ⟨_, List.mem_cons_self, rfl⟩
      · exact .inr ⟨c, List.mem_cons_of_mem _ hc, hname⟩
    · refine List.forall_mem_cons.mpr ⟨hfree, fun c hc o ho => ?_⟩
      exact hnames c hc o (List.mem_append_left _ ho)

theorem performAll_creates_isSome {calls : List Call}
    (hcreate : ∀ c ∈ calls, ∃ uid spec, c = .create uid spec)
    (hfails : ∀ c ∈ calls, fails c = false) (hfree : ∀ c ∈ calls, ∀ o ∈ items, o.name ≠ c.name)
    (hnodup : (calls.map Call.name).Nodup) : (performAll fails items calls).isSome := by
  induction calls generalizing items with
  | nil => rfl
  | cons c calls ih =>
    obtain ⟨⟨uid, spec, rfl⟩, hcalls⟩ := List.forall_mem_cons.mp hcreate
    obtain ⟨hc, hrest⟩ := List.forall_mem_cons.mp hfails
    obtain ⟨hcfree, hrestfree⟩ := List.forall_mem_cons.mp hfree
    obtain ⟨hnotin, hnodup⟩ := List.nodup_cons.mp hnodup
    have hattempt : attempt fails items (.create uid spec) =
        some (items ++ [userIdentity uid spec]) := by
      have hany : ∀ o ∈ items, o.name ≠ toString uid := hcfree
      rw [attempt, hc, if_neg (by simp), apply, if_neg (by simpa using hany)]
    rw [performAll_cons, hattempt]
    refine ih hcalls hrest (fun c hmem o ho => ?_) hnodup
    obtain ho | ho := List.mem_append.mp ho
    · exact hrestfree c hmem o ho
    · rw [List.mem_singleton.mp ho]
      exact fun heq => hnotin (List.mem_map.mpr ⟨c, hmem, heq.symm⟩)

end Perform

section Creates

variable {order : SetOrder} {ldap kube : Std.TreeMap Int Identity}

theorem nodup_creates : ((creates order ldap kube).map Call.name).Nodup := by
  have huids : (order.arrange (toCreate ldap kube)).Nodup :=
    (order.perm _).nodup_iff.mpr ((Dictionary.nodup_keys ldap).filter _)
  rw [creates, List.map_filterMap]
  refine List.Pairwise.filterMap _ (fun a b hne x hx y hy heq => ?_) huids
  obtain ⟨c, hc, rfl⟩ := Option.map_eq_some_iff.mp hx
  obtain ⟨_, -, rfl⟩ := Option.map_eq_some_iff.mp hc
  obtain ⟨d, hd, rfl⟩ := Option.map_eq_some_iff.mp hy
  obtain ⟨_, -, rfl⟩ := Option.map_eq_some_iff.mp hd
  exact hne (toString_inj.mp heq)

end Creates

section Runs

variable {kube : Std.TreeMap Int Identity}

theorem creates_are_creates {order : SetOrder} {ldap kube : Std.TreeMap Int Identity} :
    ∀ c ∈ creates order ldap kube, ∃ uid spec, c = .create uid spec := by
  intro c hc
  obtain ⟨uid, spec, rfl, -, -⟩ := (mem_creates_iff order ldap kube).mp hc
  exact ⟨uid, spec, rfl⟩

theorem gentle_creates {order : SetOrder} {ldap kube : Std.TreeMap Int Identity} :
    ∀ c ∈ creates order ldap kube, Gentle items c := by
  intro c hc
  obtain ⟨uid, spec, rfl⟩ := creates_are_creates c hc
  exact trivial

theorem found_iff_ldap (groups : Search GroupEntry) {uid : Int} :
    Found people uid ↔ ((lookupIdentitiesInLdap people groups)[uid]?).isSome := by
  rw [found_iff, getElem?_lookupIdentitiesInLdap, Option.isSome_map]

/-- No delete removes an object when every recorded uid that names one was found. -/
theorem gentle_deletes {order : SetOrder} (hkube : lookupIdentitiesInKubernetes items = some kube)
    (hfound : ∀ o ∈ items, ∀ uid, o.name = toString uid → Recorded items uid → Found people uid) :
    ∀ c ∈ deletes order (lookupIdentitiesInLdap people groups) kube, Gentle items c := by
  intro c hc
  obtain ⟨uid, rfl, hrecorded, hmissing⟩ := (mem_deletes_iff _ _ _).mp hc
  intro o ho hname
  have hsome := (found_iff_ldap groups).mp
    (hfound o ho uid hname ((recorded_iff hkube uid).mpr hrecorded))
  simp [hmissing] at hsome

theorem gentle_updates {order : SetOrder} (hkube : lookupIdentitiesInKubernetes items = some kube)
    (hlists : ∀ o ∈ items, ∀ uid, o.name = toString uid → Recorded items uid →
      UpToDate people groups items uid ∨ ∀ g ∈ o.groups, Lists people groups uid g) :
    ∀ c ∈ updates order (lookupIdentitiesInLdap people groups) kube, Gentle items c := by
  intro c hc
  obtain ⟨uid, spec, rfl, hspec, hrecorded, hne⟩ := (mem_updates_iff _ _ _).mp hc
  intro o ho hname g hg
  obtain hup | hall := hlists o ho uid hname ((recorded_iff hkube uid).mpr hrecorded)
  · rw [UpToDate, ← getElem?_kube hkube, ← getElem?_lookupIdentitiesInLdap, hspec] at hup
    exact absurd hup hne
  · exact (lists_iff hspec).mp (hall g hg)

/-- A delete of a uid that names no object is refused, and so are the updates never made. -/
theorem perform_deletes_refused {fails : Call → Bool} {order : SetOrder} {next : List UserIdentity}
    {ldap kube : Std.TreeMap Int Identity} {uid : Int} (rest : List Call)
    (hmem : .delete uid ∈ deletes order ldap kube)
    (hnone : ∀ c ∈ deletes order ldap kube, ∀ o ∈ next, o.name ≠ c.name) :
    perform fails next (deletes order ldap kube ++ rest) = next := by
  cases hdeletes : deletes order ldap kube with
  | nil =>
    rw [hdeletes] at hmem
    cases hmem
  | cons c calls =>
    have hc : c ∈ deletes order ldap kube := hdeletes ▸ List.mem_cons_self
    obtain ⟨uid', rfl, -, -⟩ := (mem_deletes_iff _ _ _).mp hc
    have hfree : ∀ o ∈ next, o.name ≠ toString uid' := hnone _ hc
    have hrefused : attempt fails next (.delete uid') = none := by
      have hany : ¬next.any (·.name = toString uid') := by simpa using hfree
      rw [attempt, apply, if_neg hany, ite_self]
    rw [List.cons_append, perform, hrefused]

theorem intact_of_spared (h : Spared people groups items) (fails : Call → Bool)
    (order : SetOrder) : Intact items (run fails order people groups items) := by
  rw [run]
  split
  next => exact intact_refl
  next kube hkube =>
    have hcreates : Intact items
        (perform fails items (creates order (lookupIdentitiesInLdap people groups) kube)) :=
      intact_refl.perform gentle_creates
    rw [syncLdapToKubernetes, List.append_assoc, perform_append]
    split
    next => exact hcreates
    next next hnext =>
      obtain ⟨hkept, hnew, hfree⟩ := performAll_creates creates_are_creates hnext
      have hintact : Intact items next := fun o ho => ⟨o, hkept o ho, rfl, fun _ hg => hg⟩
      obtain ⟨o, ho, hnone⟩ | ⟨o, ho, uid, hname, hfound, hrecorded⟩ | ⟨hfound, hrest⟩ := h
      · rw [lookupIdentitiesInKubernetes_eq_none_iff.mpr ⟨o, ho, hnone⟩] at hkube
        cases hkube
      · obtain ⟨spec, hspec⟩ := Option.isSome_iff_exists.mp
          ((found_iff_ldap groups).mp hfound)
        have hmissing : kube[uid]? = none := by
          simpa using mt (recorded_iff hkube uid).mpr hrecorded
        have hmem : .create uid spec ∈ creates order (lookupIdentitiesInLdap people groups) kube :=
          (mem_creates_iff _ _ _).mpr ⟨uid, spec, rfl, hspec, hmissing⟩
        exact absurd hname (hfree _ hmem o ho)
      · have hdeletes : ∀ c ∈ deletes order (lookupIdentitiesInLdap people groups) kube,
            Gentle items c := gentle_deletes hkube hfound
        obtain ⟨uid, hrecorded, hmissing⟩ | hlists := hrest
        · have hmem : .delete uid ∈ deletes order (lookupIdentitiesInLdap people groups) kube := by
            refine (mem_deletes_iff _ _ _).mpr ⟨uid, rfl, (recorded_iff hkube uid).mp hrecorded, ?_⟩
            simpa using mt (found_iff_ldap groups).mpr hmissing
          rw [perform_deletes_refused _ hmem]
          · exact hintact
          · intro c hc o ho
            obtain ⟨uid', rfl, -, hmissing'⟩ := (mem_deletes_iff _ _ _).mp hc
            obtain hold | ⟨d, hd, hname⟩ := hnew o ho
            · exact hdeletes _ hc o hold
            · obtain ⟨uid'', spec, rfl, hspec, -⟩ := (mem_creates_iff _ _ _).mp hd
              rw [hname]
              rintro heq
              rw [toString_inj.mp heq, hmissing'] at hspec
              cases hspec
        · exact hintact.perform
            (List.forall_mem_append.mpr ⟨hdeletes, gentle_updates hkube hlists⟩)

def front (uid : Int) : SetOrder where
  arrange xs := if uid ∈ xs then uid :: xs.erase uid else xs
  perm xs := by
    split_ifs with h
    · exact (List.perm_cons_erase h).symm
    · exact .refl xs

/-- Every call fails but the creates and this one. -/
def only (d : Call) : Call → Bool
  | .create _ _ => false
  | c => c ≠ d

theorem perform_only {d : Call} {rest : List Call} {next after : List UserIdentity}
    (hd : attempt (only d) next d = some after) (hrest : ∀ c ∈ rest, only d c = true) :
    perform (only d) next (d :: rest) = after := by
  rw [perform, hd]
  exact perform_of_fails hrest

variable {ldap : Std.TreeMap Int Identity}

theorem perform_front_delete {next : List UserIdentity} {uid : Int}
    (hmem : uid ∈ toDelete ldap kube) (hnext : ∃ o ∈ next, o.name = toString uid) :
    perform (only (.delete uid)) next
        (deletes (front uid) ldap kube ++ updates (front uid) ldap kube) =
      next.filter (·.name ≠ toString uid) := by
  have hdeletes : deletes (front uid) ldap kube =
      .delete uid :: ((toDelete ldap kube).erase uid).map Call.delete := by
    simp [deletes, front, hmem]
  rw [hdeletes, List.cons_append]
  refine perform_only (by simpa [attempt, only, apply] using hnext) fun c hc => ?_
  obtain hc | hc := List.mem_append.mp hc
  · obtain ⟨u, hu, rfl⟩ := List.mem_map.mp hc
    have hnodup : (toDelete ldap kube).Nodup := (Dictionary.nodup_keys kube).filter _
    have hne : u ≠ uid := (hnodup.mem_erase_iff.mp hu).1
    simpa [only] using hne
  · obtain ⟨u, spec, rfl, -⟩ := (mem_updates_iff _ _ _).mp hc
    simp [only]

theorem perform_front_patch {next : List UserIdentity} {uid : Int} {spec : Identity}
    (hnone : toDelete ldap kube = []) (hmem : uid ∈ toUpdate ldap kube)
    (hspec : ldap[uid]? = some spec) (hnext : ∃ o ∈ next, o.name = toString uid) :
    perform (only (.patch uid spec)) next
        (deletes (front uid) ldap kube ++ updates (front uid) ldap kube) =
      next.map fun o => if o.name = toString uid then userIdentity uid spec else o := by
  have hdeletes : deletes (front uid) ldap kube = [] := by
    simp [deletes, hnone, front]
  have hupdates : updates (front uid) ldap kube = .patch uid spec ::
      ((toUpdate ldap kube).erase uid).filterMap fun uid => ldap[uid]?.map (Call.patch uid) := by
    simp [updates, front, hmem, hspec]
  rw [hdeletes, hupdates, List.nil_append]
  refine perform_only (by simpa [attempt, only, apply] using hnext) fun c hc => ?_
  obtain ⟨u, hu, hc⟩ := List.mem_filterMap.mp hc
  obtain ⟨spec', -, rfl⟩ := Option.map_eq_some_iff.mp hc
  have hnodup : (toUpdate ldap kube).Nodup := (Dictionary.nodup_keys ldap).filter _
  have hne : u ≠ uid := (hnodup.mem_erase_iff.mp hu).1
  simp [only, hne]

/-- The creates succeed when their names are free, and what follows starts from their cluster. -/
theorem run_of_free (d : Call) (order : SetOrder)
    (hkube : lookupIdentitiesInKubernetes items = some kube)
    (hfree : ∀ o ∈ items, ∀ uid, o.name = toString uid → Found people uid → Recorded items uid) :
    ∃ next, (∀ o ∈ items, o ∈ next) ∧ run (only d) order people groups items =
      perform (only d) next (deletes order (lookupIdentitiesInLdap people groups) kube ++
        updates order (lookupIdentitiesInLdap people groups) kube) := by
  have hnames : ∀ c ∈ creates order (lookupIdentitiesInLdap people groups) kube,
      ∀ o ∈ items, o.name ≠ c.name := by
    intro c hc o ho hname
    obtain ⟨uid, spec, rfl, hspec, hmissing⟩ := (mem_creates_iff _ _ _).mp hc
    have hrecorded := hfree o ho uid hname ((found_iff_ldap groups).mpr (by simp [hspec]))
    simp [hmissing, recorded_iff hkube] at hrecorded
  have hallowed : ∀ c ∈ creates order (lookupIdentitiesInLdap people groups) kube,
      only d c = false := by
    intro c hc
    obtain ⟨uid, spec, rfl⟩ := creates_are_creates c hc
    rfl
  have hcreated := performAll_creates_isSome creates_are_creates hallowed hnames nodup_creates
  obtain ⟨next, hnext⟩ := Option.isSome_iff_exists.mp hcreated
  refine ⟨next, (performAll_creates creates_are_creates hnext).1, ?_⟩
  simp only [run, hkube]
  rw [syncLdapToKubernetes, List.append_assoc, perform_append, hnext]

theorem spared_of_intact
    (h : ∀ fails order, Intact items (run fails order people groups items)) :
    Spared people groups items := by
  cases hkube : lookupIdentitiesInKubernetes items with
  | none => exact .inl (lookupIdentitiesInKubernetes_eq_none_iff.mp hkube)
  | some kube =>
    refine .inr (or_iff_not_imp_left.mpr fun hblocked => ?_)
    -- a run whose only delete or patch that is not refused is the harmful one gives the rest
    have hfree : ∀ o ∈ items, ∀ uid, o.name = toString uid → Found people uid →
        Recorded items uid := by
      intro o ho uid hname hfound
      by_contra hrecorded
      exact hblocked ⟨o, ho, uid, hname, hfound, hrecorded⟩
    have htoDelete : ∀ uid, Recorded items uid → ¬Found people uid →
        uid ∈ toDelete (lookupIdentitiesInLdap people groups) kube := by
      intro uid hrecorded hmissing
      rw [recorded_iff hkube, ← Std.TreeMap.mem_iff_isSome_getElem?] at hrecorded
      rw [found_iff_ldap groups, ← Std.TreeMap.mem_iff_isSome_getElem?] at hmissing
      exact List.mem_filter.mpr ⟨Std.TreeMap.mem_keys.mpr hrecorded, by simpa using hmissing⟩
    refine ⟨fun o ho uid hname hrecorded => ?_, or_iff_not_imp_left.mpr fun hall => ?_⟩
    · by_contra hmissing
      obtain ⟨next, hkept, hrun⟩ := run_of_free (.delete uid) (front uid) hkube hfree
      have hintact := h (only (.delete uid)) (front uid)
      rw [hrun, perform_front_delete (htoDelete uid hrecorded hmissing) ⟨o, hkept o ho, hname⟩]
        at hintact
      obtain ⟨o', ho', hname', -⟩ := hintact o ho
      have hne : o'.name ≠ toString uid := by simpa using (List.mem_filter.mp ho').2
      exact hne (hname'.trans hname)
    · intro o ho uid hname hrecorded
      refine or_iff_not_imp_left.mpr fun hstale g hg => ?_
      have hfound : Found people uid := by
        by_contra hmissing
        exact hall ⟨uid, hrecorded, hmissing⟩
      have hnone : toDelete (lookupIdentitiesInLdap people groups) kube = [] := by
        refine List.filter_eq_nil_iff.mpr fun u hu => ?_
        rw [Std.TreeMap.mem_keys, Std.TreeMap.mem_iff_isSome_getElem?, ← recorded_iff hkube] at hu
        have hin : Found people u := by
          by_contra hmissing
          exact hall ⟨u, hu, hmissing⟩
        rw [found_iff_ldap groups, ← Std.TreeMap.mem_iff_isSome_getElem?] at hin
        simpa using hin
      obtain ⟨spec, hspec⟩ := Option.isSome_iff_exists.mp ((found_iff_ldap groups).mp hfound)
      have hupdate : uid ∈ toUpdate (lookupIdentitiesInLdap people groups) kube := by
        rw [UpToDate, ← getElem?_kube hkube, ← getElem?_lookupIdentitiesInLdap] at hstale
        rw [recorded_iff hkube, ← Std.TreeMap.mem_iff_isSome_getElem?] at hrecorded
        refine List.mem_filter.mpr ⟨?_, by simpa using ⟨hrecorded, Ne.symm hstale⟩⟩
        rw [Std.TreeMap.mem_keys, Std.TreeMap.mem_iff_isSome_getElem?, hspec]
        rfl
      obtain ⟨next, hkept, hrun⟩ := run_of_free (.patch uid spec) (front uid) hkube hfree
      have hintact := h (only (.patch uid spec)) (front uid)
      rw [hrun, perform_front_patch hnone hupdate hspec ⟨o, hkept o ho, hname⟩] at hintact
      obtain ⟨o', ho', hname', hgroups⟩ := hintact o ho
      obtain ⟨x, -, rfl⟩ := List.mem_map.mp ho'
      split_ifs at hname' hgroups with hpatched
      · exact (lists_iff hspec).mpr (hgroups g hg)
      · exact absurd (hname'.trans hname) hpatched

end Runs

/-- An incomplete answer removes nothing exactly when what was received spares every object. -/
theorem keepsIdentities_iff (people : Search PersonEntry) (groups : Search GroupEntry)
    (items : List UserIdentity) :
    KeepsIdentities people groups items ↔
      (Incomplete people groups → Spared people groups items) := by
  refine ⟨fun h hincomplete => spared_of_intact (h hincomplete), ?_⟩
  intro h hincomplete fails order
  exact intact_of_spared (h hincomplete) fails order

def exampleIdentities : List UserIdentity :=
  [{ name := "1001", uid := some 1001, gid := some 2001, supplementalGroups := some [3001] }]

/-- The first search ends with an error before it returns any entry. -/
theorem not_keepsIdentities :
    ¬KeepsIdentities { complete := false, entries := [] } { complete := true, entries := [] }
      exampleIdentities := by
  intro h
  have hrun := h (.inl rfl) (fun _ => false) ⟨id, fun _ => .refl _⟩
  obtain ⟨o, ho, -⟩ := hrun _ List.mem_cons_self
  have hempty : run (fun _ => false) ⟨id, fun _ => .refl _⟩ { complete := false, entries := [] }
      { complete := true, entries := [] } exampleIdentities = [] := by decide
  rw [hempty] at ho
  cases ho

end Workflows.IdentityMapper
