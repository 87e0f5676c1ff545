import Workflows.IdentityMapper.Lookup

/-!
# What the directory says of a person

The identities are those of the usable person entries. The supplemental groups of a person are
sorted but not made different: a group id stands in the list once for every time that a group with
this id lists the person.
-/

namespace Workflows.IdentityMapper

open Dictionary

/-- A person entry with a username and two numbers that are not zero. -/
structure PersonEntry.Describes (e : PersonEntry) (user : User) : Prop where
  uid : e.uid = some user.username
  uidNumber : e.uidNumber = some user.uid
  gidNumber : e.gidNumber = some user.gid
  username_ne : user.username ≠ ""
  uid_ne : user.uid ≠ 0
  gid_ne : user.gid ≠ 0

/-- The identities are those of the entries that describe a person, each with the groups that
`supplemental` says. -/
def IdentitiesAre (supplemental : User → List Int → Prop) (people : List PersonEntry)
    (identities : Std.TreeMap Int Identity) : Prop :=
  ∀ (uid : Int) (identity : Identity), identities[uid]? = some identity ↔
    ∃ e ∈ people, ∃ user : User, e.Describes user ∧ user.uid = uid ∧ identity.uid = uid ∧
      identity.gid = user.gid ∧ supplemental user identity.supplementalGroups

def GroupEntry.IsNamed (e : GroupEntry) : Prop :=
  ∃ name, e.cn = some name ∧ name ≠ ""

/-- Every group once. -/
structure EachOnce (groups : List GroupEntry) (user : User) (gids : List Int) : Prop where
  increasing : gids.Pairwise (· < ·)
  mem : ∀ gid, gid ∈ gids ↔ gid ≠ user.gid ∧
    ∃ e ∈ groups, e.IsNamed ∧ e.gidNumber = some gid ∧ user.username ∈ e.memberUid

/-- How often the entry lists the name for the group id. A group without a name or with the id zero
is skipped. -/
def GroupEntry.listings (username : String) (gid : Int) (e : GroupEntry) : Nat :=
  if e.cn.getD "" ≠ "" ∧ e.gidNumber = some gid ∧ gid ≠ 0 then e.memberUid.count username else 0

/-- Every group as often as the groups with its id list the person. -/
structure EachListing (groups : List GroupEntry) (user : User) (gids : List Int) : Prop where
  sorted : gids.Pairwise (· ≤ ·)
  count : ∀ gid, gids.count gid =
    if gid = user.gid then 0 else (groups.map (·.listings user.username gid)).sum
  mem : ∀ gid, gid ∈ gids ↔ gid ≠ user.gid ∧ gid ≠ 0 ∧
    ∃ e ∈ groups, e.IsNamed ∧ e.gidNumber = some gid ∧ user.username ∈ e.memberUid

section Entries

theorem user?_eq_some_iff {e : PersonEntry} {user : User} :
    e.user? = some user ↔ e.Describes user := by
  constructor
  · intro h
    unfold PersonEntry.user? at h
    split at h
    · rename_i username uid gid husername huid hgid
      split_ifs at h with hvalues
      cases h
      exact ⟨husername, huid, hgid, hvalues.1, hvalues.2.1, hvalues.2.2⟩
    · cases h
  · intro h
    rw [PersonEntry.user?, h.uid, h.uidNumber, h.gidNumber]
    exact if_pos ⟨h.username_ne, h.uid_ne, h.gid_ne⟩

theorem group?_eq_some_iff {e : GroupEntry} {group : Group} :
    e.group? = some group ↔ e.cn = some group.name ∧ group.name ≠ "" ∧
      e.gidNumber = some group.gid ∧ group.gid ≠ 0 := by
  constructor
  · intro h
    unfold GroupEntry.group? at h
    split at h
    · rename_i name gid hname hgid
      split_ifs at h with hvalues
      cases h
      exact ⟨hname, hvalues.1, hgid, hvalues.2⟩
    · cases h
  · rintro ⟨hname, hne, hgid, hzero⟩
    rw [GroupEntry.group?, hname, hgid]
    exact if_pos ⟨hne, hzero⟩

/-- What an entry gives to the person with the name. -/
theorem count_memberships_entry (e : GroupEntry) (username : String) (gid : Int) :
    (((match e.group? with
      | none => []
      | some group => (e.memberUid.filter (· = username)).map fun _ => group) : List Group).map
        Group.gid).count gid = e.listings username gid := by
  cases hgroup : e.group? with
  | none =>
    refine (if_neg ?_).symm
    rintro ⟨hname, hgid, hzero⟩
    cases hcn : e.cn with
    | none =>
      rw [hcn] at hname
      exact hname rfl
    | some name =>
      rw [hcn] at hname
      have hsome : e.group? = some ⟨name, gid⟩ := group?_eq_some_iff.mpr ⟨hcn, hname, hgid, hzero⟩
      cases hgroup.symm.trans hsome
  | some group =>
    obtain ⟨hcn, hne, hgid, hzero⟩ := group?_eq_some_iff.mp hgroup
    rw [GroupEntry.listings, hcn, hgid, List.map_map, Function.comp_def, List.map_const',
      List.count_replicate, ← List.countP_eq_length_filter]
    rcases eq_or_ne group.gid gid with rfl | hdiffer
    · have hlisted : (some group.name).getD "" ≠ "" ∧ some group.gid = some group.gid ∧
          group.gid ≠ 0 := ⟨hne, rfl, hzero⟩
      rw [if_pos hlisted, if_pos (beq_self_eq_true _), List.count]
      rfl
    · rw [if_neg (by simpa using hdiffer), if_neg (by simp [hdiffer])]

theorem count_memberships (groups : List GroupEntry) (username : String) (gid : Int) :
    ((memberships groups username).map Group.gid).count gid =
      (groups.map (·.listings username gid)).sum := by
  rw [memberships, List.map_flatMap, List.count_flatMap]
  congr 1
  exact List.map_congr_left fun e _ => count_memberships_entry e username gid

theorem isNamed_iff {e : GroupEntry} : e.IsNamed ↔ e.cn.getD "" ≠ "" := by
  cases hcn : e.cn with
  | none => simp [GroupEntry.IsNamed, hcn]
  | some name => simp [GroupEntry.IsNamed, hcn]

theorem listings_pos_iff {e : GroupEntry} {username : String} {gid : Int} :
    0 < e.listings username gid ↔
      gid ≠ 0 ∧ e.IsNamed ∧ e.gidNumber = some gid ∧ username ∈ e.memberUid := by
  rw [GroupEntry.listings, isNamed_iff]
  split_ifs with h
  · rw [List.count_pos_iff]
    exact ⟨fun hmem => ⟨h.2.2, h.1, h.2.1, hmem⟩, fun hmem => hmem.2.2.2⟩
  · refine iff_of_false (by omega) ?_
    rintro ⟨hzero, hname, hgid, -⟩
    exact h ⟨hname, hgid, hzero⟩

end Entries

section Supplementary

variable (groups : List GroupEntry) (user : User)

theorem count_supplementary (gid : Int) :
    (supplementary user (memberships groups user.username)).count gid =
      if gid = user.gid then 0 else (groups.map (·.listings user.username gid)).sum := by
  rw [supplementary, (List.perm_insertionSort _ _).count_eq]
  split_ifs with hprimary
  · rw [List.count_eq_zero, List.mem_filter]
    simp [hprimary]
  · rw [List.count_filter (by simpa using hprimary), count_memberships]

theorem mem_supplementary (gid : Int) :
    gid ∈ supplementary user (memberships groups user.username) ↔ gid ≠ user.gid ∧ gid ≠ 0 ∧
      ∃ e ∈ groups, e.IsNamed ∧ e.gidNumber = some gid ∧ user.username ∈ e.memberUid := by
  have hlisted : 0 < (groups.map (·.listings user.username gid)).sum ↔
      ∃ e ∈ groups, 0 < e.listings user.username gid := by
    simp [Nat.pos_iff_ne_zero, List.sum_eq_zero_iff]
  rw [← List.count_pos_iff, count_supplementary]
  split_ifs with hprimary
  · simp [hprimary]
  · rw [hlisted]
    simp only [listings_pos_iff]
    constructor
    · rintro ⟨e, he, hzero, hentry⟩
      exact ⟨hprimary, hzero, e, he, hentry⟩
    · rintro ⟨-, hzero, e, he, hentry⟩
      exact ⟨e, he, hzero, hentry⟩

theorem eachListing_supplementary :
    EachListing groups user (supplementary user (memberships groups user.username)) where
  sorted := List.pairwise_insertionSort _ _
  count := count_supplementary groups user
  mem := mem_supplementary groups user

variable {groups user}

theorem EachListing.unique {gids gids' : List Int} (h : EachListing groups user gids)
    (h' : EachListing groups user gids') : gids = gids' := by
  have hperm : gids.Perm gids' := List.perm_iff_count.mpr fun gid =>
    (h.count gid).trans (h'.count gid).symm
  exact hperm.eq_of_pairwise (fun a b _ _ => le_antisymm) h.sorted h'.sorted

end Supplementary

section Lookup

variable {people : List PersonEntry}

theorem mem_users_iff {user : User} :
    user ∈ people.filterMap PersonEntry.user? ↔ ∃ e ∈ people, e.Describes user := by
  simp only [List.mem_filterMap, user?_eq_some_iff]

theorem nodup_uids (hdistinct : (people.filterMap (·.uidNumber)).Nodup) :
    ((people.filterMap PersonEntry.user?).map User.uid).Nodup := by
  rw [List.Nodup, List.pairwise_map, List.pairwise_filterMap]
  apply (List.pairwise_filterMap.mp hdistinct).imp
  intro e e' hdiffer user huser user' huser'
  exact hdiffer user.uid (user?_eq_some_iff.mp huser).uidNumber user'.uid
    (user?_eq_some_iff.mp huser').uidNumber

theorem received_eq_some_iff (hdistinct : (people.filterMap (·.uidNumber)).Nodup) {uid : Int}
    {user : User} :
    received people uid = some user ↔ ∃ e ∈ people, e.Describes user ∧ user.uid = uid := by
  constructor
  · intro hreceived
    obtain ⟨hmem, huid⟩ := mem_of_lastWith hreceived
    obtain ⟨e, he, hdescribes⟩ := mem_users_iff.mp hmem
    exact ⟨e, he, hdescribes, huid⟩
  · rintro ⟨e, he, hdescribes, huid⟩
    have huser : user ∈ people.filterMap PersonEntry.user? := mem_users_iff.mpr ⟨e, he, hdescribes⟩
    have hsome : (received people uid).isSome := lastWith_isSome_iff.mpr ⟨user, huser, huid⟩
    obtain ⟨found, hreceived⟩ := Option.isSome_iff_exists.mp hsome
    obtain ⟨hfound, huid'⟩ := mem_of_lastWith hreceived
    rw [hreceived, List.inj_on_of_nodup_map (nodup_uids hdistinct) hfound huser
      (huid'.trans huid.symm)]

end Lookup

theorem identitiesAre_lookup (people : Search PersonEntry) (groups : Search GroupEntry)
    (hdistinct : (people.entries.filterMap (·.uidNumber)).Nodup) :
    IdentitiesAre (EachListing groups.entries) people.entries
      (lookupIdentitiesInLdap people groups) := by
  intro uid identity
  rw [getElem?_lookupIdentitiesInLdap, Option.map_eq_some_iff]
  simp only [received_eq_some_iff hdistinct]
  constructor
  · rintro ⟨user, ⟨e, he, hdescribes, huid⟩, rfl⟩
    exact ⟨e, he, user, hdescribes, huid, huid, rfl, eachListing_supplementary groups.entries user⟩
  · rintro ⟨e, he, user, hdescribes, huid, huid', hgid, hgroups⟩
    refine ⟨user, ⟨e, he, hdescribes, huid⟩, ?_⟩
    have heq := (eachListing_supplementary groups.entries user).unique hgroups
    rw [identityOf, heq, ← hgid, huid, ← huid']

def examplePeople : Search PersonEntry :=
  ⟨true, [⟨some "mok12345", some 1, some 2⟩, ⟨none, some 5, some 2⟩]⟩

def exampleGroups (name : String) (gid : Int) : Search GroupEntry :=
  ⟨true, [⟨some "sup_group_3", some 3, ["mok12345"]⟩, ⟨some name, some gid, ["mok12345"]⟩]⟩

theorem identitiesAre_lookup_example :
    IdentitiesAre (EachListing (exampleGroups "sup_group_4" 4).entries) examplePeople.entries
      (lookupIdentitiesInLdap examplePeople (exampleGroups "sup_group_4" 4)) :=
  identitiesAre_lookup _ _ (by decide)

/-- Two groups that share an id give it twice, and a group with the id zero is left out. -/
theorem not_identitiesAre_eachOnce :
    (examplePeople.entries.filterMap (·.uidNumber)).Nodup ∧
      ¬ IdentitiesAre (EachOnce (exampleGroups "sup_group_3b" 3).entries) examplePeople.entries
        (lookupIdentitiesInLdap examplePeople (exampleGroups "sup_group_3b" 3)) ∧
      ¬ IdentitiesAre (EachOnce (exampleGroups "root" 0).entries) examplePeople.entries
        (lookupIdentitiesInLdap examplePeople (exampleGroups "root" 0)) := by
  refine ⟨by decide, fun h => ?_, fun h => ?_⟩
  · have hlookup : (lookupIdentitiesInLdap examplePeople
        (exampleGroups "sup_group_3b" 3))[(1 : Int)]? = some ⟨1, 2, [3, 3]⟩ := by decide +kernel
    obtain ⟨-, -, user, -, -, -, -, hgroups⟩ := (h 1 ⟨1, 2, [3, 3]⟩).mp hlookup
    exact absurd hgroups.increasing (by decide)
  · have hlookup : (lookupIdentitiesInLdap examplePeople
        (exampleGroups "root" 0))[(1 : Int)]? = some ⟨1, 2, [3]⟩ := by decide +kernel
    obtain ⟨e, he, user, hdescribes, -, -, hgid, hgroups⟩ := (h 1 ⟨1, 2, [3]⟩).mp hlookup
    have huser : user.username = "mok12345" := by
      have hname := hdescribes.uid
      simp [examplePeople] at he
      rcases he with rfl | rfl
      · exact (Option.some.inj hname).symm
      · cases hname
    have hzero : (0 : Int) ∈ [(3 : Int)] := (hgroups.mem 0).mpr
      ⟨hgid ▸ by decide, ⟨some "root", some 0, ["mok12345"]⟩, by simp [exampleGroups],
        ⟨"root", rfl, by decide⟩, rfl, by simp [huser]⟩
    exact absurd hzero (by decide)

end Workflows.IdentityMapper
