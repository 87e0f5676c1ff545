import Workflows.Foundations.Dictionary

/-!
# The two lookups of the identity mapper

`lookup_identities_in_ldap` and `lookup_identities_in_kubernetes`. A search of the directory leaves
in `entries` what it received and returns whether it completed, which the lookup ignores.
-/

namespace Workflows.IdentityMapper

open Dictionary

structure Identity where
  uid : Int
  gid : Int
  supplementalGroups : List Int
  deriving DecidableEq

/-- A `posixAccount` entry. An attribute without a value is `none`. -/
structure PersonEntry where
  uid : Option String
  uidNumber : Option Int
  gidNumber : Option Int
  deriving DecidableEq

structure GroupEntry where
  cn : Option String
  gidNumber : Option Int
  memberUid : List String
  deriving DecidableEq

structure Search (α : Type) where
  complete : Bool
  entries : List α
  deriving DecidableEq

structure User where
  uid : Int
  username : String
  gid : Int
  deriving DecidableEq

structure Group where
  name : String
  gid : Int
  deriving DecidableEq

/-- The entry is skipped where one of its values is missing, empty or zero. -/
def PersonEntry.user? (e : PersonEntry) : Option User :=
  match e.uid, e.uidNumber, e.gidNumber with
  | some username, some uid, some gid =>
    if username ≠ "" ∧ uid ≠ 0 ∧ gid ≠ 0 then some { uid, username, gid } else none
  | _, _, _ => none

def GroupEntry.group? (e : GroupEntry) : Option Group :=
  match e.cn, e.gidNumber with
  | some name, some gid => if name ≠ "" ∧ gid ≠ 0 then some { name, gid } else none
  | _, _ => none

section Ldap

def addMembers (userToGroups : Std.TreeMap String (List Group)) (e : GroupEntry) :
    Std.TreeMap String (List Group) :=
  match e.group? with
  | none => userToGroups
  | some group => e.memberUid.foldl (fun d m => d.modify m (· ++ [group])) userToGroups

def supplementary (user : User) (groups : List Group) : List Int :=
  ((groups.map Group.gid).filter (· ≠ user.gid)).insertionSort (· ≤ ·)

def lookupIdentitiesInLdap (people : Search PersonEntry) (groups : Search GroupEntry) :
    Std.TreeMap Int Identity :=
  let users := people.entries.filterMap PersonEntry.user?
  if users.isEmpty then ∅
  else
    let userToGroups := groups.entries.foldl addMembers (dictOf User.username (fun _ => []) users)
    dictOf User.uid (fun user =>
      { uid := user.uid
        gid := user.gid
        supplementalGroups := supplementary user (userToGroups.getD user.username []) }) users

/-- The groups that list the name, each as often as they do. -/
def memberships (groups : List GroupEntry) (username : String) : List Group :=
  groups.flatMap fun e =>
    match e.group? with
    | none => []
    | some group => (e.memberUid.filter (· = username)).map fun _ => group

theorem getElem?_foldl_modify (members : List String) (group : Group)
    (d : Std.TreeMap String (List Group)) (name : String) :
    (members.foldl (fun d m => d.modify m (· ++ [group])) d)[name]? =
      d[name]?.map (· ++ (members.filter (· = name)).map fun _ => group) := by
  induction members generalizing d with
  | nil => simp
  | cons m members ih =>
    rw [List.foldl_cons, ih, Std.TreeMap.getElem?_modify]
    rcases eq_or_ne m name with rfl | h
    · cases d[m]? <;> simp
    · cases d[name]? <;> simp [h, Std.LawfulEqCmp.compare_eq_iff_eq]

theorem getElem?_foldl_addMembers (groups : List GroupEntry) (d : Std.TreeMap String (List Group))
    (name : String) :
    (groups.foldl addMembers d)[name]? = d[name]?.map (· ++ memberships groups name) := by
  induction groups generalizing d with
  | nil => simp [memberships]
  | cons e groups ih =>
    rw [List.foldl_cons, ih, addMembers]
    cases hgroup : e.group? with
    | none => simp [memberships, hgroup]
    | some group =>
      rw [getElem?_foldl_modify, Option.map_map]
      simp [memberships, hgroup, Function.comp_def]

/-- The last usable entry with the uid, among the entries received. -/
def received (people : List PersonEntry) (uid : Int) : Option User :=
  lastWith User.uid uid (people.filterMap PersonEntry.user?)

def identityOf (groups : List GroupEntry) (user : User) : Identity where
  uid := user.uid
  gid := user.gid
  supplementalGroups := supplementary user (memberships groups user.username)

theorem getElem?_lookupIdentitiesInLdap (people : Search PersonEntry) (groups : Search GroupEntry)
    (uid : Int) :
    (lookupIdentitiesInLdap people groups)[uid]? =
      (received people.entries uid).map (identityOf groups.entries) := by
  simp only [lookupIdentitiesInLdap, received]
  generalize people.entries.filterMap PersonEntry.user? = users
  by_cases hempty : users.isEmpty
  · rw [List.isEmpty_iff.mp hempty]
    simp [lastWith]
  · rw [if_neg hempty, getElem?_dictOf]
    cases hlast : lastWith User.uid uid users with
    | none => rfl
    | some user =>
      obtain ⟨hmem, -⟩ := mem_of_lastWith hlast
      have hname : (lastWith User.username user.username users).isSome :=
        lastWith_isSome_iff.mpr ⟨user, hmem, rfl⟩
      have hgroups : (groups.entries.foldl addMembers
          (dictOf User.username (fun _ => []) users))[user.username]? =
          some (memberships groups.entries user.username) := by
        rw [getElem?_foldl_addMembers, getElem?_dictOf]
        obtain ⟨last, hlast'⟩ := Option.isSome_iff_exists.mp hname
        simp [hlast']
      simp [identityOf, Std.TreeMap.getD_eq_getD_getElem?, hgroups]

end Ldap

/-- A `UserIdentity` object. Its schema requires none of the fields of its spec. -/
structure UserIdentity where
  name : String
  uid : Option Int
  gid : Option Int
  supplementalGroups : Option (List Int)
  deriving DecidableEq

namespace UserIdentity

def groups (o : UserIdentity) : List Int := o.supplementalGroups.getD []

def identity? (o : UserIdentity) : Option Identity :=
  match o.uid, o.gid with
  | some uid, some gid => some { uid, gid, supplementalGroups := o.groups }
  | _, _ => none

end UserIdentity

def lookupIdentitiesInKubernetes (items : List UserIdentity) : Option (Std.TreeMap Int Identity) :=
  (items.mapM UserIdentity.identity?).map fun identities => dictOf Identity.uid id identities

end Workflows.IdentityMapper
