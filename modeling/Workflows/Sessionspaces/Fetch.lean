import Workflows.Sessionspaces.BasicInfo
import Workflows.Foundations.Dictionary

/-!
# The sessions that are fetched

`Sessions::new` puts together what was fetched from ISPyB and from LDAP. The group id of a session is
taken out of its map when a row uses it, so it is lost where a later row has the same name.
-/

namespace Workflows.Sessionspaces

open Decimal

structure PosixAttributes where
  gid : UInt32
  deriving DecidableEq

abbrev SessionPosixAttributes := Std.TreeMap String PosixAttributes

/-- The attributes of a search entry. -/
abbrev Attrs := Std.TreeMap String (List String)

def single {α : Type} : List α → Option α
  | [a] => some a
  | _ => none

def replaceUnderscores (s : String) : String :=
  .ofList (s.toList.map fun c => if c = '_' then '-' else c)

/-- What an entry adds to the map. -/
def sessionGroup (attrs : Attrs) : Option (String × PosixAttributes) := do
  let gids ← attrs["gidNumber"]?
  let gid ← single gids
  let gid ← (parseU32 gid.toList).toOption
  let names ← (attrs.erase "gidNumber")["cn"]?
  let sessionName ← single names
  some (replaceUnderscores sessionName, ⟨gid⟩)

def SessionPosixAttributes.add (posixAttributes : SessionPosixAttributes) (attrs : Attrs) :
    SessionPosixAttributes :=
  match sessionGroup attrs with
  | some (name, attributes) => posixAttributes.insert name attributes
  | none => posixAttributes

def SessionPosixAttributes.fetch (entries : List Attrs) : SessionPosixAttributes :=
  entries.foldl SessionPosixAttributes.add ∅

deriving instance Ord for Instrument

abbrev DirectSubjects := Std.TreeMap UInt32 (Finset String)
abbrev ProposalSubjects := Std.TreeMap UInt32 (Finset String)
abbrev InstrumentSubjects := Std.TreeMap Instrument (Finset String)

/-- The sessions so far, and what is left of the maps that rows take from. -/
structure Build where
  sessions : Sessions
  directSubjects : DirectSubjects
  posixAttributes : SessionPosixAttributes

section New

variable (proposalSubjects : ProposalSubjects) (instrumentSubjects : InstrumentSubjects)

def Build.add (s : Build) (session : BasicInfo) : Build :=
  let members := s.directSubjects.getD session.id ∅ ∪
    proposalSubjects.getD session.proposalId ∅ ∪ instrumentSubjects.getD session.instrument ∅
  { sessions := s.sessions.insert session.sessionName
      { proposalCode := session.proposalCode
        proposalNumber := session.proposalNumber
        visit := session.visit
        instrument := session.instrument
        members := members
        gid := s.posixAttributes[session.sessionName]?.map (·.gid)
        startDate := session.startDate
        endDate := session.endDate
        dataDirectory := none }
    directSubjects := s.directSubjects.erase session.id
    posixAttributes := s.posixAttributes.erase session.sessionName }

def Build.run (s : Build) (basicInfo : List BasicInfo) : Build :=
  basicInfo.foldl (Build.add proposalSubjects instrumentSubjects) s

def Sessions.new (basicInfo : List BasicInfo) (directSubjects : DirectSubjects)
    (posixAttributes : SessionPosixAttributes) : Sessions :=
  (Build.run proposalSubjects instrumentSubjects ⟨∅, directSubjects, posixAttributes⟩
    basicInfo).sessions

end New

def names (basicInfo : List BasicInfo) : List String := basicInfo.map (·.sessionName)

section Groups

variable {name : String} {gid : UInt32} {attrs : Attrs} {entries : List Attrs}

/-- A group with a single numeric id whose single name is that of a session. -/
def IsGroup (name : String) (gid : UInt32) (attrs : Attrs) : Prop :=
  ∃ number cn, attrs["gidNumber"]? = some [number] ∧ parseU32 number.toList = .ok gid ∧
    attrs["cn"]? = some [cn] ∧ replaceUnderscores cn = name

/-- The last group of a name in the answer. -/
def LastGroup (name : String) (gid : UInt32) (entries : List Attrs) : Prop :=
  ∃ before attrs after, entries = before ++ attrs :: after ∧ IsGroup name gid attrs ∧
    ∀ other ∈ after, ∀ gid, ¬ IsGroup name gid other

theorem single_eq_some_iff {α : Type} {xs : List α} {a : α} : single xs = some a ↔ xs = [a] := by
  match xs with
  | [] => simp [single]
  | [b] => simp [single]
  | b :: c :: rest => simp [single]

theorem toOption_eq_some_iff {α ε : Type} {x : Except ε α} {a : α} :
    x.toOption = some a ↔ x = .ok a := by
  cases x <;> simp [Except.toOption]

theorem sessionGroup_eq_some_iff :
    sessionGroup attrs = some (name, ⟨gid⟩) ↔ IsGroup name gid attrs := by
  have hcn : (attrs.erase "gidNumber")["cn"]? = attrs["cn"]? := by
    rw [Std.TreeMap.getElem?_erase]
    rfl
  simp only [sessionGroup, Option.bind_eq_bind, Option.bind_eq_some_iff, hcn, single_eq_some_iff,
    toOption_eq_some_iff, IsGroup]
  constructor
  · rintro ⟨_, hgids, number, rfl, gid', hgid, _, hnames, cn, rfl, h⟩
    cases h
    exact ⟨number, cn, hgids, hgid, hnames, rfl⟩
  · rintro ⟨number, cn, hgids, hgid, hnames, rfl⟩
    exact ⟨_, hgids, number, rfl, gid, hgid, _, hnames, cn, rfl, rfl⟩

theorem lastGroup_concat :
    LastGroup name gid (entries ++ [attrs]) ↔
      IsGroup name gid attrs ∨ LastGroup name gid entries ∧ ∀ gid, ¬ IsGroup name gid attrs := by
  constructor
  · rintro ⟨before, found, after, heq, hgroup, hafter⟩
    rcases List.eq_nil_or_concat after with rfl | ⟨rest, last, rfl⟩
    · obtain ⟨-, hlast⟩ := List.append_inj' heq rfl
      cases hlast
      exact .inl hgroup
    · rw [List.concat_eq_append, ← List.cons_append, ← List.append_assoc] at heq
      obtain ⟨rfl, hlast⟩ := List.append_inj' heq rfl
      cases hlast
      rw [List.concat_eq_append] at hafter
      refine .inr ⟨⟨before, found, rest, rfl, hgroup, ?_⟩, ?_⟩
      · intro other hother
        exact hafter other (List.mem_append_left _ hother)
      · exact hafter attrs List.mem_concat_self
  · rintro (hgroup | ⟨⟨before, found, after, rfl, hgroup, hafter⟩, hnone⟩)
    · exact ⟨entries, attrs, [], rfl, hgroup, by simp⟩
    · refine ⟨before, found, after ++ [attrs], by simp, hgroup, ?_⟩
      intro other hother
      rcases List.mem_append.mp hother with hother | hother
      · exact hafter other hother
      · rw [List.mem_singleton.mp hother]
        exact hnone

theorem getElem?_fetch (entries : List Attrs) (name : String) (gid : UInt32) :
    (SessionPosixAttributes.fetch entries)[name]? = some ⟨gid⟩ ↔ LastGroup name gid entries := by
  induction entries using List.reverseRecOn with
  | nil => simp [SessionPosixAttributes.fetch, LastGroup]
  | append_singleton entries attrs ih =>
    have hlast : SessionPosixAttributes.fetch (entries ++ [attrs]) =
        (SessionPosixAttributes.fetch entries).add attrs := List.foldl_concat ..
    rw [lastGroup_concat, ← ih, hlast, SessionPosixAttributes.add]
    simp only [← sessionGroup_eq_some_iff]
    cases hgroup : sessionGroup attrs with
    | none => simp
    | some found =>
      obtain ⟨other, ⟨number⟩⟩ := found
      simp only [Std.TreeMap.getElem?_insert, Std.LawfulEqCmp.compare_eq_iff_eq]
      rcases eq_or_ne other name with rfl | hne
      · simp
      · simp [hne]

theorem exists_isGroup_of_lastGroup (h : LastGroup name gid entries) :
    ∃ attrs ∈ entries, ∃ gid, IsGroup name gid attrs := by
  obtain ⟨before, attrs, after, rfl, hgroup, -⟩ := h
  exact ⟨attrs, by simp, gid, hgroup⟩

theorem exists_lastGroup (h : ∃ attrs ∈ entries, ∃ gid, IsGroup name gid attrs) :
    ∃ gid, LastGroup name gid entries := by
  induction entries using List.reverseRecOn with
  | nil =>
    obtain ⟨attrs, hattrs, -⟩ := h
    cases hattrs
  | append_singleton entries last ih =>
    by_cases hlast : ∃ gid, IsGroup name gid last
    · obtain ⟨gid, hgroup⟩ := hlast
      exact ⟨gid, lastGroup_concat.mpr (.inl hgroup)⟩
    · obtain ⟨attrs, hattrs, gid, hgroup⟩ := h
      rcases List.mem_append.mp hattrs with hattrs | hattrs
      · obtain ⟨gid, hfound⟩ := ih ⟨attrs, hattrs, gid, hgroup⟩
        exact ⟨gid, lastGroup_concat.mpr (.inr ⟨hfound, not_exists.mp hlast⟩)⟩
      · rw [List.mem_singleton.mp hattrs] at hgroup
        exact absurd ⟨gid, hgroup⟩ hlast

end Groups

section Build

variable {proposalSubjects : ProposalSubjects} {instrumentSubjects : InstrumentSubjects}

theorem run_concat (s : Build) (infos : List BasicInfo) (info : BasicInfo) :
    s.run proposalSubjects instrumentSubjects (infos ++ [info]) =
      (s.run proposalSubjects instrumentSubjects infos).add proposalSubjects instrumentSubjects
        info :=
  List.foldl_concat ..

theorem names_concat (infos : List BasicInfo) (info : BasicInfo) :
    names (infos ++ [info]) = names infos ++ [info.sessionName] :=
  List.map_append

/-- A name that a row has used has no group any more. -/
theorem posixAttributes_run (s : Build) (infos : List BasicInfo) (name : String) :
    (s.run proposalSubjects instrumentSubjects infos).posixAttributes[name]? =
      if name ∈ names infos then none else s.posixAttributes[name]? := by
  have herase : (s.run proposalSubjects instrumentSubjects infos).posixAttributes =
      (names infos).foldl (·.erase ·) s.posixAttributes := by
    rw [names, List.foldl_map]
    exact (List.foldl_hom Build.posixAttributes fun _ _ => rfl).symm
  rw [herase, Dictionary.getElem?_foldl_erase]

theorem gid_run (s : Build) (infos : List BasicInfo) (name : String) :
    ((s.run proposalSubjects instrumentSubjects infos).sessions[name]?).map (·.gid) =
      if name ∈ names infos then
        some (if (names infos).count name = 1 then s.posixAttributes[name]?.map (·.gid) else none)
      else s.sessions[name]?.map (·.gid) := by
  induction infos using List.reverseRecOn with
  | nil => rfl
  | append_singleton infos info ih =>
    rw [run_concat, names_concat, Build.add]
    simp only [Std.TreeMap.getElem?_insert, Std.LawfulEqCmp.compare_eq_iff_eq, List.mem_append,
      List.mem_singleton, posixAttributes_run, List.count_append, List.count_singleton]
    rcases eq_or_ne info.sessionName name with rfl | hne
    · by_cases hused : info.sessionName ∈ names infos
      · have hcount : (names infos).count info.sessionName ≠ 0 :=
          (List.count_pos_iff.mpr hused).ne'
        simp [hused, hcount]
      · simp [hused, List.count_eq_zero.mpr hused]
    · simp [hne, hne.symm, ih]

theorem gid_new (proposalSubjects : ProposalSubjects) (instrumentSubjects : InstrumentSubjects)
    (infos : List BasicInfo) (directSubjects : DirectSubjects)
    (posixAttributes : SessionPosixAttributes) (name : String) :
    ((Sessions.new proposalSubjects instrumentSubjects infos directSubjects
        posixAttributes)[name]?).map (·.gid) =
      if name ∈ names infos then
        some (if (names infos).count name = 1 then posixAttributes[name]?.map (·.gid) else none)
      else none := by
  rw [Sessions.new, gid_run]
  simp

end Build

/-- Every entry has the id of the last group of its name, and none where there is no such group. -/
def KeepsGid (infos : List BasicInfo) (entries : List Attrs) : Prop :=
  ∀ (proposalSubjects : ProposalSubjects) (instrumentSubjects : InstrumentSubjects)
    (directSubjects : DirectSubjects) (name : String) (session : Session),
    (Sessions.new proposalSubjects instrumentSubjects infos directSubjects
        (.fetch entries))[name]? = some session →
      ∀ gid, session.gid = some gid ↔ LastGroup name gid entries

theorem not_keepsGid {infos : List BasicInfo} {entries : List Attrs} {name : String} {gid : UInt32}
    (hlast : LastGroup name gid entries) (hcount : 1 < (names infos).count name) :
    ¬ KeepsGid infos entries := by
  intro hkeeps
  have hused : name ∈ names infos := List.count_pos_iff.mp (by omega)
  have hgid := gid_new ∅ ∅ infos ∅ (.fetch entries) name
  rw [if_pos hused, if_neg (by omega)] at hgid
  obtain ⟨session, hsession, hnone⟩ := Option.map_eq_some_iff.mp hgid
  have hsome := (hkeeps ∅ ∅ ∅ name session hsession gid).mpr hlast
  rw [hnone] at hsome
  cases hsome

/-- The group ids are kept exactly where no name that has a group occurs twice. -/
theorem keepsGid_iff (infos : List BasicInfo) (entries : List Attrs) :
    KeepsGid infos entries ↔
      ∀ name, (∃ attrs ∈ entries, ∃ gid, IsGroup name gid attrs) →
        (names infos).count name ≤ 1 := by
  constructor
  · intro hkeeps name hgroup
    obtain ⟨gid, hlast⟩ := exists_lastGroup hgroup
    by_contra hcount
    exact not_keepsGid hlast (by omega) hkeeps
  · intro honce proposalSubjects instrumentSubjects directSubjects name session hsession gid
    have hgid := gid_new proposalSubjects instrumentSubjects infos directSubjects (.fetch entries)
      name
    rw [hsession] at hgid
    split_ifs at hgid with hused hcount
    · have hvalue : session.gid = _ := Option.some.inj hgid
      rw [hvalue, ← getElem?_fetch, Option.map_eq_some_iff]
      constructor
      · rintro ⟨attributes, hfound, rfl⟩
        exact hfound
      · intro hfound
        exact ⟨_, hfound, rfl⟩
    · have hvalue : session.gid = none := Option.some.inj hgid
      rw [hvalue]
      refine iff_of_false (by simp) fun hlast => ?_
      have hle := honce name (exists_isGroup_of_lastGroup hlast)
      have hpos := List.count_pos_iff.mpr hused
      omega
    · cases hgid

def exampleInfo (id : UInt32) : BasicInfo where
  id := id
  proposalId := 31
  proposalCode := "cm"
  proposalNumber := 10031
  visit := 4
  instrument := .i22
  startDate := ⟨2011, 1, 19, 0, 0, 0, 0⟩
  endDate := ⟨2011, 1, 19, 0, 0, 0, 0⟩

def exampleGroup : Attrs :=
  .ofList [("cn", ["cm10031_4"]), ("gidNumber", ["161025"])]

/-- A second row of the same name takes the place of the first, without its group id. -/
theorem gid_lost : ¬ KeepsGid [exampleInfo 43, exampleInfo 44] [exampleGroup] := by
  have hgroup : IsGroup "cm10031-4" 161025 exampleGroup :=
    ⟨"161025", "cm10031_4", by decide, by decide, by decide, by decide⟩
  exact not_keepsGid ⟨[], exampleGroup, [], rfl, hgroup, by simp⟩ (by decide)

end Workflows.Sessionspaces
