import Workflows.Sessionspaces.Names
import Workflows.Foundations.Multimap

/-!
# Members of a session

A session's members come from three sources: the logins of the session, the logins of its proposal,
and the LDAP groups of its instrument. The rows of the database and the entries of LDAP are folded
into maps of sets, and a session takes its entry of each.
-/

namespace Workflows.Sessionspaces

open Multimap

structure DirectSubjectRow where
  subject : Option String
  session : UInt32

structure ProposalSubjectRow where
  subject : Option String
  proposalId : UInt32

/-- A login that is NULL is nobody's. -/
def addSubject (subjects : Std.TreeMap UInt32 (Finset String)) (key : UInt32)
    (subject : Option String) : Std.TreeMap UInt32 (Finset String) :=
  match subject with
  | some subject => extend subjects key {subject}
  | none => subjects

def DirectSubjects.fetch (rows : List DirectSubjectRow) : DirectSubjects :=
  rows.foldl (fun subjects row => addSubject subjects row.session row.subject) ∅

def ProposalSubjects.fetch (rows : List ProposalSubjectRow) : ProposalSubjects :=
  rows.foldl (fun subjects row => addSubject subjects row.proposalId row.subject) ∅

inductive InstrumentGroup where
  | dasc | b01Staff | b01_1Staff | b07Staff | b16Staff | b18Staff | b21Staff | b22Staff | b23Staff
  | b24Staff | e01Staff | e02Staff | e03Staff | i02_1Staff | i02_2Staff | i03Staff | i04Staff
  | i04_1Staff | i05Staff | i06Staff | i07Staff | i08Staff | i09Staff | i10Staff | i11Staff
  | i12Staff | i13Staff | i14Staff | i15Staff | i15_1Detector | i16Staff | i18Staff | i19Staff
  | i20Staff | i21Staff | i22Staff | i23Staff | i24Staff | k11Staff | labxchemStaff | m01Staff
  | m02Staff | m03Staff | m04Staff | m05Staff | m06Staff | m07Staff | m08Staff | m10Staff
  | m11Staff | m12Staff | m13Staff | m14Staff | p02Staff | p29Staff | p32Staff | p33Staff
  | p38Staff | p45Staff | p51Staff | p99Staff | s01Staff | s02Staff | s03Staff | s04Staff
  deriving DecidableEq

namespace InstrumentGroup

def serialize : InstrumentGroup → String
  | .dasc => "dls_dasc" | .b01Staff => "b01_staff" | .b01_1Staff => "b01-1_staff"
  | .b07Staff => "b07_staff" | .b16Staff => "b16_staff" | .b18Staff => "b18_staff"
  | .b21Staff => "b21_staff" | .b22Staff => "b22_staff" | .b23Staff => "b23_staff"
  | .b24Staff => "b24_staff" | .e01Staff => "e01_staff" | .e02Staff => "e02_staff"
  | .e03Staff => "e03_staff" | .i02_1Staff => "i02-1_staff" | .i02_2Staff => "i02-2_staff"
  | .i03Staff => "i03_staff" | .i04Staff => "i04_staff" | .i04_1Staff => "i04-1_staff"
  | .i05Staff => "i05_staff" | .i06Staff => "i06_staff" | .i07Staff => "i07_staff"
  | .i08Staff => "i08_staff" | .i09Staff => "i09_staff" | .i10Staff => "i10_staff"
  | .i11Staff => "i11_staff" | .i12Staff => "i12_staff" | .i13Staff => "i13_staff"
  | .i14Staff => "i14_staff" | .i15Staff => "i15_staff" | .i15_1Detector => "i15-1detector"
  | .i16Staff => "i16_staff" | .i18Staff => "i18_staff" | .i19Staff => "i19_staff"
  | .i20Staff => "i20_staff" | .i21Staff => "i21_staff" | .i22Staff => "i22_staff"
  | .i23Staff => "i23_staff" | .i24Staff => "i24_staff" | .k11Staff => "k11_staff"
  | .labxchemStaff => "labxchem_staff" | .m01Staff => "m01_staff" | .m02Staff => "m02_staff"
  | .m03Staff => "m03_staff" | .m04Staff => "m04_staff" | .m05Staff => "m05_staff"
  | .m06Staff => "m06_staff" | .m07Staff => "m07_staff" | .m08Staff => "m08_staff"
  | .m10Staff => "m10_staff" | .m11Staff => "m11_staff" | .m12Staff => "m12_staff"
  | .m13Staff => "m13_staff" | .m14Staff => "m14_staff" | .p02Staff => "p02_staff"
  | .p29Staff => "p29_staff" | .p32Staff => "p32_staff" | .p33Staff => "p33_staff"
  | .p38Staff => "p38_staff" | .p45Staff => "p45_staff" | .p51Staff => "p51_staff"
  | .p99Staff => "p99_staff" | .s01Staff => "s01_staff" | .s02Staff => "s02_staff"
  | .s03Staff => "s03_staff" | .s04Staff => "s04_staff"

def variants : List InstrumentGroup :=
  [.dasc, .b01Staff, .b01_1Staff, .b07Staff, .b16Staff, .b18Staff, .b21Staff, .b22Staff,
    .b23Staff, .b24Staff, .e01Staff, .e02Staff, .e03Staff, .i02_1Staff, .i02_2Staff, .i03Staff,
    .i04Staff, .i04_1Staff, .i05Staff, .i06Staff, .i07Staff, .i08Staff, .i09Staff, .i10Staff,
    .i11Staff, .i12Staff, .i13Staff, .i14Staff, .i15Staff, .i15_1Detector, .i16Staff, .i18Staff,
    .i19Staff, .i20Staff, .i21Staff, .i22Staff, .i23Staff, .i24Staff, .k11Staff, .labxchemStaff,
    .m01Staff, .m02Staff, .m03Staff, .m04Staff, .m05Staff, .m06Staff, .m07Staff, .m08Staff,
    .m10Staff, .m11Staff, .m12Staff, .m13Staff, .m14Staff, .p02Staff, .p29Staff, .p32Staff,
    .p33Staff, .p38Staff, .p45Staff, .p51Staff, .p99Staff, .s01Staff, .s02Staff, .s03Staff,
    .s04Staff]

def fromStr (s : String) : Except String InstrumentGroup :=
  match variants.find? (·.serialize = s) with
  | some group => .ok group
  | none => .error "Matching variant not found"

/-- In the order of a `BTreeSet`. -/
def allowedInstruments : InstrumentGroup → List Instrument
  | .dasc => Instrument.iter | .b01Staff => [.b01] | .b01_1Staff => [.b01_1]
  | .b07Staff => [.b07, .b07_1] | .b16Staff => [.b16] | .b18Staff => [.b18] | .b21Staff => [.b21]
  | .b22Staff => [.b22] | .b23Staff => [.b23] | .b24Staff => [.b24, .b24_1] | .e01Staff => [.e01]
  | .e02Staff => [.e02] | .e03Staff => [.e03] | .i02_1Staff => [.i02_1] | .i02_2Staff => [.i02_2]
  | .i03Staff => [.i03] | .i04Staff => [.i04] | .i04_1Staff => [.i04_1]
  | .i05Staff => [.i05, .i05_1] | .i06Staff => [.i06, .i06_1, .i06_2] | .i07Staff => [.i07]
  | .i08Staff => [.i08, .i08_1] | .i09Staff => [.i09, .i09_1, .i09_2] | .i10Staff => [.i10, .i10_1]
  | .i11Staff => [.i11, .i11_1] | .i12Staff => [.i12] | .i13Staff => [.i13, .i13_1]
  | .i14Staff => [.i14] | .i15Staff => [.i15, .i15_1] | .i15_1Detector => [.i15_1]
  | .i16Staff => [.i16] | .i18Staff => [.i18] | .i19Staff => [.i19, .i19_1, .i19_2]
  | .i20Staff => [.i20, .i20_1] | .i21Staff => [.i21] | .i22Staff => [.i22] | .i23Staff => [.i23]
  | .i24Staff => [.i24] | .k11Staff => [.k11] | .labxchemStaff => [.labxchem] | .m01Staff => [.m01]
  | .m02Staff => [.m02] | .m03Staff => [.m03] | .m04Staff => [.m04] | .m05Staff => [.m05]
  | .m06Staff => [.m06] | .m07Staff => [.m07] | .m08Staff => [.m08] | .m10Staff => [.m10]
  | .m11Staff => [.m11] | .m12Staff => [.m12] | .m13Staff => [.m13] | .m14Staff => [.m14]
  | .p02Staff => [.p02] | .p29Staff => [.p29] | .p32Staff => [.p32] | .p33Staff => [.p33]
  | .p38Staff => [.p38] | .p45Staff => [.p45] | .p51Staff => [.p51] | .p99Staff => [.p99]
  | .s01Staff => [.s01] | .s02Staff => [.s02] | .s03Staff => [.s03] | .s04Staff => [.s04]

theorem fromStr_serialize (group : InstrumentGroup) : fromStr group.serialize = .ok group := by
  cases group <;> decide +kernel

theorem allowedInstruments_sorted (group : InstrumentGroup) :
    group.allowedInstruments.Pairwise fun a b => compare a b = .lt := by
  cases group <;> decide +kernel

end InstrumentGroup

def extractInstrument (attrs : Attrs) : Except String (List Instrument) := do
  let cns ← okOr "CN was not present in group" attrs["cn"]?
  let cn ← okOr "CN was not singular" (single cns)
  let instrumentGroup ← InstrumentGroup.fromStr cn
  return instrumentGroup.allowedInstruments

def InstrumentSubjects.add (instrumentSubjects : InstrumentSubjects) (attrs : Attrs) :
    InstrumentSubjects :=
  match extractInstrument attrs, (attrs.erase "cn")["memberUid"]? with
  | .ok instruments, some subjects =>
    instruments.foldl (fun m instrument => extend m instrument subjects.toFinset)
      instrumentSubjects
  | _, _ => instrumentSubjects

def InstrumentSubjects.fetch (entries : List Attrs) : InstrumentSubjects :=
  entries.foldl InstrumentSubjects.add ∅

/-- What the queries and searches of `Sessions::fetch` answer. -/
structure FetchAnswers where
  basicInfo : List BasicInfoRow
  directSubjects : List DirectSubjectRow
  proposalSubjects : List ProposalSubjectRow
  instrumentSubjects : List Attrs
  posixAttributes : List Attrs

def Sessions.fetch (alphanumeric : Alphanumeric) (answers : FetchAnswers) : Sessions :=
  Sessions.new (.fetch answers.proposalSubjects) (.fetch answers.instrumentSubjects)
    (BasicInfo.fetch alphanumeric answers.basicInfo) (.fetch answers.directSubjects)
    (.fetch answers.posixAttributes)

/-- A group with a single name, that of an instrument group. -/
def Allows (attrs : Attrs) (instrument : Instrument) : Prop :=
  ∃ cn group, attrs["cn"]? = some [cn] ∧ InstrumentGroup.fromStr cn = .ok group ∧
    instrument ∈ group.allowedInstruments

def Lists (attrs : Attrs) (user : String) : Prop :=
  ∃ subjects, attrs["memberUid"]? = some subjects ∧ user ∈ subjects

def IsMember (answers : FetchAnswers) (info : BasicInfo) (user : String) : Prop :=
  (∃ row ∈ answers.directSubjects, row.session = info.id ∧ row.subject = some user) ∨
    (∃ row ∈ answers.proposalSubjects, row.proposalId = info.proposalId ∧
      row.subject = some user) ∨
    ∃ attrs ∈ answers.instrumentSubjects, Allows attrs info.instrument ∧ Lists attrs user

section Fetches

theorem mem_addSubject (subjects : Std.TreeMap UInt32 (Finset String)) (key : UInt32)
    (subject : Option String) (k : UInt32) (user : String) :
    user ∈ (addSubject subjects key subject).getD k ∅ ↔
      user ∈ subjects.getD k ∅ ∨ key = k ∧ subject = some user := by
  cases subject with
  | none => simp [addSubject]
  | some subject =>
    rw [addSubject, mem_getD_extend, Finset.mem_singleton, Option.some_inj, eq_comm (a := user)]

theorem mem_directSubjects (rows : List DirectSubjectRow) (session : UInt32) (user : String) :
    user ∈ (DirectSubjects.fetch rows).getD session ∅ ↔
      ∃ row ∈ rows, row.session = session ∧ row.subject = some user := by
  have hfold := mem_getD_foldl
    (fun m (row : DirectSubjectRow) => mem_addSubject m row.session row.subject) rows ∅ session user
  simpa [DirectSubjects.fetch] using hfold

theorem mem_proposalSubjects (rows : List ProposalSubjectRow) (proposalId : UInt32)
    (user : String) :
    user ∈ (ProposalSubjects.fetch rows).getD proposalId ∅ ↔
      ∃ row ∈ rows, row.proposalId = proposalId ∧ row.subject = some user := by
  have hfold := mem_getD_foldl
    (fun m (row : ProposalSubjectRow) => mem_addSubject m row.proposalId row.subject) rows ∅
    proposalId user
  simpa [ProposalSubjects.fetch] using hfold

instance : Std.TransOrd Instrument :=
  inferInstanceAs (Std.TransCmp (compareOn Instrument.ctorIdx))

instance : Std.LawfulEqOrd Instrument where
  eq_of_compare {a b} h := by
    have hindex : a.ctorIdx = b.ctorIdx := Nat.compare_eq_eq.mp h
    rw [← Instrument.ofNat_ctorIdx a, hindex, Instrument.ofNat_ctorIdx]

theorem okOr_eq_ok_iff {α : Type} {message : String} {x : Option α} {a : α} :
    okOr message x = .ok a ↔ x = some a := by
  cases x <;> simp [okOr]

theorem extractInstrument_eq_ok_iff {attrs : Attrs} {instruments : List Instrument} :
    extractInstrument attrs = .ok instruments ↔
      ∃ cn group, attrs["cn"]? = some [cn] ∧ InstrumentGroup.fromStr cn = .ok group ∧
        instruments = group.allowedInstruments := by
  constructor
  · intro h
    obtain ⟨cns, hcns, h⟩ := bind_eq_ok h
    obtain ⟨cn, hcn, h⟩ := bind_eq_ok h
    obtain ⟨group, hgroup, h⟩ := bind_eq_ok h
    rw [okOr_eq_ok_iff] at hcns hcn
    cases h
    exact ⟨cn, group, by rw [hcns, single_eq_some_iff.mp hcn], hgroup, rfl⟩
  · rintro ⟨cn, group, hcn, hgroup, rfl⟩
    simp only [extractInstrument, hcn, okOr, single]
    change (InstrumentGroup.fromStr cn >>= fun group => .ok group.allowedInstruments) = _
    rw [hgroup]
    rfl

theorem mem_add (m : InstrumentSubjects) (attrs : Attrs) (instrument : Instrument)
    (user : String) :
    user ∈ (m.add attrs).getD instrument ∅ ↔
      user ∈ m.getD instrument ∅ ∨ Allows attrs instrument ∧ Lists attrs user := by
  have hcn : (attrs.erase "cn")["memberUid"]? = attrs["memberUid"]? := by
    rw [Std.TreeMap.getElem?_erase]
    rfl
  have hallows : Allows attrs instrument ↔
      ∃ instruments, extractInstrument attrs = .ok instruments ∧ instrument ∈ instruments := by
    simp only [Allows, extractInstrument_eq_ok_iff]
    constructor
    · rintro ⟨cn, group, hcn, hgroup, hmem⟩
      exact ⟨_, ⟨cn, group, hcn, hgroup, rfl⟩, hmem⟩
    · rintro ⟨_, ⟨cn, group, hcn, hgroup, rfl⟩, hmem⟩
      exact ⟨cn, group, hcn, hgroup, hmem⟩
  rw [InstrumentSubjects.add, hcn, hallows, Lists]
  cases hextract : extractInstrument attrs with
  | error message => simp
  | ok instruments =>
    cases hsubjects : attrs["memberUid"]? with
    | none => simp
    | some subjects =>
      have hfold := mem_getD_foldl
        (fun (m : InstrumentSubjects) (i : Instrument) => mem_getD_extend m i subjects.toFinset)
        instruments m instrument user
      simpa using hfold

theorem mem_instrumentSubjects (entries : List Attrs) (instrument : Instrument) (user : String) :
    user ∈ (InstrumentSubjects.fetch entries).getD instrument ∅ ↔
      ∃ attrs ∈ entries, Allows attrs instrument ∧ Lists attrs user := by
  have hfold := mem_getD_foldl mem_add entries ∅ instrument user
  simpa [InstrumentSubjects.fetch] using hfold

end Fetches

section Members

variable {proposalSubjects : ProposalSubjects} {instrumentSubjects : InstrumentSubjects}

def ids (infos : List BasicInfo) : List UInt32 := infos.map (·.id)

theorem ids_concat (infos : List BasicInfo) (info : BasicInfo) :
    ids (infos ++ [info]) = ids infos ++ [info.id] :=
  List.map_append

/-- A session id that a row has used has no subjects any more. -/
theorem directSubjects_run (s : Build) (infos : List BasicInfo) (id : UInt32) :
    (s.run proposalSubjects instrumentSubjects infos).directSubjects.getD id ∅ =
      if id ∈ ids infos then ∅ else s.directSubjects.getD id ∅ := by
  have herase : (s.run proposalSubjects instrumentSubjects infos).directSubjects =
      (ids infos).foldl (·.erase ·) s.directSubjects := by
    rw [ids, List.foldl_map]
    exact (List.foldl_hom Build.directSubjects fun _ _ => rfl).symm
  rw [herase, Std.TreeMap.getD_eq_getD_getElem?, Dictionary.getElem?_foldl_erase,
    Std.TreeMap.getD_eq_getD_getElem?]
  split_ifs <;> rfl

theorem members_new {directSubjects : DirectSubjects} {posixAttributes : SessionPosixAttributes}
    {infos : List BasicInfo} (hids : (ids infos).Nodup) (hnames : (names infos).Nodup)
    {info : BasicInfo} (hinfo : info ∈ infos) :
    ∃ session : Session, (Sessions.new proposalSubjects instrumentSubjects infos directSubjects
        posixAttributes)[info.sessionName]? = some session ∧
      session.members = directSubjects.getD info.id ∅ ∪
        proposalSubjects.getD info.proposalId ∅ ∪ instrumentSubjects.getD info.instrument ∅ := by
  induction infos using List.reverseRecOn with
  | nil => cases hinfo
  | append_singleton infos last ih =>
    obtain ⟨hnew, hrest⟩ := nodup_names_concat.mp hnames
    rw [ids_concat, ← List.concat_eq_append, List.nodup_concat] at hids
    obtain ⟨hfresh, hids⟩ := hids
    rw [Sessions.new, run_concat, Build.add, directSubjects_run, if_neg hfresh]
    simp only [Std.TreeMap.getElem?_insert, Std.LawfulEqCmp.compare_eq_iff_eq]
    rcases List.mem_append.mp hinfo with hinfo | hinfo
    · have hne : last.sessionName ≠ info.sessionName := by
        intro heq
        exact hnew (heq ▸ List.mem_map_of_mem hinfo)
      rw [if_neg hne]
      exact ih hids hrest hinfo
    · obtain rfl := List.mem_singleton.mp hinfo
      exact ⟨_, if_pos rfl, rfl⟩

end Members

/-- Where the accepted sessions have different ids and names, each has an entry, there are no other
entries, and its members are exactly those that the three sources give it. -/
theorem mem_members_fetch (alphanumeric : Alphanumeric) (answers : FetchAnswers)
    (hids : (ids (BasicInfo.fetch alphanumeric answers.basicInfo)).Nodup)
    (hnames : (names (BasicInfo.fetch alphanumeric answers.basicInfo)).Nodup) :
    (∀ name, name ∈ Sessions.fetch alphanumeric answers ↔
      ∃ info ∈ BasicInfo.fetch alphanumeric answers.basicInfo, info.sessionName = name) ∧
      ∀ info ∈ BasicInfo.fetch alphanumeric answers.basicInfo, ∃ session : Session,
        (Sessions.fetch alphanumeric answers)[info.sessionName]? = some session ∧
          ∀ user, user ∈ session.members ↔ IsMember answers info user := by
  constructor
  · intro name
    rw [Sessions.fetch, mem_new, names, List.mem_map]
  · intro info hinfo
    obtain ⟨session, hsession, hmembers⟩ := members_new hids hnames hinfo
    refine ⟨session, hsession, fun user => ?_⟩
    rw [hmembers, Finset.mem_union, Finset.mem_union, mem_directSubjects, mem_proposalSubjects,
      mem_instrumentSubjects, or_assoc, IsMember]

def exampleAnswers : FetchAnswers where
  basicInfo := [exampleRow "cm" "10031" 4]
  directSubjects := [⟨some "enu43627", 43⟩, ⟨none, 43⟩]
  proposalSubjects := []
  instrumentSubjects := [.ofList [("cn", ["i22_staff"]), ("memberUid", ["iat69393"])]]
  posixAttributes := [exampleGroup]

theorem mem_members_fetch_example :
    ∃ session : Session, (Sessions.fetch .ofAscii exampleAnswers)["cm10031-4"]? = some session ∧
      "enu43627" ∈ session.members ∧ "iat69393" ∈ session.members := by
  obtain ⟨-, hmembers⟩ := mem_members_fetch .ofAscii exampleAnswers (by decide +kernel)
    (by decide +kernel)
  obtain ⟨session, hsession, hmembers⟩ := hmembers (exampleInfo 43) (by decide +kernel)
  have hname : (exampleInfo 43).sessionName = "cm10031-4" := by decide +kernel
  rw [hname] at hsession
  refine ⟨session, hsession, (hmembers _).mpr ?_, (hmembers _).mpr ?_⟩
  · exact .inl ⟨⟨some "enu43627", 43⟩, by simp [exampleAnswers], rfl, rfl⟩
  · exact .inr (.inr ⟨_, List.mem_singleton_self _,
      ⟨"i22_staff", .i22Staff, by decide, by decide +kernel, by decide⟩,
      ⟨["iat69393"], by decide, by decide⟩⟩)

end Workflows.Sessionspaces
