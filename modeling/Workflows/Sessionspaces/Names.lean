import Workflows.Sessionspaces.Fetch
import Workflows.Foundations.Separator

/-!
# Names of namespaces

A name is a proposal code, a proposal number and a visit number, with a hyphen before the last. It
tells them apart, and is one that Kubernetes takes, as far as the code allows it: of the code only
the first letter is checked.
-/

namespace Workflows.Sessionspaces

open Decimal

/-- What tells sessions apart. -/
def BasicInfo.key (info : BasicInfo) : String × UInt32 × UInt32 :=
  (info.proposalCode, info.proposalNumber, info.visit)

/-- The code of `b` is that of `a` with the first digits of the number of `a` behind it, and the
number of `b` is the rest of them. -/
def Confusable (a b : BasicInfo) : Prop :=
  a.visit = b.visit ∧ ∃ digits, digits ≠ [] ∧
    b.proposalCode.toList = a.proposalCode.toList ++ digits ∧
    printU32 a.proposalNumber = digits ++ printU32 b.proposalNumber

/-- A label as Kubernetes takes it for the name of a namespace. -/
structure LegalNamespace (name : List Char) : Prop where
  length : name.length ≤ 63
  letters : ∀ c ∈ name, c.isLower ∨ c.isDigit ∨ c = '-'
  first : ∃ c ∈ name.head?, c.isLower ∨ c.isDigit
  last : ∃ c ∈ name.getLast?, c.isLower ∨ c.isDigit

def Session.Describes (session : Session) (info : BasicInfo) : Prop :=
  session.proposalCode = info.proposalCode ∧ session.proposalNumber = info.proposalNumber ∧
    session.visit = info.visit ∧ session.instrument = info.instrument ∧
    session.startDate = info.startDate ∧ session.endDate = info.endDate

/-- The sessions have different names, and the map has one entry for each, which is its own. -/
structure KeptApart (infos : List BasicInfo) : Prop where
  names : infos.Pairwise fun a b => a.sessionName ≠ b.sessionName
  size : ∀ proposalSubjects instrumentSubjects directSubjects posixAttributes,
    (Sessions.new proposalSubjects instrumentSubjects infos directSubjects
      posixAttributes).size = infos.length
  entries : ∀ proposalSubjects instrumentSubjects directSubjects posixAttributes, ∀ info ∈ infos,
    ∃ session : Session, (Sessions.new proposalSubjects instrumentSubjects infos directSubjects
      posixAttributes)[info.sessionName]? = some session ∧ session.Describes info

section Names

variable {a b : BasicInfo}

theorem hyphen_notMem_printU32 (n : UInt32) : '-' ∉ printU32 n := by
  intro h
  exact absurd (isDigit_of_mem_printU32 h) (by decide)

theorem sessionName_eq_iff_append :
    a.sessionName = b.sessionName ↔
      a.proposalCode.toList ++ printU32 a.proposalNumber =
          b.proposalCode.toList ++ printU32 b.proposalNumber ∧
        a.visit = b.visit := by
  rw [← String.toList_inj, toList_sessionName, toList_sessionName, ← List.append_assoc,
    ← List.append_assoc]
  constructor
  · intro h
    obtain ⟨hrest, hvisit⟩ := Separator.append_inj_last (hyphen_notMem_printU32 a.visit)
      (hyphen_notMem_printU32 b.visit) h
    exact ⟨hrest, printU32_injective hvisit⟩
  · rintro ⟨hrest, hvisit⟩
    rw [hrest, hvisit]

theorem sessionName_eq_iff :
    a.sessionName = b.sessionName ↔ a.key = b.key ∨ Confusable a b ∨ Confusable b a := by
  rw [sessionName_eq_iff_append, List.append_eq_append_iff]
  constructor
  · rintro ⟨⟨digits, hcode, hnumber⟩ | ⟨digits, hcode, hnumber⟩, hvisit⟩
    · rcases eq_or_ne digits [] with rfl | hne
      · rw [List.append_nil, String.toList_inj] at hcode
        exact .inl (Prod.ext hcode.symm (Prod.ext (printU32_injective hnumber) hvisit))
      · exact .inr (.inl ⟨hvisit, digits, hne, hcode, hnumber⟩)
    · rcases eq_or_ne digits [] with rfl | hne
      · rw [List.append_nil, String.toList_inj] at hcode
        exact .inl (Prod.ext hcode (Prod.ext (printU32_injective hnumber.symm) hvisit))
      · exact .inr (.inr ⟨hvisit.symm, digits, hne, hcode, hnumber⟩)
  · rintro (hkey | ⟨hvisit, digits, -, hcode, hnumber⟩ | ⟨hvisit, digits, -, hcode, hnumber⟩)
    · obtain ⟨hcode, hrest⟩ := Prod.mk.inj hkey
      obtain ⟨hnumber, hvisit⟩ := Prod.mk.inj hrest
      exact ⟨.inl ⟨[], by rw [hcode, List.append_nil], by rw [hnumber, List.nil_append]⟩, hvisit⟩
    · exact ⟨.inl ⟨digits, hcode, hnumber⟩, hvisit⟩
    · exact ⟨.inr ⟨digits, hcode, hnumber⟩, hvisit.symm⟩

end Names

section Entries

variable {infos : List BasicInfo} {proposalSubjects : ProposalSubjects}
  {instrumentSubjects : InstrumentSubjects} {directSubjects : DirectSubjects}
  {posixAttributes : SessionPosixAttributes}

theorem mem_new {name : String} :
    name ∈ Sessions.new proposalSubjects instrumentSubjects infos directSubjects posixAttributes ↔
      name ∈ names infos := by
  have hgid := congrArg Option.isSome
    (gid_new proposalSubjects instrumentSubjects infos directSubjects posixAttributes name)
  rw [Option.isSome_map] at hgid
  rw [Std.TreeMap.mem_iff_isSome_getElem?, hgid]
  by_cases hused : name ∈ names infos
  · rw [if_pos hused]
    exact iff_of_true rfl hused
  · rw [if_neg hused]
    exact iff_of_false Bool.false_ne_true hused

theorem new_concat (infos : List BasicInfo) (info : BasicInfo) :
    ∃ session : Session, session.Describes info ∧
      Sessions.new proposalSubjects instrumentSubjects (infos ++ [info]) directSubjects
          posixAttributes =
        (Sessions.new proposalSubjects instrumentSubjects infos directSubjects
          posixAttributes).insert info.sessionName session := by
  rw [Sessions.new, run_concat]
  exact ⟨_, ⟨rfl, rfl, rfl, rfl, rfl, rfl⟩, rfl⟩

theorem nodup_names_concat {info : BasicInfo} :
    (names (infos ++ [info])).Nodup ↔ info.sessionName ∉ names infos ∧ (names infos).Nodup := by
  rw [names_concat, ← List.concat_eq_append, List.nodup_concat]

theorem size_new (h : (names infos).Nodup) :
    (Sessions.new proposalSubjects instrumentSubjects infos directSubjects
      posixAttributes).size = infos.length := by
  induction infos using List.reverseRecOn with
  | nil => rfl
  | append_singleton infos info ih =>
    obtain ⟨hnew, hrest⟩ := nodup_names_concat.mp h
    obtain ⟨session, -, hconcat⟩ := new_concat infos info
    rw [hconcat, Std.TreeMap.size_insert, if_neg, ih hrest, List.length_append,
      List.length_singleton]
    exact mt mem_new.mp hnew

theorem entry_new (h : (names infos).Nodup) {info : BasicInfo} (hinfo : info ∈ infos) :
    ∃ session : Session, (Sessions.new proposalSubjects instrumentSubjects infos directSubjects
      posixAttributes)[info.sessionName]? = some session ∧ session.Describes info := by
  induction infos using List.reverseRecOn with
  | nil => cases hinfo
  | append_singleton infos last ih =>
    obtain ⟨hnew, hrest⟩ := nodup_names_concat.mp h
    obtain ⟨session, hsession, hconcat⟩ := new_concat infos last
    rw [hconcat]
    rcases List.mem_append.mp hinfo with hinfo | hinfo
    · have hne : last.sessionName ≠ info.sessionName := by
        intro heq
        exact hnew (heq ▸ List.mem_map_of_mem hinfo)
      obtain ⟨own, hown, hdescribes⟩ := ih hrest hinfo
      refine ⟨own, ?_, hdescribes⟩
      rw [Std.TreeMap.getElem?_insert, if_neg (by simpa using hne), hown]
    · obtain rfl := List.mem_singleton.mp hinfo
      exact ⟨session, Std.TreeMap.getElem?_insert_self, hsession⟩

theorem keptApart_iff_nodup : KeptApart infos ↔ (names infos).Nodup := by
  constructor
  · intro h
    exact List.pairwise_map.mpr h.names
  · intro h
    exact
      { names := List.pairwise_map.mp h
        size := fun _ _ _ _ => size_new h
        entries := fun _ _ _ _ _ hinfo => entry_new h hinfo }

end Entries

theorem not_confusable_self (a : BasicInfo) : ¬ Confusable a a := by
  rintro ⟨-, digits, hne, hcode, -⟩
  exact hne (List.append_cancel_left (hcode.symm.trans (List.append_nil _).symm))

/-- Sessions that differ are kept apart exactly where no code continues another with the digits of
its number. -/
theorem keptApart_iff (alphanumeric : Alphanumeric) (rows : List BasicInfoRow)
    (hdistinct : (BasicInfo.fetch alphanumeric rows).Pairwise fun a b => a.key ≠ b.key) :
    KeptApart (BasicInfo.fetch alphanumeric rows) ↔
      ∀ a ∈ BasicInfo.fetch alphanumeric rows, ∀ b ∈ BasicInfo.fetch alphanumeric rows,
        ¬ Confusable a b := by
  rw [keptApart_iff_nodup]
  constructor
  · intro hnodup a ha b hb hconfusable
    have hname : a.sessionName = b.sessionName := sessionName_eq_iff.mpr (.inr (.inl hconfusable))
    obtain rfl := List.inj_on_of_nodup_map hnodup ha hb hname
    exact not_confusable_self a hconfusable
  · intro hnone
    rw [names, List.Nodup, List.pairwise_map]
    apply hdistinct.imp_of_mem
    intro a b ha hb hkey hname
    rcases sessionName_eq_iff.mp hname with heq | hconfusable | hconfusable
    · exact hkey heq
    · exact hnone a ha b hb hconfusable
    · exact hnone b hb a ha hconfusable

def exampleRow (code number : String) (visit : UInt32) : BasicInfoRow where
  id := 43
  proposalId := 31
  proposalCode := some code
  proposalNumber := some number
  visit := some visit
  instrument := some "i22"
  startDate := some ⟨2011, 1, 19, 0, 0, 0, 0⟩
  endDate := some ⟨2011, 1, 19, 0, 0, 0, 0⟩

theorem keptApart_iff_example :
    KeptApart (BasicInfo.fetch .ofAscii [exampleRow "cm" "10031" 4, exampleRow "cm" "10031" 5]) := by
  apply (keptApart_iff .ofAscii _ (by decide +kernel)).mpr
  have hvisit : ∀ a ∈ BasicInfo.fetch .ofAscii [exampleRow "cm" "10031" 4, exampleRow "cm" "10031" 5],
      a.proposalCode = "cm" := by decide +kernel
  rintro a ha b hb ⟨-, digits, hne, hcode, -⟩
  rw [hvisit a ha, hvisit b hb] at hcode
  exact hne (List.append_cancel_left (hcode.symm.trans (List.append_nil _).symm))

/-- Both names are "cm123-1". -/
theorem not_keptApart :
    (BasicInfo.fetch .ofAscii [exampleRow "cm1" "23" 1, exampleRow "cm12" "3" 1]).Pairwise
        (fun a b => a.key ≠ b.key) ∧
      ¬ KeptApart (BasicInfo.fetch .ofAscii [exampleRow "cm1" "23" 1, exampleRow "cm12" "3" 1]) := by
  constructor
  · decide +kernel
  · intro h
    rw [keptApart_iff_nodup] at h
    revert h
    decide +kernel

section Legal

variable {alphanumeric : Alphanumeric} {info : BasicInfo}

theorem not_isAlphanumeric_hyphen (alphanumeric : Alphanumeric) :
    alphanumeric.isAlphanumeric '-' = false :=
  alphanumeric.ascii '-' (by decide)

theorem exists_getLast?_printU32 (n : UInt32) :
    ∃ c ∈ (printU32 n).getLast?, c.isDigit := by
  have hlast := List.getLast?_eq_some_getLast (printU32_ne_nil n)
  exact ⟨_, hlast, isDigit_of_mem_printU32 (List.getLast_mem _)⟩

theorem getLast?_sessionName {c : Char} (h : c ∈ (printU32 info.visit).getLast?) :
    c ∈ info.sessionName.toList.getLast? := by
  rw [toList_sessionName]
  simp [List.getLast?_cons, Option.mem_def.mp h]

theorem length_sessionName (info : BasicInfo) :
    info.sessionName.toList.length = info.proposalCode.length +
      (printU32 info.proposalNumber).length + 1 + (printU32 info.visit).length := by
  rw [toList_sessionName, List.length_append, List.length_append, List.length_cons,
    String.length_toList]
  omega

theorem letters_sessionName
    (h : ∀ c ∈ info.proposalCode.toList, c.isLower ∨ c.isDigit ∨ c = '-') :
    ∀ c ∈ info.sessionName.toList, c.isLower ∨ c.isDigit ∨ c = '-' := by
  intro c hc
  rw [toList_sessionName] at hc
  rcases List.mem_append.mp hc with hcode | hc
  · exact h c hcode
  · rcases List.mem_append.mp hc with hnumber | hc
    · exact .inr (.inl (isDigit_of_mem_printU32 hnumber))
    · rcases List.mem_cons.mp hc with hhyphen | hvisit
      · exact .inr (.inr hhyphen)
      · exact .inr (.inl (isDigit_of_mem_printU32 hvisit))

end Legal

/-- An accepted session has a legal name exactly where its code is made of lower case letters, digits
and hyphens, and not too long. -/
theorem legalNamespace_iff (alphanumeric : Alphanumeric) (row : BasicInfoRow) (info : BasicInfo)
    (h : BasicInfo.tryFrom alphanumeric row = .ok info) :
    LegalNamespace info.sessionName.toList ↔
      (∀ c ∈ info.proposalCode.toList, c.isLower ∨ c.isDigit ∨ c = '-') ∧
        info.proposalCode.length + (printU32 info.proposalNumber).length + 1 +
          (printU32 info.visit).length ≤ 63 := by
  constructor
  · intro hlegal
    refine ⟨?_, length_sessionName info ▸ hlegal.length⟩
    intro c hc
    apply hlegal.letters
    rw [toList_sessionName]
    exact List.mem_append_left _ hc
  · rintro ⟨hcode, hlength⟩
    obtain ⟨c, cs, hlist, halphanumeric⟩ := code_of_tryFrom h
    have hfirst : c.isLower ∨ c.isDigit := by
      rcases hcode c (hlist ▸ List.mem_cons_self) with hlower | hdigit | rfl
      · exact .inl hlower
      · exact .inr hdigit
      · rw [not_isAlphanumeric_hyphen] at halphanumeric
        cases halphanumeric
    obtain ⟨last, hlast, hdigit⟩ := exists_getLast?_printU32 info.visit
    exact
      { length := length_sessionName info ▸ hlength
        letters := letters_sessionName hcode
        first := ⟨c, by rw [toList_sessionName, hlist]; rfl, hfirst⟩
        last := ⟨last, getLast?_sessionName hlast, .inr hdigit⟩ }

theorem legalNamespace_iff_example :
    BasicInfo.tryFrom .ofAscii (exampleRow "cm" "10031" 4) = .ok (exampleInfo 43) ∧
      LegalNamespace (exampleInfo 43).sessionName.toList := by
  have h : BasicInfo.tryFrom .ofAscii (exampleRow "cm" "10031" 4) = .ok (exampleInfo 43) := by
    decide +kernel
  have hcode : (exampleInfo 43).proposalCode.toList = ['c', 'm'] := by decide +kernel
  have hlength : (exampleInfo 43).proposalCode.length = 2 := by decide +kernel
  have hnumber : (printU32 (exampleInfo 43).proposalNumber).length = 5 := by decide +kernel
  have hvisit : (printU32 (exampleInfo 43).visit).length = 1 := by decide +kernel
  refine ⟨h, (legalNamespace_iff .ofAscii _ _ h).mpr ⟨?_, by omega⟩⟩
  rw [hcode]
  simp

/-- "CM10031-4". -/
theorem not_legalNamespace :
    ∃ info, BasicInfo.tryFrom .ofAscii (exampleRow "CM" "10031" 4) = .ok info ∧
      ¬ LegalNamespace info.sessionName.toList := by
  have h : BasicInfo.tryFrom .ofAscii (exampleRow "CM" "10031" 4) =
      .ok { exampleInfo 43 with proposalCode := "CM" } := by decide +kernel
  refine ⟨_, h, fun hlegal => ?_⟩
  have hletter := hlegal.letters 'C' (by decide +kernel)
  revert hletter
  decide

end Workflows.Sessionspaces
