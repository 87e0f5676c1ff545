import Workflows.Foundations.Decimal
import Workflows.Foundations.Regex

/-!
# Identifiers of workflows

`Workflow::id` puts the visit, the name and the uid of a workflow into one text, which
`workflow_by_id` takes apart again with the parser of visits.
-/

namespace Workflows.GraphProxy

open Decimal Regex

structure VisitInput where
  proposalCode : String
  proposalNumber : UInt32
  number : UInt32
  deriving DecidableEq

structure Visit where
  proposalCode : String
  proposalNumber : UInt32
  number : UInt32
  deriving DecidableEq

def Visit.ofInput (visit : VisitInput) : Visit where
  proposalCode := visit.proposalCode
  proposalNumber := visit.proposalNumber
  number := visit.number

def displayVisit (proposalCode : String) (proposalNumber number : UInt32) : String :=
  proposalCode ++ toString proposalNumber ++ "-" ++ toString number

def Visit.display (visit : Visit) : String :=
  displayVisit visit.proposalCode visit.proposalNumber visit.number

def VisitInput.display (visit : VisitInput) : String :=
  displayVisit visit.proposalCode visit.proposalNumber visit.number

section VisitRegex

variable (decimal : DecimalNumber)

/-- `^([A-Za-z]+)(\d+)-(\d+)$` -/
def visitRegex : Regex Char :=
  .seq (plus (.cls Char.isAlpha)) <| .seq (plus (.cls decimal.isDecimal)) <|
    .seq (.cls (· = '-')) (plus (.cls decimal.isDecimal))

/-- The groups of the expression. No letter or hyphen is a digit, so that each of them ends where
the next one begins. -/
def captures (cs : List Char) : Option (List Char × List Char × List Char) :=
  match cs.span Char.isAlpha with
  | (proposalCode, rest) =>
    match rest.span decimal.isDecimal with
    | (proposalNumber, '-' :: number) =>
      if proposalCode ≠ [] ∧ proposalNumber ≠ [] ∧ number ≠ [] ∧ number.all decimal.isDecimal
      then some (proposalCode, proposalNumber, number) else none
    | _ => none

variable {decimal} {cs code n m : List Char}

theorem toNat_of_isUpper {c : Char} (h : c.isUpper) : 65 ≤ c.toNat ∧ c.toNat ≤ 90 :=
  of_decide_eq_true h

theorem toNat_of_isLower {c : Char} (h : c.isLower) : 97 ≤ c.toNat ∧ c.toNat ≤ 122 := by
  obtain ⟨hlow, hhigh⟩ := Bool.and_eq_true_iff.mp h
  exact ⟨of_decide_eq_true hlow, of_decide_eq_true hhigh⟩

theorem toNat_of_isAlpha {c : Char} (h : c.isAlpha) : 64 < c.toNat ∧ c.toNat < 128 := by
  obtain hupper | hlower := Bool.or_eq_true_iff.mp h
  · have := toNat_of_isUpper hupper
    omega
  · have := toNat_of_isLower hlower
    omega

theorem not_isDecimal_of_isAlpha {c : Char} (h : c.isAlpha) : decimal.isDecimal c = false := by
  obtain ⟨hlow, hhigh⟩ := toNat_of_isAlpha h
  refine decimal.not_isDecimal hhigh (Bool.eq_false_iff.mpr fun hdigit => ?_)
  have hle : c.toNat ≤ 57 := (Char.isDigit_iff_toNat.mp hdigit).2
  omega

theorem not_isDecimal_hyphen : decimal.isDecimal '-' = false :=
  decimal.not_isDecimal (by decide) rfl

theorem captures_eq_some_iff :
    captures decimal cs = some (code, n, m) ↔
      code ++ (n ++ '-' :: m) = cs ∧ (code ≠ [] ∧ ∀ c ∈ code, c.isAlpha) ∧
        (n ≠ [] ∧ ∀ c ∈ n, decimal.isDecimal c) ∧ m ≠ [] ∧ ∀ c ∈ m, decimal.isDecimal c := by
  constructor
  · intro h
    unfold captures at h
    split at h
    next code' rest hcode =>
      obtain ⟨rfl, hletters, -⟩ := span_eq_iff.mp hcode
      split at h
      next n' m' hn =>
        obtain ⟨rfl, hdigits, -⟩ := span_eq_iff.mp hn
        split_ifs at h with hne
        cases h
        obtain ⟨hcode, hn, hm, hall⟩ := hne
        exact ⟨rfl, ⟨hcode, hletters⟩, ⟨hn, hdigits⟩, hm, List.all_eq_true.mp hall⟩
      next => cases h
  · rintro ⟨rfl, ⟨hcode, hletters⟩, ⟨hn, hdigits⟩, hm, hall⟩
    have hfirst : (code ++ (n ++ '-' :: m)).span Char.isAlpha = (code, n ++ '-' :: m) := by
      refine span_eq_iff.mpr ⟨rfl, hletters, fun c hc => Bool.eq_false_iff.mpr fun halpha => ?_⟩
      obtain ⟨d, n', rfl⟩ := List.exists_cons_of_ne_nil hn
      obtain rfl := Option.some_inj.mp hc
      cases (not_isDecimal_of_isAlpha halpha).symm.trans (hdigits d List.mem_cons_self)
    have hsecond : (n ++ '-' :: m).span decimal.isDecimal = (n, '-' :: m) := by
      refine span_eq_iff.mpr ⟨rfl, hdigits, fun c hc => ?_⟩
      obtain rfl := Option.some_inj.mp hc
      exact not_isDecimal_hyphen
    simp only [captures, hfirst, hsecond]
    exact if_pos ⟨hcode, hn, hm, List.all_eq_true.mpr hall⟩

/-- A text has groups exactly when the expression matches it. -/
theorem captures_isSome_iff : (captures decimal cs).isSome ↔ cs ∈ (visitRegex decimal).lang := by
  simp only [visitRegex, mem_lang_seq, mem_lang_plus_cls, mem_lang_cls, decide_eq_true_eq]
  rw [Option.isSome_iff_exists]
  constructor
  · rintro ⟨⟨code, n, m⟩, h⟩
    obtain ⟨rfl, hcode, hn, hm⟩ := captures_eq_some_iff.mp h
    exact ⟨code, hcode, _, ⟨n, hn, _, ⟨_, ⟨'-', rfl, rfl⟩, m, hm, rfl⟩, rfl⟩, rfl⟩
  · rintro ⟨code, hcode, _, ⟨n, hn, _, ⟨_, ⟨_, rfl, rfl⟩, m, hm, rfl⟩, rfl⟩, rfl⟩
    exact ⟨_, captures_eq_some_iff.mpr ⟨rfl, hcode, hn, hm⟩⟩

end VisitRegex

section FromStr

variable (decimal : DecimalNumber)

def VisitInput.fromStr (string : String) : Except String VisitInput :=
  match captures decimal string.toList with
  | none => .error "Invalid visit format"
  | some (proposalCode, proposalNumber, number) =>
    match parseU32 proposalNumber with
    | .error err => .error ("Invalid proposal number: " ++ err.toString)
    | .ok proposalNumber =>
      match parseU32 number with
      | .error err => .error ("Invalid visit number: " ++ err.toString)
      | .ok number => .ok { proposalCode := String.ofList proposalCode, proposalNumber, number }

/-- The digits are ASCII ones and make up the number. -/
def Reads (cs : List Char) (n : UInt32) : Prop :=
  cs ≠ [] ∧ (∀ c ∈ cs, c.isDigit) ∧ Nat.ofDigitChars 10 cs 0 = n.toNat

variable {decimal} {s : String} {visit : VisitInput}

theorem parseU32_eq_ok_iff_reads {cs : List Char} (hne : cs ≠ [])
    (hdigits : ∀ c ∈ cs, decimal.isDecimal c) {n : UInt32} : parseU32 cs = .ok n ↔ Reads cs n := by
  rw [parseU32_eq_ok_iff hne, Reads, and_iff_right hne]
  rintro c hc rfl
  cases (decimal.not_isDecimal (by decide) rfl).symm.trans (hdigits '+' hc)

theorem fromStr_eq_ok_iff :
    VisitInput.fromStr decimal s = .ok visit ↔
      ∃ n m, visit.proposalCode.toList ++ (n ++ '-' :: m) = s.toList ∧
        (visit.proposalCode.toList ≠ [] ∧ ∀ c ∈ visit.proposalCode.toList, c.isAlpha) ∧
          Reads n visit.proposalNumber ∧ Reads m visit.number := by
  constructor
  · intro h
    unfold VisitInput.fromStr at h
    split at h
    next => cases h
    next code n m hcaptures =>
      obtain ⟨hs, hcode, hn, hm⟩ := captures_eq_some_iff.mp hcaptures
      split at h
      next => cases h
      next proposalNumber hproposal =>
        split at h
        next => cases h
        next number hnumber =>
          cases h
          refine ⟨n, m, ?_, ?_, ?_, ?_⟩
          · rw [String.toList_ofList]
            exact hs
          · rw [String.toList_ofList]
            exact hcode
          · exact (parseU32_eq_ok_iff_reads hn.1 hn.2).mp hproposal
          · exact (parseU32_eq_ok_iff_reads hm.1 hm.2).mp hnumber
  · rintro ⟨n, m, hs, hcode, hn, hm⟩
    have hndigits : ∀ c ∈ n, decimal.isDecimal c := fun c hc => decimal.of_isDigit (hn.2.1 c hc)
    have hmdigits : ∀ c ∈ m, decimal.isDecimal c := fun c hc => decimal.of_isDigit (hm.2.1 c hc)
    have hcaptures := captures_eq_some_iff.mpr ⟨hs, hcode, ⟨hn.1, hndigits⟩, hm.1, hmdigits⟩
    rw [VisitInput.fromStr, hcaptures]
    simp only [(parseU32_eq_ok_iff_reads hn.1 hndigits).mpr hn,
      (parseU32_eq_ok_iff_reads hm.1 hmdigits).mpr hm, String.ofList_toList]

theorem toList_displayVisit (code : String) (n m : UInt32) :
    (displayVisit code n m).toList = code.toList ++ (printU32 n ++ '-' :: printU32 m) := by
  simp only [displayVisit, String.toList_append, toList_toString, List.append_assoc]
  rfl

theorem reads_printU32 (n : UInt32) : Reads (printU32 n) n :=
  ⟨printU32_ne_nil n, fun _ => isDigit_of_mem_printU32, Nat.ofDigitChars_ten_toDigits⟩

/-- What is displayed is read back. -/
theorem fromStr_display (decimal : DecimalNumber)
    (hcode : visit.proposalCode.toList ≠ [] ∧ ∀ c ∈ visit.proposalCode.toList, c.isAlpha) :
    VisitInput.fromStr decimal visit.display = .ok visit :=
  fromStr_eq_ok_iff.mpr ⟨_, _, (toList_displayVisit ..).symm, hcode, reads_printU32 _,
    reads_printU32 _⟩

end FromStr

section WorkflowId

structure Metadata where
  name : String
  visit : Visit
  uid : String
  deriving DecidableEq

/-- `Workflow::id` -/
def Metadata.id (metadata : Metadata) : String :=
  metadata.visit.display ++ ":" ++ metadata.name ++ ":" ++ metadata.uid

/-- `str::split(':')` -/
def splitColons (id : String) : List String := (id.toList.splitOn ':').map String.ofList

/-- The visit, the name and the uid that `workflow_by_id` takes from an ID. -/
def parseWorkflowId (decimal : DecimalNumber) (id : String) :
    Except String (VisitInput × String × String) :=
  match splitColons id with
  | [visitDisplay, workflowName, workflowUid] =>
    match VisitInput.fromStr decimal visitDisplay with
    | .error e => .error e
    | .ok visitInput => .ok (visitInput, workflowName, workflowUid)
  | _ => .error "Invalid Workflow ID"

universe u

/-- The workflow is looked up by the parts of the ID. -/
def workflowById {α : Type u} (decimal : DecimalNumber)
    (getWorkflowFromArgoApi : VisitInput → String → Option String → Except String α)
    (id : String) : Except String α :=
  match parseWorkflowId decimal id with
  | .error e => .error e
  | .ok (visitInput, workflowName, workflowUid) =>
    getWorkflowFromArgoApi visitInput workflowName (some workflowUid)

theorem splitColons_eq {s name uid : String} (hs : ':' ∉ s.toList) (hname : ':' ∉ name.toList)
    (huid : ':' ∉ uid.toList) :
    splitColons (s ++ ":" ++ name ++ ":" ++ uid) = [s, name, uid] := by
  have hlist : (s ++ ":" ++ name ++ ":" ++ uid).toList =
      [':'].intercalate [s.toList, name.toList, uid.toList] := by
    simp [List.intercalate]
  rw [splitColons, hlist, List.splitOn_intercalate ':' ?_ (by simp)]
  · simp
  · simp only [List.mem_cons, List.not_mem_nil, or_false, forall_eq_or_imp, forall_eq]
    exact ⟨hs, hname, huid⟩

theorem colon_not_mem_display {code : String} (n m : UInt32)
    (hcode : ∀ c ∈ code.toList, c.isAlpha) : ':' ∉ (displayVisit code n m).toList := by
  have hdigit : ∀ n : UInt32, ':' ∉ printU32 n := fun n h => by
    cases isDigit_of_mem_printU32 h
  rw [toList_displayVisit, List.mem_append, List.mem_append, List.mem_cons]
  rintro (h | h | h | h)
  · cases hcode ':' h
  · exact hdigit n h
  · cases h
  · exact hdigit m h

/-- The ID of a workflow looks up its visit, name and uid, and the display of a visit is read back
as the visit. -/
theorem workflowById_id {α : Type u} (decimal : DecimalNumber)
    (getWorkflowFromArgoApi : VisitInput → String → Option String → Except String α)
    (visit : VisitInput) (name uid : String)
    (hcode : visit.proposalCode.toList ≠ [] ∧ ∀ c ∈ visit.proposalCode.toList, c.isAlpha)
    (hname : ':' ∉ name.toList) (huid : ':' ∉ uid.toList) :
    workflowById decimal getWorkflowFromArgoApi
        ({ name, visit := .ofInput visit, uid } : Metadata).id =
      getWorkflowFromArgoApi visit name (some uid) ∧
      VisitInput.fromStr decimal visit.display = .ok visit := by
  have hread := fromStr_display decimal hcode
  refine ⟨?_, hread⟩
  have hsplit : splitColons ({ name, visit := .ofInput visit, uid } : Metadata).id =
      [visit.display, name, uid] :=
    splitColons_eq (colon_not_mem_display _ _ hcode.2) hname huid
  simp only [workflowById, parseWorkflowId, hsplit, hread]

theorem workflowById_id_example :
    workflowById .ofAscii (fun visit name uid => .ok (visit, name, uid)) "mg36964-1:steps:19563" =
      .ok (⟨"mg", 36964, 1⟩, "steps", some "19563") ∧
      VisitInput.fromStr .ofAscii "mg36964-1" = .ok ⟨"mg", 36964, 1⟩ :=
  workflowById_id .ofAscii (fun visit name uid => .ok (visit, name, uid)) ⟨"mg", 36964, 1⟩ "steps"
    "19563" ⟨by decide, List.all_eq_true.mp (by decide)⟩ (by decide) (by decide)

end WorkflowId

end Workflows.GraphProxy
