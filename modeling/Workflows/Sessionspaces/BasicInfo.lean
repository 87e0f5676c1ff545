import Workflows.Sessionspaces.Session
import Workflows.Foundations.Decimal

/-!
# Basic information of sessions

Rows of ISPyB, the check that `BasicInfo::try_from` makes of them, and the name of the namespace of a
session. The letters of other scripts that count as alphanumeric are a parameter.
-/

namespace Workflows.Sessionspaces

open Decimal

/-- `EnumIter`. -/
def Instrument.iter : List Instrument :=
  [.b01, .b01_1, .b07, .b07_1, .b16, .b18, .b21, .b22, .b23, .b24, .b24_1, .e01, .e02, .e03,
    .i02_1, .i02_2, .i03, .i04, .i04_1, .i05, .i05_1, .i06, .i06_1, .i06_2, .i07, .i08, .i08_1,
    .i09, .i09_1, .i09_2, .i10, .i10_1, .i11, .i11_1, .i12, .i13, .i13_1, .i14, .i15, .i15_1,
    .i16, .i18, .i19, .i19_1, .i19_2, .i20, .i20_1, .i21, .i22, .i23, .i24, .k11, .labxchem,
    .m01, .m02, .m03, .m04, .m05, .m06, .m07, .m08, .m10, .m11, .m12, .m13, .m14, .p02, .p29,
    .p32, .p33, .p38, .p45, .p51, .p99, .s01, .s02, .s03, .s04, .t01]

/-- `EnumString` reads what `Display` writes. -/
def Instrument.fromStr (s : String) : Except String Instrument :=
  match Instrument.iter.find? (·.toString = s) with
  | some instrument => .ok instrument
  | none => .error "Matching variant not found"

/-- `char::is_alphanumeric`. -/
structure Alphanumeric where
  isAlphanumeric : Char → Bool
  ascii : ∀ c : Char, c.toNat < 128 → isAlphanumeric c = c.isAlphanum

def Alphanumeric.ofAscii : Alphanumeric where
  isAlphanumeric := Char.isAlphanum
  ascii _ _ := rfl

structure BasicInfoRow where
  id : UInt32
  proposalId : UInt32
  proposalCode : Option String
  proposalNumber : Option String
  visit : Option UInt32
  instrument : Option String
  startDate : Option PrimitiveDateTime
  endDate : Option PrimitiveDateTime

/-- A singular beamline session. -/
structure BasicInfo where
  id : UInt32
  proposalId : UInt32
  proposalCode : String
  proposalNumber : UInt32
  visit : UInt32
  instrument : Instrument
  startDate : PrimitiveDateTime
  endDate : PrimitiveDateTime
  deriving DecidableEq

section TryFrom

variable (alphanumeric : Alphanumeric)

def acceptedCode : Option String → Except String String
  | some code =>
    if code.isEmpty then .error "Proposal code was empty"
    else if code.toList.head?.any fun c => !alphanumeric.isAlphanumeric c then
      .error "Proposal code began with non-alphanumeric"
    else .ok code
  | none => .error "Proposal code was NULL"

def acceptedVisit : Option UInt32 → Except String UInt32
  | some visit => if visit = 0 then .error "Visit number was zero" else .ok visit
  | none => .error "Visit number was NULL"

def okOr {α : Type} (message : String) : Option α → Except String α
  | some a => .ok a
  | none => .error message

def parseNumber (s : String) : Except String UInt32 :=
  (parseU32 s.toList).mapError ParseIntError.toString

def BasicInfo.tryFrom (value : BasicInfoRow) : Except String BasicInfo := do
  let code ← acceptedCode alphanumeric value.proposalCode
  let visit ← acceptedVisit value.visit
  let proposalNumber ← okOr "Proposal number was NULL" value.proposalNumber >>= parseNumber
  let instrument ← okOr "Beamline was NULL" value.instrument >>= Instrument.fromStr
  let startDate ← okOr "startDate was NULL" value.startDate
  let endDate ← okOr "endDate was NULL" value.endDate
  return {
    id := value.id
    proposalId := value.proposalId
    proposalCode := code
    proposalNumber := proposalNumber
    visit := visit
    instrument := instrument
    startDate := startDate
    endDate := endDate }

/-- Rows that are refused are left out. -/
def BasicInfo.fetch (rows : List BasicInfoRow) : List BasicInfo :=
  rows.filterMap fun row => (BasicInfo.tryFrom alphanumeric row).toOption

end TryFrom

def BasicInfo.sessionName (session : BasicInfo) : String :=
  session.proposalCode ++ toString session.proposalNumber ++ "-" ++ toString session.visit

theorem bind_eq_ok {α β : Type} {x : Except String α} {f : α → Except String β} {b : β}
    (h : (x >>= f) = .ok b) : ∃ a, x = .ok a ∧ f a = .ok b := by
  cases x with
  | error message => cases h
  | ok a => exact ⟨a, rfl, h⟩

section Accepted

variable {alphanumeric : Alphanumeric} {row : BasicInfoRow} {info : BasicInfo}

theorem acceptedCode_eq_ok {value : Option String} {code : String}
    (h : acceptedCode alphanumeric value = .ok code) :
    ∃ c cs, code.toList = c :: cs ∧ alphanumeric.isAlphanumeric c := by
  cases value with
  | none => cases h
  | some value =>
    rw [acceptedCode] at h
    split_ifs at h with hempty hfirst
    cases h
    cases hcode : code.toList with
    | nil =>
      rw [String.toList_eq_nil_iff.mp hcode] at hempty
      exact absurd rfl hempty
    | cons c cs =>
      rw [hcode] at hfirst
      exact ⟨c, cs, rfl, by simpa using hfirst⟩

/-- The name of a session that was accepted begins with an alphanumeric letter. -/
theorem code_of_tryFrom (h : BasicInfo.tryFrom alphanumeric row = .ok info) :
    ∃ c cs, info.proposalCode.toList = c :: cs ∧ alphanumeric.isAlphanumeric c := by
  obtain ⟨code, hcode, h⟩ := bind_eq_ok h
  obtain ⟨visit, -, h⟩ := bind_eq_ok h
  obtain ⟨number, -, h⟩ := bind_eq_ok h
  obtain ⟨instrument, -, h⟩ := bind_eq_ok h
  obtain ⟨startDate, -, h⟩ := bind_eq_ok h
  obtain ⟨endDate, -, h⟩ := bind_eq_ok h
  cases h
  exact acceptedCode_eq_ok hcode

end Accepted

theorem toList_sessionName (info : BasicInfo) :
    info.sessionName.toList = info.proposalCode.toList ++
      (printU32 info.proposalNumber ++ '-' :: printU32 info.visit) := by
  rw [BasicInfo.sessionName]
  simp [toList_toString]

end Workflows.Sessionspaces
