import Workflows.Frontend.ScanRange

/-!
# The form of a scan range

Validation reads the ends of a range in two ways, by a test and by `parseInt`; what it returns is
the range that the fields spell. A range is put back into the fields as text.
-/

namespace Workflows.Frontend

open Regex Separator

section Model

inductive Number where
  | nan
  | negative (magnitude : Double)
  | nonneg (magnitude : Double)
  deriving DecidableEq

/-- `<`, which is false of anything that is not a number. -/
def Number.lt : Number → Number → Bool
  | .negative m, .negative n => decide (n < m)
  | .negative m, .nonneg n => m ≠ 0 || n ≠ 0
  | .nonneg m, .nonneg n => decide (m < n)
  | _, _ => false

def parseInt (cs : List Char) : Number :=
  let (negative, cs) :=
    match cs.dropWhile isWhiteSpace with
    | '-' :: cs => (true, cs)
    | '+' :: cs => (false, cs)
    | cs => (false, cs)
  match cs.takeWhile Char.isDigit with
  | [] => .nan
  | digits => if negative then .negative (number digits) else .nonneg (number digits)

structure RawScanRange where
  excludedRaw : String
  start : String
  «end» : String

structure ScanRange where
  start : Number
  «end» : Number
  excluded : Option (List Double)
  deriving DecidableEq

structure ScanRangeErrors where
  start : String
  «end» : String
  excluded : String
  deriving DecidableEq

structure ScanRangeValidationResult where
  errors : ScanRangeErrors
  parsed : Option ScanRange
  deriving DecidableEq

def excludedOutcome (fuel : Nat) (excludedRaw : String) : Option (Except String (List Double)) :=
  if trim excludedRaw.toList = [] then some (.ok []) else parseExcludedScans fuel excludedRaw

def outOfRange (newStart newEnd : Number) (excludedScans : List Double) : List Double :=
  excludedScans.filter fun num => (Number.nonneg num).lt newStart || newEnd.lt (.nonneg num)

def excludedErrorOf (newStart newEnd : Number) : Except String (List Double) → String
  | .ok excludedScans =>
    if outOfRange newStart newEnd excludedScans ≠ [] then "Excluded values out of range" else ""
  | .error message => message

def excludedScansOf : Except String (List Double) → List Double
  | .ok excludedScans => excludedScans
  | .error _ => []

def startErrorOf (validStart : Bool) : String :=
  if validStart then "" else "Start must be a positive integer"

def endErrorOf (validEnd : Bool) (newStart newEnd : Number) : String :=
  if !validEnd then "End must be a positive integer"
  else if newEnd.lt newStart then "End cannot be less than start"
  else ""

def validationResult (scanRange : RawScanRange) (outcome : Except String (List Double)) :
    ScanRangeValidationResult :=
  let newStart := parseInt scanRange.start.toList
  let newEnd := parseInt scanRange.end.toList
  let startError := startErrorOf (isStrictPositiveInteger scanRange.start.toList)
  let endError := endErrorOf (isStrictPositiveInteger scanRange.end.toList) newStart newEnd
  let excludedError := excludedErrorOf newStart newEnd outcome
  let hasErrors := startError ≠ "" ∨ endError ≠ "" ∨ excludedError ≠ ""
  { errors := ⟨startError, endError, excludedError⟩
    parsed := if hasErrors then none else some ⟨newStart, newEnd, excludedScansOf outcome⟩ }

def validateScanRange (fuel : Nat) (scanRange : RawScanRange) :
    Option ScanRangeValidationResult :=
  (excludedOutcome fuel scanRange.excludedRaw).map (validationResult scanRange)

/-- The range that validation comes to, where it ends and finds no error. -/
def Parsed (scanRange : RawScanRange) (range : ScanRange) : Prop :=
  ∃ fuel errors, validateScanRange fuel scanRange = some ⟨errors, some range⟩

/-- A number that `||` does not replace. -/
def Number.isTruthy : Number → Bool
  | .nan => false
  | .negative n => n ≠ 0
  | .nonneg n => n ≠ 0

def Number.toText : Number → List Char
  | .nan => "NaN".toList
  | .negative n => if n = 0 then ['0'] else '-' :: n.toText
  | .nonneg n => n.toText

/-- `String(value || "")` -/
def fieldText (value : Number) : String := if value.isTruthy then String.ofList value.toText else ""

/-- The raw fields that the input starts with. -/
def initialRange (value : ScanRange) : RawScanRange where
  excludedRaw :=
    match value.excluded with
    | some excluded => String.ofList ([',', ' '].intercalate (excluded.map Double.toText))
    | none => ""
  start := fieldText value.start
  «end» := fieldText value.end

end Model

section Validation

variable {cs : List Char} {n fuel : Nat} {raw : RawScanRange} {range : ScanRange}
  {outcome : Except String (List Double)} {scans : List Double}

theorem isWhiteSpace_of_isDigit {c : Char} (h : c.isDigit) : isWhiteSpace c = false := by
  have hdigit : 48 ≤ c.toNat ∧ c.toNat ≤ 57 := Char.isDigit_iff_toNat.mp h
  refine Bool.eq_false_iff.mpr fun hspace => ?_
  simp only [isWhiteSpace, List.contains_eq_mem, List.mem_cons, List.not_mem_nil, or_false,
    Bool.or_eq_true, Bool.and_eq_true, decide_eq_true_eq] at hspace
  omega

theorem parseInt_of_isDecimal (h : IsDecimal cs n) : parseInt cs = .nonneg (Double.ofNat n) := by
  obtain ⟨c, rest, rfl⟩ := List.exists_cons_of_ne_nil h.ne
  have hc : c.isDigit := h.digits c List.mem_cons_self
  have hdrop : (c :: rest).dropWhile isWhiteSpace = c :: rest :=
    List.dropWhile_cons_of_neg (by simp [isWhiteSpace_of_isDigit hc])
  have htake : (c :: rest).takeWhile Char.isDigit = c :: rest :=
    List.takeWhile_eq_self_iff.mpr h.digits
  have hminus : c ≠ '-' := ne_of_mem_of_not_mem List.mem_cons_self h.not_mem
  have hplus : c ≠ '+' := by
    rintro rfl
    cases hc
  have hsign : (match c :: rest with
      | '-' :: cs => (true, cs)
      | '+' :: cs => (false, cs)
      | cs => (false, cs)) = (false, c :: rest) := by
    split
    next heq => exact absurd (List.cons.inj heq).1 hminus
    next heq => exact absurd (List.cons.inj heq).1 hplus
    next => rfl
  unfold parseInt
  simp only [hdrop, hsign, htake, h.number_eq, Bool.false_eq_true, if_false]

theorem isWhiteSpace_of_trim (h : trim cs = []) : ∀ c ∈ cs, isWhiteSpace c := by
  rw [trim, List.reverse_eq_nil_iff, List.dropWhile_eq_nil_iff] at h
  have hdrop : cs.dropWhile isWhiteSpace = [] := by
    by_contra hne
    have hhead := List.head_dropWhile_not isWhiteSpace hne
    have hmem := h _ (List.mem_reverse.mpr (List.head_mem hne))
    rw [hhead] at hmem
    cases hmem
  exact List.dropWhile_eq_nil_iff.mp hdrop

theorem parts_of_trim {input : String} (h : trim input.toList = []) : parts input = [] := by
  rw [parts, List.filter_eq_nil_iff]
  intro part hpart
  obtain ⟨piece, hpiece, rfl⟩ := List.mem_map.mp hpart
  have hnil : piece = [] := by
    refine List.eq_nil_iff_forall_not_mem.mpr fun a ha => ?_
    have hseparator := not_of_mem_splitRuns hpiece a ha
    have hmem := List.mem_of_mem_filter (mem_of_mem_splitRuns hpiece a ha)
    have hspace := isWhiteSpace_of_trim h a hmem
    simp [isSeparator, hspace] at hseparator
  rw [hnil]
  decide

theorem excludedOutcome_iff {excludedRaw : String} :
    (∃ fuel, excludedOutcome fuel excludedRaw = some outcome) ↔ Gives excludedRaw outcome := by
  refine exists_congr fun fuel => ?_
  rw [excludedOutcome]
  split_ifs with hblank
  · rw [parseExcludedScans, parts_of_trim hblank]
    rfl
  · rfl

theorem outOfRange_eq_nil {a b : Double} :
    outOfRange (.nonneg a) (.nonneg b) scans = [] ↔ ∀ x ∈ scans, a ≤ x ∧ x ≤ b := by
  rw [outOfRange, List.filter_eq_nil_iff]
  refine forall₂_congr fun x _ => ?_
  simp [Number.lt]

theorem excludedErrorOf_eq_empty {a b : Double}
    (h : ∀ message, outcome = .error message → message ≠ "") :
    excludedErrorOf (.nonneg a) (.nonneg b) outcome = "" ↔
      ∃ scans, outcome = .ok scans ∧ ∀ x ∈ scans, a ≤ x ∧ x ≤ b := by
  cases outcome with
  | error message => simpa [excludedErrorOf] using h message rfl
  | ok scans =>
    rw [excludedErrorOf]
    simp [outOfRange_eq_nil]

theorem startErrorOf_eq_empty {valid : Bool} : startErrorOf valid = "" ↔ valid := by
  cases valid <;> decide

theorem endErrorOf_eq_empty {valid : Bool} {newStart newEnd : Number} :
    endErrorOf valid newStart newEnd = "" ↔ valid ∧ newEnd.lt newStart = false := by
  rw [endErrorOf]
  cases valid <;> cases newEnd.lt newStart <;> decide

/-- What the fields of a range that is returned spell. -/
structure Spells (raw : RawScanRange) (a b : Nat) (scans : List Double) : Prop where
  start : IsDecimal raw.start.toList a
  «end» : IsDecimal raw.end.toList b
  le : Double.ofNat a ≤ Double.ofNat b
  excluded : Gives raw.excludedRaw (.ok scans)
  inside : ∀ x ∈ scans, Double.ofNat a ≤ x ∧ x ≤ Double.ofNat b

def rangeOf (a b : Nat) (scans : List Double) : ScanRange :=
  ⟨.nonneg (Double.ofNat a), .nonneg (Double.ofNat b), some scans⟩

theorem validationResult_eq (hgives : Gives raw.excludedRaw outcome) {errors : ScanRangeErrors} :
    validationResult raw outcome = ⟨errors, some range⟩ ↔
      errors = ⟨"", "", ""⟩ ∧
        ∃ a b scans, outcome = .ok scans ∧ Spells raw a b scans ∧ range = rangeOf a b scans := by
  have hmessage : ∀ message, outcome = .error message → message ≠ "" := by
    rintro message rfl
    exact gives_error_ne hgives
  simp only [validationResult, ScanRangeValidationResult.mk.injEq]
  constructor
  · rintro ⟨herrors, hparsed⟩
    split_ifs at hparsed with hany
    simp only [not_or, not_not] at hany
    obtain ⟨hstart, hend, hexcluded⟩ := hany
    rw [hstart, hend, hexcluded] at herrors
    obtain ⟨a, ha⟩ := isStrictPositiveInteger_iff.mp (startErrorOf_eq_empty.mp hstart)
    obtain ⟨hvalid, hlt⟩ := endErrorOf_eq_empty.mp hend
    obtain ⟨b, hb⟩ := isStrictPositiveInteger_iff.mp hvalid
    rw [parseInt_of_isDecimal ha, parseInt_of_isDecimal hb] at hlt hexcluded hparsed
    obtain ⟨scans, rfl, hinside⟩ := (excludedErrorOf_eq_empty hmessage).mp hexcluded
    have hle : Double.ofNat a ≤ Double.ofNat b := by simpa [Number.lt] using hlt
    exact ⟨herrors.symm, a, b, scans, rfl, ⟨ha, hb, hle, hgives, hinside⟩,
      (Option.some_inj.mp hparsed).symm⟩
  · rintro ⟨rfl, a, b, scans, rfl, hspells, rfl⟩
    have hlt : (Number.nonneg (Double.ofNat b)).lt (.nonneg (Double.ofNat a)) = false := by
      simpa [Number.lt] using hspells.le
    have hstart := startErrorOf_eq_empty.mpr (isStrictPositiveInteger_iff.mpr ⟨a, hspells.start⟩)
    have hend := endErrorOf_eq_empty.mpr
      ⟨isStrictPositiveInteger_iff.mpr ⟨b, hspells.end⟩, hlt⟩
    have hexcluded := (excludedErrorOf_eq_empty hmessage).mpr ⟨scans, rfl, hspells.inside⟩
    rw [parseInt_of_isDecimal hspells.start, parseInt_of_isDecimal hspells.end, hstart, hend,
      hexcluded]
    exact ⟨rfl, by simp [rangeOf, excludedScansOf]⟩

theorem validateScanRange_iff {errors : ScanRangeErrors} :
    (∃ fuel, validateScanRange fuel raw = some ⟨errors, some range⟩) ↔
      errors = ⟨"", "", ""⟩ ∧ ∃ a b scans, Spells raw a b scans ∧ range = rangeOf a b scans := by
  constructor
  · rintro ⟨fuel, hfuel⟩
    obtain ⟨outcome, houtcome, hresult⟩ := Option.map_eq_some_iff.mp hfuel
    have hgives := excludedOutcome_iff.mp ⟨fuel, houtcome⟩
    obtain ⟨herrors, a, b, scans, -, hspells⟩ := (validationResult_eq hgives).mp hresult
    exact ⟨herrors, a, b, scans, hspells⟩
  · rintro ⟨herrors, a, b, scans, hspells⟩
    obtain ⟨fuel, houtcome⟩ := excludedOutcome_iff.mpr hspells.1.excluded
    refine ⟨fuel, ?_⟩
    rw [validateScanRange, houtcome, Option.map_some]
    exact congrArg some ((validationResult_eq hspells.1.excluded).mpr
      ⟨herrors, a, b, scans, rfl, hspells⟩)

theorem parsed_iff :
    Parsed raw range ↔ ∃ a b scans, Spells raw a b scans ∧ range = rangeOf a b scans := by
  constructor
  · rintro ⟨fuel, errors, h⟩
    exact (validateScanRange_iff.mp ⟨fuel, h⟩).2
  · intro h
    obtain ⟨fuel, hfuel⟩ := validateScanRange_iff.mpr ⟨rfl, h⟩
    exact ⟨fuel, _, hfuel⟩

/-- Parsing and validation are exact. -/
theorem scanRange_exact :
    (∀ input, NumbersBelow input →
      ((∃ message, Gives input (.error message)) ↔
        ∃ token ∈ parts input, ¬∃ lo hi, Denotes token lo hi) ∧
      ((∀ token ∈ parts input, ∃ lo hi, Denotes token lo hi) →
        ∃ scans, Gives input (.ok scans) ∧ scans.Pairwise (· < ·) ∧
          ∀ x, x ∈ scans ↔ ∃ token ∈ parts input, ∃ lo hi n : Nat,
            Denotes token lo hi ∧ lo ≤ n ∧ n ≤ hi ∧ x = n)) ∧
    (∀ raw range, Parsed raw range ↔
      ∃ a b scans, Spells raw a b scans ∧ range = rangeOf a b scans) ∧
    ∀ n < 2 ^ 53, Double.ofNat n = n := by
  refine ⟨fun input hbelow => ?_, fun raw range => parsed_iff, fun n hn =>
    Double.ofNat_of_le hn.le⟩
  have hendless : ∀ t ∈ parts input, ¬Endless t := fun t ht => not_endless (hbelow t ht)
  have hrefused : ∀ t ∈ parts input, (Refused t ↔ ¬∃ lo hi, Denotes t lo hi) :=
    fun t ht => refused_iff (hbelow t ht)
  have hok : (∀ token ∈ parts input, ∃ lo hi, Denotes token lo hi) →
      ∀ t ∈ parts input, ¬Refused t := fun hall t ht h => (hrefused t ht).mp h (hall t ht)
  constructor
  · constructor
    · rintro ⟨message, hmessage⟩
      by_contra hnone
      have hall : ∀ token ∈ parts input, ∃ lo hi, Denotes token lo hi := by
        simpa using hnone
      obtain ⟨scans, hscans, -⟩ := gives_ok (hok hall) hendless
      cases gives_unique hmessage hscans
    · rintro ⟨token, htoken, h⟩
      exact gives_error ⟨token, htoken, (hrefused token htoken).mpr h⟩ hendless
  · intro hall
    obtain ⟨scans, hscans, hsorted, hmem⟩ := gives_ok (hok hall) hendless
    refine ⟨scans, hscans, hsorted, fun x => (hmem x).trans ?_⟩
    refine exists_congr fun token => and_congr_right fun htoken => ?_
    rw [mem_denoted]
    refine exists_congr fun lo => exists_congr fun hi => exists_congr fun n =>
      and_congr_right fun hdenotes => and_congr_right fun _ => and_congr_right fun hn => ?_
    rw [Double.ofNat_of_le (hn.trans (hdenotes.hi_lt (hbelow token htoken)).le)]

end Validation

section Reuse

variable {raw : RawScanRange} {range : ScanRange} {scans : List Double} {numbers : List Nat}
  {a b : Nat}

/-- Every number of a range is below `2 ^ 53`. -/
structure RangeBelow (range : ScanRange) : Prop where
  start : ∀ x, range.start = .nonneg x → x < (2 ^ 53 : Nat)
  «end» : ∀ x, range.end = .nonneg x → x < (2 ^ 53 : Nat)
  excluded : ∀ x ∈ range.excluded.getD [], x < (2 ^ 53 : Nat)

theorem isDecimal_toDigits (n : Nat) : IsDecimal (Nat.toDigits 10 n) n where
  ne := Nat.toDigits_ne_nil
  digits c hc := Nat.isDigit_of_mem_toDigits (by decide) (by decide) hc
  value := Nat.ofDigitChars_ten_toDigits

theorem exists_map_cast (h : ∀ x ∈ scans, x < (2 ^ 53 : Nat)) :
    ∃ numbers : List Nat, scans = numbers.map (↑) ∧ ∀ n ∈ numbers, n < 2 ^ 53 := by
  induction scans with
  | nil => exact ⟨[], rfl, by simp⟩
  | cons x scans ih =>
    obtain ⟨hx, hscans⟩ := List.forall_mem_cons.mp h
    obtain ⟨numbers, rfl, hnumbers⟩ := ih hscans
    obtain ⟨n, rfl⟩ := ENat.ne_top_iff_exists.mp hx.ne_top
    exact ⟨n :: numbers, rfl, List.forall_mem_cons.mpr ⟨Nat.cast_lt.mp hx, hnumbers⟩⟩

def excludedText (numbers : List Nat) : List Char :=
  [',', ' '].intercalate (numbers.map (Nat.toDigits 10))

theorem isSeparator_of_isDigit {c : Char} (h : c.isDigit) : isSeparator c = false := by
  have hcomma : c ≠ ',' := by
    rintro rfl
    cases h
  simp [isSeparator, isWhiteSpace_of_isDigit h, hcomma]

theorem trim_of_not {cs : List Char} (h : ∀ c ∈ cs, isWhiteSpace c = false) : trim cs = cs := by
  have hdrop : ∀ cs : List Char, (∀ c ∈ cs, isWhiteSpace c = false) →
      cs.dropWhile isWhiteSpace = cs := by
    rintro (_ | ⟨c, cs⟩) hcs
    · rfl
    · exact List.dropWhile_cons_of_neg (by simp [hcs c List.mem_cons_self])
  rw [trim, hdrop cs h, hdrop cs.reverse (by simpa using h), List.reverse_reverse]

theorem not_isBracket_excludedText {c : Char} (h : c ∈ excludedText numbers) :
    isBracket c = false := by
  obtain hrun | ⟨word, hword, hc⟩ := mem_of_mem_intercalate h
  · simp only [List.mem_cons, List.not_mem_nil, or_false] at hrun
    obtain rfl | rfl := hrun <;> decide
  · obtain ⟨n, -, rfl⟩ := List.mem_map.mp hword
    have hdigit := (isDecimal_toDigits n).digits c hc
    refine Bool.eq_false_iff.mpr fun hbracket => ?_
    obtain rfl | rfl : c = '[' ∨ c = ']' := by simpa [isBracket] using hbracket
    · cases hdigit
    · cases hdigit

theorem parts_excludedText (numbers : List Nat) :
    parts (String.ofList (excludedText numbers)) = numbers.map (Nat.toDigits 10) := by
  have hdigits : ∀ word ∈ numbers.map (Nat.toDigits 10), word ≠ [] ∧ ∀ c ∈ word, c.isDigit := by
    intro word hword
    obtain ⟨n, -, rfl⟩ := List.mem_map.mp hword
    exact ⟨(isDecimal_toDigits n).ne, (isDecimal_toDigits n).digits⟩
  have hbrackets : (excludedText numbers).filter (!isBracket ·) = excludedText numbers :=
    List.filter_eq_self.mpr fun c hc => by rw [not_isBracket_excludedText hc]; rfl
  rw [parts, String.toList_ofList, hbrackets]
  obtain rfl | hne := eq_or_ne numbers []
  · rfl
  have hrun : ∀ c ∈ [',', ' '], isSeparator c := List.all_eq_true.mp rfl
  rw [excludedText, splitRuns_intercalate (by simpa using hne)
    (fun word hword => ⟨(hdigits word hword).1, fun c hc =>
      isSeparator_of_isDigit ((hdigits word hword).2 c hc)⟩) (by simp) hrun]
  have htrim : (numbers.map (Nat.toDigits 10)).map trim = numbers.map (Nat.toDigits 10) := by
    refine (List.map_congr_left fun word hword => ?_).trans (List.map_id _)
    exact trim_of_not fun c hc => isWhiteSpace_of_isDigit ((hdigits word hword).2 c hc)
  rw [htrim, List.filter_eq_self]
  exact fun word hword => by simpa using (hdigits word hword).1

theorem gives_excludedText (hsorted : (numbers.map (↑) : List Double).Pairwise (· < ·))
    (hsmall : ∀ n ∈ numbers, n < 2 ^ 53) :
    Gives (String.ofList (excludedText numbers)) (.ok (numbers.map (↑))) := by
  have htokens : ∀ t ∈ parts (String.ofList (excludedText numbers)),
      ∃ n ∈ numbers, t = Nat.toDigits 10 n := by
    rw [parts_excludedText]
    intro t ht
    obtain ⟨n, hn, rfl⟩ := List.mem_map.mp ht
    exact ⟨n, hn, rfl⟩
  have hrefused : ∀ t ∈ parts (String.ofList (excludedText numbers)), ¬Refused t := by
    intro t ht hrefused
    obtain ⟨n, -, rfl⟩ := htokens t ht
    exact hrefused.number n (isDecimal_toDigits n)
  have hendless : ∀ t ∈ parts (String.ofList (excludedText numbers)), ¬Endless t := by
    rintro t ht ⟨ha, hb, hlt, hlarge⟩
    obtain ⟨n, -, heq⟩ := htokens _ ht
    exact not_isDecimal_range (heq ▸ isDecimal_toDigits n)
  obtain ⟨scans, hscans, hincreasing, hmem⟩ := gives_ok hrefused hendless
  have hscans_eq : scans = numbers.map (↑) := by
    refine hincreasing.eq_of_mem_iff hsorted fun x => (hmem x).trans ?_
    rw [parts_excludedText]
    constructor
    · rintro ⟨t, ht, hx⟩
      obtain ⟨n, hn, rfl⟩ := List.mem_map.mp ht
      rw [denoted_number (isDecimal_toDigits n), Set.mem_singleton_iff,
        Double.ofNat_of_le (hsmall n hn).le] at hx
      exact List.mem_map.mpr ⟨n, hn, hx.symm⟩
    · intro hx
      obtain ⟨n, hn, hx⟩ := List.mem_map.mp hx
      refine ⟨_, List.mem_map.mpr ⟨n, hn, rfl⟩, ?_⟩
      rw [denoted_number (isDecimal_toDigits n), Set.mem_singleton_iff,
        Double.ofNat_of_le (hsmall n hn).le, hx]
  exact hscans_eq ▸ hscans

theorem fieldText_of_ne_zero (ha : a < 2 ^ 53) (hne : a ≠ 0) :
    fieldText (.nonneg (Double.ofNat a)) = String.ofList (Nat.toDigits 10 a) := by
  rw [Double.ofNat_of_le ha.le, fieldText, if_pos, Number.toText, Double.toText_of_lt ha]
  simpa [Number.isTruthy] using hne

theorem fieldText_zero : fieldText (.nonneg 0) = "" := rfl

theorem excludedRaw_eq (hsmall : ∀ n ∈ numbers, n < 2 ^ 53) (start e : Number) :
    (initialRange ⟨start, e, some (numbers.map (↑))⟩).excludedRaw =
      String.ofList (excludedText numbers) := by
  have htext : (numbers.map ((↑) : Nat → Double)).map Double.toText =
      numbers.map (Nat.toDigits 10) := by
    rw [List.map_map]
    exact List.map_congr_left fun n hn => Double.toText_of_lt (hsmall n hn)
  exact congrArg (fun texts => String.ofList ([',', ' '].intercalate texts)) htext

/-- A range is read back from the fields it is put into exactly when it does not start at zero. -/
theorem validateScanRange_initialRange_iff (hparsed : Parsed raw range)
    (hbelow : RangeBelow range) :
    (∃ fuel, validateScanRange fuel (initialRange range) = some ⟨⟨"", "", ""⟩, some range⟩) ↔
      range.start ≠ .nonneg 0 := by
  obtain ⟨a, b, scans, hspells, rfl⟩ := parsed_iff.mp hparsed
  have ha : a < 2 ^ 53 := Double.ofNat_lt_iff.mp (hbelow.start _ rfl)
  have hb : b < 2 ^ 53 := Double.ofNat_lt_iff.mp (hbelow.end _ rfl)
  rw [validateScanRange_iff]
  constructor
  · rintro ⟨-, a', b', scans', hspells', -⟩ hzero
    have hstart := hspells'.start
    rw [initialRange, hzero, fieldText_zero] at hstart
    exact hstart.ne rfl
  · intro hne
    have hpos : a ≠ 0 := by
      rintro rfl
      exact hne (congrArg Number.nonneg (Double.ofNat_of_le (by decide)))
    have hle : a ≤ b := by
      have h := hspells.le
      rw [Double.ofNat_of_le ha.le, Double.ofNat_of_le hb.le] at h
      exact Nat.cast_le.mp h
    obtain ⟨numbers, rfl, hsmall⟩ := exists_map_cast hbelow.excluded
    refine ⟨rfl, a, b, _, ⟨?_, ?_, hspells.le, ?_, hspells.inside⟩, rfl⟩
    · rw [initialRange, rangeOf, fieldText_of_ne_zero ha hpos, String.toList_ofList]
      exact isDecimal_toDigits a
    · rw [initialRange, rangeOf, fieldText_of_ne_zero hb (by omega), String.toList_ofList]
      exact isDecimal_toDigits b
    · rw [rangeOf, excludedRaw_eq hsmall]
      exact gives_excludedText (gives_pairwise hspells.excluded) hsmall

theorem validateScanRange_initialRange_iff_example :
    ∃ fuel, validateScanRange fuel
        (initialRange ⟨.nonneg 3, .nonneg 9, some [(4 : Nat), (5 : Nat)]⟩) =
      some ⟨⟨"", "", ""⟩, some ⟨.nonneg 3, .nonneg 9, some [(4 : Nat), (5 : Nat)]⟩⟩ := by
  have hparsed : Parsed ⟨"4-5", "3", "9"⟩ ⟨.nonneg 3, .nonneg 9, some [(4 : Nat), (5 : Nat)]⟩ :=
    ⟨10, ⟨"", "", ""⟩, by decide +kernel⟩
  refine (validateScanRange_initialRange_iff hparsed ⟨?_, ?_, by decide +kernel⟩).mpr
    (by decide +kernel)
  · rintro x ⟨⟩
    decide +kernel
  · rintro x ⟨⟩
    decide +kernel

/-- Zero is put into a field as nothing. -/
theorem initialRange_zero_invalid :
    Parsed ⟨"", "0", "5"⟩ ⟨.nonneg 0, .nonneg 5, some []⟩ ∧
      ¬∃ fuel, validateScanRange fuel (initialRange ⟨.nonneg 0, .nonneg 5, some []⟩) =
        some ⟨⟨"", "", ""⟩, some ⟨.nonneg 0, .nonneg 5, some []⟩⟩ := by
  refine ⟨⟨0, ⟨"", "", ""⟩, by decide +kernel⟩, ?_⟩
  rintro ⟨fuel, h⟩
  have hresult : validateScanRange fuel (initialRange ⟨.nonneg 0, .nonneg 5, some []⟩) =
      some ⟨⟨"Start must be a positive integer", "", ""⟩, none⟩ := by
    have hblank : excludedOutcome fuel "" = some (.ok []) := if_pos (by decide +kernel)
    rw [validateScanRange]
    change (excludedOutcome fuel "").map _ = _
    rw [hblank, Option.map_some]
    exact congrArg some (by decide +kernel)
  rw [hresult] at h
  exact absurd h (by decide +kernel)

end Reuse

end Workflows.Frontend
