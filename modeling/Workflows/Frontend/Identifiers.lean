import Workflows.GraphProxy.Identifiers

/-!
# Identifiers of workflows in the browser

`splitWorkflowId` takes an ID apart with a regular expression of its own, which is open at the end
and bounds no number.
-/

namespace Workflows.Frontend

open GraphProxy Decimal Regex

structure Visit where
  proposalCode : String
  proposalNumber : Nat
  number : Nat
  deriving DecidableEq

/-- The visit of the backend with its numbers. -/
def Visit.ofInput (input : VisitInput) : Visit where
  proposalCode := input.proposalCode
  proposalNumber := input.proposalNumber.toNat
  number := input.number.toNat

structure SplitId where
  visit : Visit
  workflowName : Option String
  uid : Option String
  deriving DecidableEq

section VisitRegex

/-- `[a-z]{2}` -/
def twoLetters : Regex Char := .seq (.cls Char.isLower) (.cls Char.isLower)

/-- `[1-9]\d*` -/
def positive : Regex Char :=
  .seq (.cls fun c => c.isDigit && c ≠ '0') (.star (.cls Char.isDigit))

/-- `/^([a-z]{2})([1-9]\d*)-([1-9]\d*)/` -/
def visitRegex : Regex Char :=
  .seq twoLetters <| .seq positive <| .seq (.cls (· = '-')) positive

def startsPositive (cs : List Char) : Bool := cs.head?.any (· ≠ '0')

/-- The groups of the expression, each number as long as its digits go on. -/
def exec : List Char → Option (List Char × List Char × List Char)
  | a :: b :: rest =>
    if a.isLower ∧ b.isLower then
      match rest.span Char.isDigit with
      | (proposalNumber, '-' :: rest) =>
        match rest.span Char.isDigit with
        | (number, _) =>
          if startsPositive proposalNumber ∧ startsPositive number then
            some ([a, b], proposalNumber, number)
          else none
      | _ => none
    else none
  | _ => none

variable {cs code n m : List Char}

/-- What the groups are of: a match and what is left over behind it. -/
structure IsMatch (cs code n m rest : List Char) : Prop where
  text : code ++ (n ++ '-' :: (m ++ rest)) = cs
  code : code ∈ twoLetters.lang
  proposalNumber : n ∈ positive.lang
  number : m ∈ positive.lang
  maximal : ∀ c ∈ rest.head?, c.isDigit = false

theorem ne_nil_of_startsPositive (h : startsPositive n) : n ≠ [] := by
  rintro rfl
  cases h

theorem isAlpha_of_isLower {c : Char} (h : c.isLower) : c.isAlpha :=
  Bool.or_eq_true_iff.mpr (.inr h)

theorem mem_positive_iff : n ∈ positive.lang ↔ startsPositive n ∧ ∀ c ∈ n, c.isDigit := by
  simp only [positive, mem_lang_seq, mem_lang_cls, mem_lang_star_cls, Bool.and_eq_true,
    decide_eq_true_eq]
  constructor
  · rintro ⟨_, ⟨c, ⟨hdigit, hc⟩, rfl⟩, w, hw, rfl⟩
    exact ⟨by simpa [startsPositive] using hc, List.forall_mem_cons.mpr ⟨hdigit, hw⟩⟩
  · rintro ⟨hpositive, hdigits⟩
    cases n with
    | nil => cases hpositive
    | cons c w =>
      obtain ⟨hdigit, hw⟩ := List.forall_mem_cons.mp hdigits
      have hc : c ≠ '0' := by simpa [startsPositive] using hpositive
      exact ⟨[c], ⟨c, ⟨hdigit, hc⟩, rfl⟩, w, hw, rfl⟩

theorem mem_twoLetters_iff :
    code ∈ twoLetters.lang ↔ ∃ a b, code = [a, b] ∧ a.isLower ∧ b.isLower := by
  simp only [twoLetters, mem_lang_seq, mem_lang_cls]
  constructor
  · rintro ⟨_, ⟨a, ha, rfl⟩, _, ⟨b, hb, rfl⟩, rfl⟩
    exact ⟨a, b, rfl, ha, hb⟩
  · rintro ⟨a, b, rfl, ha, hb⟩
    exact ⟨[a], ⟨a, ha, rfl⟩, [b], ⟨b, hb, rfl⟩, rfl⟩

theorem span_hyphen {rest : List Char} (hn : ∀ c ∈ n, c.isDigit) :
    (n ++ '-' :: rest).span Char.isDigit = (n, '-' :: rest) := by
  refine span_eq_iff.mpr ⟨rfl, hn, fun c hc => ?_⟩
  obtain rfl := Option.some_inj.mp hc
  rfl

theorem exec_eq_some_iff :
    exec cs = some (code, n, m) ↔ ∃ rest, IsMatch cs code n m rest := by
  constructor
  · intro h
    unfold exec at h
    split at h
    next a b tail =>
      split_ifs at h with hletters
      split at h
      next n' tail' hn =>
        obtain ⟨rfl, hndigits, -⟩ := span_eq_iff.mp hn
        split at h
        next m' rest hm =>
          obtain ⟨rfl, hmdigits, hmaximal⟩ := span_eq_iff.mp hm
          split_ifs at h with hpositive
          cases h
          exact ⟨rest, rfl, mem_twoLetters_iff.mpr ⟨a, b, rfl, hletters⟩,
            mem_positive_iff.mpr ⟨hpositive.1, hndigits⟩,
            mem_positive_iff.mpr ⟨hpositive.2, hmdigits⟩, hmaximal⟩
      next => cases h
    next => cases h
  · rintro ⟨rest, rfl, hcode, hn, hm, hmaximal⟩
    obtain ⟨a, b, rfl, hletters⟩ := mem_twoLetters_iff.mp hcode
    obtain ⟨hnpositive, hndigits⟩ := mem_positive_iff.mp hn
    obtain ⟨hmpositive, hmdigits⟩ := mem_positive_iff.mp hm
    have hnumber : (m ++ rest).span Char.isDigit = (m, rest) :=
      span_eq_iff.mpr ⟨rfl, hmdigits, hmaximal⟩
    simp only [exec, List.cons_append, List.nil_append, span_hyphen hndigits, hnumber]
    rw [if_pos hletters, if_pos ⟨hnpositive, hmpositive⟩]

/-- There are groups exactly when the expression matches at the start of the text. -/
theorem exec_isSome_iff : (exec cs).isSome ↔ visitRegex.matchesPrefix cs := by
  rw [Option.isSome_iff_exists, matchesPrefix_iff]
  simp only [visitRegex, mem_lang_seq, mem_lang_cls, decide_eq_true_eq]
  constructor
  · rintro ⟨⟨code, n, m⟩, h⟩
    obtain ⟨rest, rfl, hcode, hn, hm, -⟩ := exec_eq_some_iff.mp h
    refine ⟨_, ⟨code, hcode, _, ⟨n, hn, _, ⟨_, ⟨'-', rfl, rfl⟩, m, hm, rfl⟩, rfl⟩, rfl⟩, rest, ?_⟩
    simp
  · rintro ⟨_, ⟨code, hcode, _, ⟨n, hn, _, ⟨_, ⟨_, rfl, rfl⟩, m, hm, rfl⟩, rfl⟩, rfl⟩, v, rfl⟩
    -- the last group also takes the digits behind the shortest match
    obtain ⟨⟨more, rest⟩, hmore⟩ : ∃ split, v.span Char.isDigit = split := ⟨_, rfl⟩
    obtain ⟨rfl, hdigits, hmaximal⟩ := span_eq_iff.mp hmore
    obtain ⟨hpositive, hmdigits⟩ := mem_positive_iff.mp hm
    have hlong : m ++ more ∈ positive.lang := by
      refine mem_positive_iff.mpr ⟨?_, List.forall_mem_append.mpr ⟨hmdigits, hdigits⟩⟩
      cases m with
      | nil => cases hpositive
      | cons c m => exact hpositive
    refine ⟨_, exec_eq_some_iff.mpr ⟨rest, ?_, hcode, hn, hlong, hmaximal⟩⟩
    simp

end VisitRegex

section Split

/-- `regexToVisit` of the component library, the numbers as they stand in the text. -/
def regexToVisit (groups : List Char × List Char × List Char) : Visit where
  proposalCode := String.ofList groups.1
  proposalNumber := Nat.ofDigitChars 10 groups.2.1 0
  number := Nat.ofDigitChars 10 groups.2.2 0

def visitTextToVisit (visitid : String) : Option Visit :=
  if visitid = "" then none else (exec visitid.toList).map regexToVisit

def splitWorkflowId (id : String) : Option SplitId :=
  if id = "" then none
  else
    match splitColons id with
    | [] => none
    | visitid :: rest =>
      match visitTextToVisit visitid with
      | none => none
      | some visit =>
        match rest with
        | [workflowName, uid] => some { visit, workflowName := some workflowName, uid := some uid }
        | _ => some { visit, workflowName := none, uid := none }

/-- Where the frontend finds a visit, a name and a uid, the backend finds the same. -/
def Agrees (decimal : DecimalNumber) (id : String) : Prop :=
  ∀ visit name uid,
    splitWorkflowId id = some { visit, workflowName := some name, uid := some uid } →
      ∃ input, parseWorkflowId decimal id = .ok (input, name, uid) ∧ .ofInput input = visit

/-- The expression matches all of the visit, and both numbers fit in 32 bits. -/
def MatchesWholly (id : String) : Prop :=
  ∀ visitid name uid, splitColons id = [visitid, name, uid] →
    ∀ code n m, exec visitid.toList = some (code, n, m) →
      code ++ (n ++ '-' :: m) = visitid.toList ∧ Nat.ofDigitChars 10 n 0 < 2 ^ 32 ∧
        Nat.ofDigitChars 10 m 0 < 2 ^ 32

variable {decimal : DecimalNumber} {id visitid name uid : String} {code n m : List Char}

theorem splitWorkflowId_eq_some_iff {visit : Visit} :
    splitWorkflowId id = some { visit, workflowName := some name, uid := some uid } ↔
      ∃ visitid, splitColons id = [visitid, name, uid] ∧
        (exec visitid.toList).map regexToVisit = some visit := by
  constructor
  · intro h
    unfold splitWorkflowId at h
    split_ifs at h
    split at h
    next => cases h
    next visitid rest hsplit =>
      split at h
      next => cases h
      next visit' hvisit =>
        unfold visitTextToVisit at hvisit
        split_ifs at hvisit
        split at h
        next name' uid' =>
          cases h
          exact ⟨visitid, hsplit, hvisit⟩
        next => cases h
  · rintro ⟨visitid, hsplit, hvisit⟩
    have hid : id ≠ "" := by
      rintro rfl
      simp [splitColons] at hsplit
    have hvisitid : visitid ≠ "" := by
      rintro rfl
      cases hvisit
    simp only [splitWorkflowId, if_neg hid, hsplit, visitTextToVisit, if_neg hvisitid, hvisit]

theorem parseWorkflowId_eq_ok_iff {input : VisitInput} :
    parseWorkflowId decimal id = .ok (input, name, uid) ↔
      ∃ visitid, splitColons id = [visitid, name, uid] ∧
        VisitInput.fromStr decimal visitid = .ok input := by
  constructor
  · intro h
    unfold parseWorkflowId at h
    split at h
    next visitid name' uid' hsplit =>
      split at h
      next => cases h
      next input' hread =>
        cases h
        exact ⟨visitid, hsplit, hread⟩
    next => cases h
  · rintro ⟨visitid, hsplit, hread⟩
    simp only [parseWorkflowId, hsplit, hread]

/-- The backend reads a visit as the expression does exactly when that matches it up to the end. -/
theorem exists_fromStr_iff (h : exec visitid.toList = some (code, n, m)) :
    (∃ input, VisitInput.fromStr decimal visitid = .ok input ∧
        .ofInput input = regexToVisit (code, n, m)) ↔
      code ++ (n ++ '-' :: m) = visitid.toList ∧ Nat.ofDigitChars 10 n 0 < 2 ^ 32 ∧
        Nat.ofDigitChars 10 m 0 < 2 ^ 32 := by
  obtain ⟨rest, htext, hcode, hn, hm, hmaximal⟩ := exec_eq_some_iff.mp h
  obtain ⟨a, b, rfl, ha, hb⟩ := mem_twoLetters_iff.mp hcode
  obtain ⟨hnpositive, hndigits⟩ := mem_positive_iff.mp hn
  obtain ⟨hmpositive, hmdigits⟩ := mem_positive_iff.mp hm
  constructor
  · rintro ⟨input, hread, hvisit⟩
    obtain ⟨n', m', htext', -, ⟨-, hndigits', -⟩, -, hmdigits', -⟩ := fromStr_eq_ok_iff.mp hread
    simp only [Visit.ofInput, regexToVisit, Visit.mk.injEq] at hvisit
    obtain ⟨hcode', hn', hm'⟩ := hvisit
    refine ⟨?_, hn' ▸ input.proposalNumber.toNat_lt, hm' ▸ input.number.toNat_lt⟩
    rw [hcode', String.toList_ofList, ← htext, List.append_cancel_left_eq] at htext'
    have hspan : (n' ++ '-' :: m').span Char.isDigit = (n', '-' :: m') := span_hyphen hndigits'
    rw [htext', span_hyphen hndigits] at hspan
    obtain ⟨-, hrest⟩ := Prod.mk.inj hspan
    obtain rfl := List.tail_eq_of_cons_eq hrest
    cases rest with
    | nil => rw [← htext, List.append_nil]
    | cons c rest =>
      cases (hmaximal c rfl).symm.trans (hmdigits' c (by simp))
  · rintro ⟨hwhole, hnfits, hmfits⟩
    have hnumber : (UInt32.ofNat (Nat.ofDigitChars 10 n 0)).toNat = Nat.ofDigitChars 10 n 0 :=
      UInt32.toNat_ofNat_of_lt' hnfits
    have hvisitNumber : (UInt32.ofNat (Nat.ofDigitChars 10 m 0)).toNat =
        Nat.ofDigitChars 10 m 0 := UInt32.toNat_ofNat_of_lt' hmfits
    refine ⟨⟨String.ofList [a, b], .ofNat (Nat.ofDigitChars 10 n 0),
      .ofNat (Nat.ofDigitChars 10 m 0)⟩, fromStr_eq_ok_iff.mpr ⟨n, m, ?_, ?_, ?_, ?_⟩, ?_⟩
    · rw [String.toList_ofList, hwhole]
    · rw [String.toList_ofList]
      refine ⟨by simp, ?_⟩
      simp only [List.mem_cons, List.not_mem_nil, or_false, forall_eq_or_imp, forall_eq]
      exact ⟨isAlpha_of_isLower ha, isAlpha_of_isLower hb⟩
    · exact ⟨ne_nil_of_startsPositive hnpositive, hndigits, hnumber.symm⟩
    · exact ⟨ne_nil_of_startsPositive hmpositive, hmdigits, hvisitNumber.symm⟩
    · simp only [Visit.ofInput, regexToVisit, hnumber, hvisitNumber]

/-- Frontend and backend agree on an ID exactly when the visit is matched up to its end and its
numbers fit. -/
theorem agrees_iff (decimal : DecimalNumber) (id : String) :
    Agrees decimal id ↔ MatchesWholly id := by
  constructor
  · intro h visitid name uid hsplit code n m hexec
    obtain ⟨input, hparse, hvisit⟩ := h (regexToVisit (code, n, m)) name uid
      (splitWorkflowId_eq_some_iff.mpr ⟨visitid, hsplit, by rw [hexec]; rfl⟩)
    obtain ⟨visitid', hsplit', hread⟩ := parseWorkflowId_eq_ok_iff.mp hparse
    obtain rfl := (List.cons.inj (hsplit.symm.trans hsplit')).1
    exact (exists_fromStr_iff hexec).mp ⟨input, hread, hvisit⟩
  · intro h visit name uid hsplitId
    obtain ⟨visitid, hsplit, hvisit⟩ := splitWorkflowId_eq_some_iff.mp hsplitId
    obtain ⟨⟨code, n, m⟩, hexec, rfl⟩ := Option.map_eq_some_iff.mp hvisit
    obtain ⟨input, hread, hinput⟩ :=
      (exists_fromStr_iff hexec).mpr (h visitid name uid hsplit code n m hexec)
    exact ⟨input, parseWorkflowId_eq_ok_iff.mpr ⟨visitid, hsplit, hread⟩, hinput⟩

/-- Text behind the visit is taken by the frontend and refused by the backend. -/
theorem not_agrees : ¬Agrees .ofAscii "mg1-1abc:steps:19563" := by
  intro h
  obtain ⟨input, hparse, -⟩ := h ⟨"mg", 1, 1⟩ "steps" "19563" (by decide +kernel)
  have herror :
      parseWorkflowId .ofAscii "mg1-1abc:steps:19563" = .error "Invalid visit format" := by
    decide +kernel
  cases herror.symm.trans hparse

end Split

end Workflows.Frontend
