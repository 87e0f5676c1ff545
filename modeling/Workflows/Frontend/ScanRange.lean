import Workflows.Foundations.Double
import Workflows.Foundations.Regex
import Workflows.Foundations.Separator
import Mathlib.Data.List.Sort

/-!
# Scan ranges

The excluded scans are written as numbers and ranges. A range is expanded by counting up in floating
point, so that the loop over it may not end; `none` stands for a loop that has not ended within the
fuel.
-/

namespace Workflows.Frontend

open Regex Separator

section Text

/-- `\s`, which is also what `trim` removes. -/
def isWhiteSpace (c : Char) : Bool :=
  [9, 10, 11, 12, 13, 32, 160, 5760, 8232, 8233, 8239, 8287, 12288, 65279].contains c.toNat ||
    (8192 ≤ c.toNat && c.toNat ≤ 8202)

def trim (cs : List Char) : List Char :=
  ((cs.dropWhile isWhiteSpace).reverse.dropWhile isWhiteSpace).reverse

/-- `/^\d+$/` -/
def digits : Regex Char := plus (.cls Char.isDigit)

/-- `/^\d+-\d+$/` -/
def digitsRange : Regex Char := .seq digits (.seq (.cls (· = '-')) digits)

/-- `Number`, of digits. -/
def number (cs : List Char) : Double := Double.ofNat (Nat.ofDigitChars 10 cs 0)

def isStrictPositiveInteger (value : List Char) : Bool :=
  digits.accepts value && decide (0 ≤ number value)

end Text

section Parse

def isSeparator (c : Char) : Bool := isWhiteSpace c || c = ','

def isBracket (c : Char) : Bool := c = '[' || c = ']'

def parts (input : String) : List (List Char) :=
  ((splitRuns isSeparator (input.toList.filter (!isBracket ·))).map trim).filter (· ≠ [])

/-- A set in the order in which its members were added. -/
def setAdd (set : List Double) (x : Double) : List Double := if x ∈ set then set else set ++ [x]

/-- The loop over a range. -/
def expand : Nat → Double → Double → List Double → Option (List Double)
  | 0, _, _, _ => none
  | fuel + 1, i, e, set => if i ≤ e then expand fuel i.succ e (setAdd set i) else some set

def parsePart (fuel : Nat) (set : List Double) (part : List Char) :
    Option (Except String (List Double)) :=
  if digits.accepts part then some (.ok (setAdd set (number part)))
  else if digitsRange.accepts part then
    let (startStr, rest) := part.span (· ≠ '-')
    let endStr := rest.drop 1
    if !isStrictPositiveInteger startStr || !isStrictPositiveInteger endStr then
      some (.error "Invalid range")
    else if number endStr ≤ number startStr then some (.error "Invalid range")
    else (expand fuel (number startStr) (number endStr) set).map .ok
  else some (.error "Must be positive integers or ranges")

def parseParts (fuel : Nat) : List (List Char) → List Double → Option (Except String (List Double))
  | [], set => some (.ok set)
  | part :: parts, set =>
    (parsePart fuel set part).bind fun
      | .ok set => parseParts fuel parts set
      | .error message => some (.error message)

def parseExcludedScans (fuel : Nat) (input : String) : Option (Except String (List Double)) :=
  (parseParts fuel (parts input) []).map fun outcome =>
    outcome.map fun set => set.insertionSort (· ≤ ·)

/-- What parsing comes to, where it ends. -/
def Gives (input : String) (outcome : Except String (List Double)) : Prop :=
  ∃ fuel, parseExcludedScans fuel input = some outcome

end Parse

section Tokens

/-- A decimal number. -/
structure IsDecimal (cs : List Char) (n : Nat) : Prop where
  ne : cs ≠ []
  digits : ∀ c ∈ cs, c.isDigit
  value : Nat.ofDigitChars 10 cs 0 = n

/-- The numbers from `lo` to `hi` that a token stands for. -/
inductive Denotes : List Char → Nat → Nat → Prop where
  | number {cs : List Char} {n : Nat} (h : IsDecimal cs n) : Denotes cs n n
  | range {as bs : List Char} {a b : Nat} (ha : IsDecimal as a) (hb : IsDecimal bs b)
      (hlt : a < b) : Denotes (as ++ '-' :: bs) a b

/-- A number that stands in a token, alone or at an end of a range. -/
inductive NumberIn : List Char → Nat → Prop where
  | number {cs : List Char} {n : Nat} (h : IsDecimal cs n) : NumberIn cs n
  | start {as bs : List Char} {a b : Nat} (ha : IsDecimal as a) (hb : IsDecimal bs b) :
      NumberIn (as ++ '-' :: bs) a
  | end {as bs : List Char} {a b : Nat} (ha : IsDecimal as a) (hb : IsDecimal bs b) :
      NumberIn (as ++ '-' :: bs) b

variable {cs as bs : List Char} {n a b fuel : Nat} {set : List Double}

theorem digits_accepts : digits.accepts cs ↔ ∃ n, IsDecimal cs n := by
  rw [accepts_iff, digits, mem_lang_plus_cls]
  exact ⟨fun h => ⟨_, h.1, h.2, rfl⟩, fun ⟨_, h⟩ => ⟨h.ne, h.digits⟩⟩

theorem digitsRange_accepts :
    digitsRange.accepts cs ↔
      ∃ as a bs b, IsDecimal as a ∧ IsDecimal bs b ∧ cs = as ++ '-' :: bs := by
  simp only [accepts_iff, digitsRange, mem_lang_seq, mem_lang_cls, decide_eq_true_eq]
  constructor
  · rintro ⟨as, has, _, ⟨_, ⟨_, rfl, rfl⟩, bs, hbs, rfl⟩, rfl⟩
    obtain ⟨a, ha⟩ := digits_accepts.mp (accepts_iff.mpr has)
    obtain ⟨b, hb⟩ := digits_accepts.mp (accepts_iff.mpr hbs)
    exact ⟨as, a, bs, b, ha, hb, rfl⟩
  · rintro ⟨as, a, bs, b, ha, hb, rfl⟩
    exact ⟨as, accepts_iff.mp (digits_accepts.mpr ⟨a, ha⟩), _,
      ⟨_, ⟨'-', rfl, rfl⟩, bs, accepts_iff.mp (digits_accepts.mpr ⟨b, hb⟩), rfl⟩, rfl⟩

theorem IsDecimal.of_all (hne : cs ≠ []) (h : cs.all Char.isDigit) :
    IsDecimal cs (Nat.ofDigitChars 10 cs 0) :=
  ⟨hne, List.all_eq_true.mp h, rfl⟩

theorem IsDecimal.number_eq (h : IsDecimal cs n) : number cs = Double.ofNat n := by
  rw [number, h.value]

theorem IsDecimal.unique {m : Nat} (hm : IsDecimal cs m) (hn : IsDecimal cs n) : m = n :=
  hm.value.symm.trans hn.value

theorem isStrictPositiveInteger_iff : isStrictPositiveInteger cs ↔ ∃ n, IsDecimal cs n := by
  rw [isStrictPositiveInteger, Bool.and_eq_true, digits_accepts]
  simp

theorem IsDecimal.not_mem (h : IsDecimal cs n) : '-' ∉ cs := fun hmem =>
  absurd (h.digits '-' hmem) (by decide)

theorem not_isDecimal_range : ¬IsDecimal (as ++ '-' :: bs) n := fun h => h.not_mem (by simp)

theorem range_inj {as' bs' : List Char} {a' b' : Nat} (ha : IsDecimal as a)
    (ha' : IsDecimal as' a') (hb : IsDecimal bs b) (hb' : IsDecimal bs' b')
    (h : as ++ '-' :: bs = as' ++ '-' :: bs') : a = a' ∧ b = b' := by
  obtain ⟨rfl, rfl⟩ := append_inj ha.not_mem ha'.not_mem h
  exact ⟨ha.unique ha', hb.unique hb'⟩

theorem parsePart_number (h : IsDecimal cs n) :
    parsePart fuel set cs = some (.ok (setAdd set (Double.ofNat n))) := by
  rw [parsePart, if_pos (digits_accepts.mpr ⟨n, h⟩), h.number_eq]

theorem parsePart_range (ha : IsDecimal as a) (hb : IsDecimal bs b) :
    parsePart fuel set (as ++ '-' :: bs) =
      if Double.ofNat b ≤ Double.ofNat a then some (.error "Invalid range")
      else (expand fuel (Double.ofNat a) (Double.ofNat b) set).map .ok := by
  have hrange := digitsRange_accepts.mpr ⟨as, a, bs, b, ha, hb, rfl⟩
  have hnumber : ¬digits.accepts (as ++ '-' :: bs) := fun h =>
    not_isDecimal_range (digits_accepts.mp h).choose_spec
  have hstart := isStrictPositiveInteger_iff.mpr ⟨a, ha⟩
  have hend := isStrictPositiveInteger_iff.mpr ⟨b, hb⟩
  rw [parsePart, if_neg hnumber, if_pos hrange, span_append ha.not_mem]
  simp only [List.drop_one, List.tail_cons, hstart, hend, ha.number_eq, hb.number_eq,
    Bool.not_true, Bool.or_self, Bool.false_eq_true, if_false]

theorem parsePart_other (hnumber : ∀ n, ¬IsDecimal cs n)
    (hrange : ∀ as a bs b, IsDecimal as a → IsDecimal bs b → cs ≠ as ++ '-' :: bs) :
    parsePart fuel set cs = some (.error "Must be positive integers or ranges") := by
  rw [parsePart, if_neg, if_neg]
  · rw [digitsRange_accepts]
    rintro ⟨as, a, bs, b, ha, hb, h⟩
    exact hrange as a bs b ha hb h
  · rw [digits_accepts]
    exact fun ⟨n, h⟩ => hnumber n h

end Tokens

section Loop

structure Adds (set set' : List Double) (new : Set Double) : Prop where
  nodup : set.Nodup → set'.Nodup
  mem : ∀ x, x ∈ set' ↔ x ∈ set ∨ x ∈ new

variable {fuel more a b : Nat} {i e x : Double} {set set' : List Double} {new new' : Set Double}

theorem adds_setAdd : Adds set (setAdd set x) {x} where
  nodup hnodup := by
    rw [setAdd]
    split_ifs with hmem
    · exact hnodup
    · exact List.nodup_append'.mpr ⟨hnodup, List.nodup_singleton x, by simpa using hmem⟩
  mem y := by
    rw [setAdd]
    split_ifs with hmem
    · exact (or_iff_left_of_imp fun hy => Set.mem_singleton_iff.mp hy ▸ hmem).symm
    · simp

theorem Adds.trans {set'' : List Double} (h : Adds set set' new) (h' : Adds set' set'' new') :
    Adds set set'' (new ∪ new') where
  nodup hnodup := h'.nodup (h.nodup hnodup)
  mem x := by rw [h'.mem, h.mem, or_assoc, Set.mem_union]

theorem Adds.refl : Adds set set ∅ := ⟨id, fun x => by simp⟩

theorem Adds.congr (h : Adds set set' new) (hnew : new = new') : Adds set set' new' := hnew ▸ h

/-- The loop over a range of small numbers adds all of them. -/
theorem expand_small (hb : b < 2 ^ 53) (hab : a ≤ b + 1) (hfuel : b + 2 ≤ fuel + a) :
    ∃ set', expand fuel a b set = some set' ∧
      Adds set set' {x | ∃ n : Nat, a ≤ n ∧ n ≤ b ∧ x = n} := by
  induction fuel generalizing a set with
  | zero => omega
  | succ fuel ih =>
    rw [expand]
    split_ifs with hle
    · have hle := Nat.cast_le.mp hle
      rw [Double.succ_of_lt (by omega)]
      obtain ⟨set', hexpand, hadds⟩ := @ih (a + 1) (setAdd set a) (by omega) (by omega)
      refine ⟨set', hexpand, (adds_setAdd.trans hadds).congr (Set.ext fun x => ?_)⟩
      simp only [Set.singleton_union, Set.mem_insert_iff, Set.mem_ofPred_eq]
      constructor
      · rintro (rfl | ⟨n, hn, hnb, rfl⟩)
        · exact ⟨a, le_rfl, hle, rfl⟩
        · exact ⟨n, by omega, hnb, rfl⟩
      · rintro ⟨n, hn, hnb, rfl⟩
        obtain rfl | hlt := eq_or_lt_of_le hn
        · exact .inl rfl
        · exact .inr ⟨n, hlt, hnb, rfl⟩
    · have hgt : ¬a ≤ b := fun h => hle (Nat.cast_le.mpr h)
      refine ⟨set, rfl, Adds.refl.congr (Set.ext fun x => ?_)⟩
      simp only [Set.mem_empty_iff_false, Set.mem_ofPred_eq, false_iff]
      rintro ⟨n, hn, hnb, -⟩
      omega

/-- The loop up to a large number does not end. -/
theorem expand_large (he : e.IsDouble) (hle : (2 ^ 53 : Nat) ≤ e) (hi : i.IsDouble)
    (h : i.Inside e) : expand fuel i e set = none := by
  induction fuel generalizing i set with
  | zero => rfl
  | succ fuel ih =>
    have hie : i ≤ e := h.elim le_of_lt fun h => h.1.le
    rw [expand, if_pos hie]
    exact ih (Double.isDouble_succ i) (h.step hi he hle)

theorem expand_nodup (h : expand fuel i e set = some set') (hset : set.Nodup) : set'.Nodup := by
  induction fuel generalizing i set with
  | zero => cases h
  | succ fuel ih =>
    rw [expand] at h
    split_ifs at h with hie
    · exact ih h (adds_setAdd.nodup hset)
    · exact Option.some_inj.mp h ▸ hset

theorem expand_mono (hle : fuel ≤ more) (h : expand fuel i e set = some set') :
    expand more i e set = some set' := by
  induction fuel generalizing more i set with
  | zero => cases h
  | succ fuel ih =>
    obtain ⟨more, rfl⟩ := Nat.exists_eq_add_of_le' (Nat.le_of_add_left_le hle)
    rw [expand] at h ⊢
    split_ifs at h ⊢ with hie
    · exact ih (Nat.le_of_add_le_add_right hle) h
    · exact h

end Loop

section Steps

/-- A token that parsing stops at with an error. -/
structure Refused (token : List Char) : Prop where
  number : ∀ n, ¬IsDecimal token n
  range : ∀ as a bs b, IsDecimal as a → IsDecimal bs b → token = as ++ '-' :: bs →
    Double.ofNat b ≤ Double.ofNat a

/-- A range that goes on to numbers that counting up does not get past. -/
inductive Endless : List Char → Prop where
  | range {as bs : List Char} {a b : Nat} (ha : IsDecimal as a) (hb : IsDecimal bs b)
      (hlt : Double.ofNat a < Double.ofNat b) (hlarge : 2 ^ 53 ≤ b) : Endless (as ++ '-' :: bs)

def denoted (token : List Char) : Set Double :=
  {x | ∃ lo hi n, Denotes token lo hi ∧ lo ≤ n ∧ n ≤ hi ∧ x = Double.ofNat n}

def enoughFuel : Nat := 2 ^ 53 + 2

variable {token : List Char} {tokens front back : List (List Char)} {fuel more n : Nat}
  {set set' : List Double} {message : String} {outcome : Except String (List Double)}

theorem token_cases (token : List Char) :
    (∃ n, IsDecimal token n) ∨
      (∃ as a bs b, IsDecimal as a ∧ IsDecimal bs b ∧ token = as ++ '-' :: bs) ∨
      ((∀ n, ¬IsDecimal token n) ∧
        ∀ as a bs b, IsDecimal as a → IsDecimal bs b → token ≠ as ++ '-' :: bs) := by
  by_cases hnumber : ∃ n, IsDecimal token n
  · exact .inl hnumber
  by_cases hrange : ∃ as a bs b, IsDecimal as a ∧ IsDecimal bs b ∧ token = as ++ '-' :: bs
  · exact .inr (.inl hrange)
  · refine .inr (.inr ⟨not_exists.mp hnumber, fun as a bs b ha hb h => hrange ?_⟩)
    exact ⟨as, a, bs, b, ha, hb, h⟩

/-- A token adds its number, or runs the loop over its range, or is refused with a message. -/
theorem parsePart_cases (token : List Char) :
    (∃ x, ∀ fuel set, parsePart fuel set token = some (.ok (setAdd set x))) ∨
      (∃ i e, ∀ fuel set, parsePart fuel set token = (expand fuel i e set).map .ok) ∨
      ∃ message, message ≠ "" ∧
        ∀ fuel set, parsePart fuel set token = some (.error message) := by
  obtain ⟨n, hn⟩ | ⟨as, a, bs, b, ha, hb, rfl⟩ | ⟨hnumber, hrange⟩ := token_cases token
  · exact .inl ⟨_, fun fuel set => parsePart_number hn⟩
  · by_cases hle : Double.ofNat b ≤ Double.ofNat a
    · refine .inr (.inr ⟨"Invalid range", by decide, fun fuel set => ?_⟩)
      rw [parsePart_range ha hb, if_pos hle]
    · refine .inr (.inl ⟨Double.ofNat a, Double.ofNat b, fun fuel set => ?_⟩)
      rw [parsePart_range ha hb, if_neg hle]
  · exact .inr (.inr ⟨_, by decide, fun fuel set => parsePart_other hnumber hrange⟩)

theorem parsePart_refused (h : Refused token) :
    ∃ message, ∀ fuel set, parsePart fuel set token = some (.error message) := by
  obtain ⟨n, hn⟩ | ⟨as, a, bs, b, ha, hb, rfl⟩ | ⟨hnumber, hrange⟩ := token_cases token
  · exact absurd hn (h.number n)
  · refine ⟨"Invalid range", fun fuel set => ?_⟩
    rw [parsePart_range ha hb, if_pos (h.range as a bs b ha hb rfl)]
  · exact ⟨_, fun fuel set => parsePart_other hnumber hrange⟩

theorem parsePart_endless (h : Endless token) : parsePart fuel set token = none := by
  obtain ⟨ha, hb, hlt, hlarge⟩ := h
  have hend : ((2 ^ 53 : Nat) : Double) ≤ Double.ofNat _ :=
    not_lt.mp fun hsmall => absurd (Double.ofNat_lt_iff.mp hsmall) (not_lt.mpr hlarge)
  rw [parsePart_range ha hb, if_neg (not_le.mpr hlt), expand_large (Double.isDouble_ofNat _) hend
    (Double.isDouble_ofNat _) (.inl hlt)]
  rfl

theorem mem_denoted {x : Double} :
    x ∈ denoted token ↔
      ∃ lo hi n, Denotes token lo hi ∧ lo ≤ n ∧ n ≤ hi ∧ x = Double.ofNat n := Iff.rfl

theorem denoted_number (h : IsDecimal token n) : denoted token = {Double.ofNat n} := by
  ext x
  rw [mem_denoted, Set.mem_singleton_iff]
  constructor
  · rintro ⟨lo, hi, m, hdenotes, hlo, hhi, hx⟩
    cases hdenotes with
    | number h' => rw [hx, le_antisymm hhi hlo, h'.unique h]
    | range => exact absurd h not_isDecimal_range
  · exact fun hx => ⟨n, n, n, .number h, le_rfl, le_rfl, hx⟩

variable {as bs : List Char} {a b : Nat}

theorem denoted_range (ha : IsDecimal as a) (hb : IsDecimal bs b) (hlt : a < b) :
    denoted (as ++ '-' :: bs) = {x | ∃ n, a ≤ n ∧ n ≤ b ∧ x = Double.ofNat n} := by
  ext x
  rw [mem_denoted, Set.mem_ofPred_eq]
  constructor
  · rintro ⟨lo, hi, m, hdenotes, hlo, hhi, hx⟩
    generalize htoken : as ++ '-' :: bs = token at hdenotes
    cases hdenotes with
    | number h' => exact absurd (htoken ▸ h') not_isDecimal_range
    | range ha' hb' =>
      obtain ⟨rfl, rfl⟩ := range_inj ha ha' hb hb' htoken
      exact ⟨m, hlo, hhi, hx⟩
  · rintro ⟨m, hlo, hhi, hx⟩
    exact ⟨a, b, m, .range ha hb hlt, hlo, hhi, hx⟩

theorem lt_of_not_refused (ha : IsDecimal as a) (hb : IsDecimal bs b)
    (h : ¬Refused (as ++ '-' :: bs)) : Double.ofNat a < Double.ofNat b := by
  by_contra hle
  refine h ⟨fun n => not_isDecimal_range, fun as' a' bs' b' ha' hb' heq => ?_⟩
  obtain ⟨rfl, rfl⟩ := range_inj ha ha' hb hb' heq
  exact not_lt.mp hle

theorem lt_of_ofNat_lt (hb : b < 2 ^ 53) (h : Double.ofNat a < Double.ofNat b) : a < b := by
  have ha : a < 2 ^ 53 := Double.ofNat_lt_iff.mp (h.trans (Double.ofNat_lt_iff.mpr hb))
  rw [Double.ofNat_of_le ha.le, Double.ofNat_of_le hb.le] at h
  exact Nat.cast_lt.mp h

theorem parsePart_ok (hrefused : ¬Refused token) (hendless : ¬Endless token)
    (hfuel : enoughFuel ≤ fuel) :
    ∃ set', parsePart fuel set token = some (.ok set') ∧ Adds set set' (denoted token) := by
  obtain ⟨n, hn⟩ | ⟨as, a, bs, b, ha, hb, rfl⟩ | ⟨hnumber, hrange⟩ := token_cases token
  · exact ⟨_, parsePart_number hn, adds_setAdd.congr (denoted_number hn).symm⟩
  · have hlt := lt_of_not_refused ha hb hrefused
    have hsmall : b < 2 ^ 53 := not_le.mp fun hlarge => hendless (.range ha hb hlt hlarge)
    have hab := lt_of_ofNat_lt hsmall hlt
    have hroom : b + 2 ≤ fuel + a := by
      rw [enoughFuel] at hfuel
      omega
    obtain ⟨set', hexpand, hadds⟩ := @expand_small fuel a b set hsmall (by omega) hroom
    refine ⟨set', ?_, hadds.congr ?_⟩
    · rw [parsePart_range ha hb, if_neg (not_le.mpr hlt), Double.ofNat_of_le hsmall.le,
        Double.ofNat_of_le (hab.trans hsmall).le, hexpand]
      rfl
    · rw [denoted_range ha hb hab]
      ext x
      refine exists_congr fun n => and_congr_right fun _ => and_congr_right fun hn => ?_
      rw [Double.ofNat_of_le (hn.trans hsmall.le)]
  · exact absurd ⟨hnumber, fun as a bs b ha hb h => absurd h (hrange as a bs b ha hb)⟩ hrefused

theorem parsePart_ne_error (h : ¬Refused token) :
    parsePart fuel set token ≠ some (.error message) := by
  obtain ⟨n, hn⟩ | ⟨as, a, bs, b, ha, hb, rfl⟩ | ⟨hnumber, hrange⟩ := token_cases token
  · rw [parsePart_number hn]
    simp
  · rw [parsePart_range ha hb, if_neg (not_le.mpr (lt_of_not_refused ha hb h))]
    simp
  · exact absurd ⟨hnumber, fun as a bs b ha hb h => absurd h (hrange as a bs b ha hb)⟩ h

/-- What is parsed up to a token that is not ended with is not told. -/
theorem parseParts_endless (hfront : ∀ t ∈ front, ¬Refused t) (h : Endless token) :
    parseParts fuel (front ++ token :: back) set = none := by
  induction front generalizing set with
  | nil => rw [List.nil_append, parseParts, parsePart_endless h, Option.bind_none]
  | cons t front ih =>
    obtain ⟨ht, hfront⟩ := List.forall_mem_cons.mp hfront
    rw [List.cons_append, parseParts]
    cases hpart : parsePart fuel set t with
    | none => rfl
    | some outcome =>
      cases outcome with
      | ok set' => exact ih hfront
      | error message => exact absurd hpart (parsePart_ne_error ht)

theorem parseParts_ok (hrefused : ∀ t ∈ tokens, ¬Refused t) (hendless : ∀ t ∈ tokens, ¬Endless t)
    (hfuel : enoughFuel ≤ fuel) :
    ∃ set', parseParts fuel tokens set = some (.ok set') ∧
      Adds set set' {x | ∃ t ∈ tokens, x ∈ denoted t} := by
  induction tokens generalizing set with
  | nil => exact ⟨set, rfl, Adds.refl.congr (by ext x; simp)⟩
  | cons t tokens ih =>
    obtain ⟨ht, hrefused⟩ := List.forall_mem_cons.mp hrefused
    obtain ⟨ht', hendless⟩ := List.forall_mem_cons.mp hendless
    obtain ⟨set', hpart, hadds⟩ := @parsePart_ok t fuel set ht ht' hfuel
    obtain ⟨set'', hparts, hadds'⟩ := @ih set' hrefused hendless
    refine ⟨set'', by rw [parseParts, hpart]; exact hparts, (hadds.trans hadds').congr ?_⟩
    ext x
    simp

theorem parseParts_error (hrefused : ∃ t ∈ tokens, Refused t)
    (hendless : ∀ t ∈ tokens, ¬Endless t) (hfuel : enoughFuel ≤ fuel) :
    ∃ message, parseParts fuel tokens set = some (.error message) := by
  induction tokens generalizing set with
  | nil => simp at hrefused
  | cons t tokens ih =>
    obtain ⟨ht', hendless⟩ := List.forall_mem_cons.mp hendless
    by_cases ht : Refused t
    · obtain ⟨message, hpart⟩ := parsePart_refused ht
      exact ⟨message, by rw [parseParts, hpart]; rfl⟩
    · obtain ⟨set', hpart, -⟩ := @parsePart_ok t fuel set ht ht' hfuel
      obtain ⟨t', ht'', hrefused⟩ := hrefused
      obtain rfl | hmem := List.mem_cons.mp ht''
      · exact absurd hrefused ht
      · obtain ⟨message, hparts⟩ := @ih set' ⟨t', hmem, hrefused⟩ hendless
        exact ⟨message, by rw [parseParts, hpart]; exact hparts⟩

theorem parseParts_ends (h : ∀ front token back, tokens = front ++ token :: back →
    Endless token → ∃ t ∈ front, Refused t) :
    ∃ outcome, parseParts enoughFuel tokens set = some outcome := by
  induction tokens generalizing set with
  | nil => exact ⟨_, rfl⟩
  | cons t tokens ih =>
    have ht' : ¬Endless t := fun hendless => by simpa using h [] t tokens rfl hendless
    by_cases ht : Refused t
    · obtain ⟨message, hpart⟩ := parsePart_refused ht
      exact ⟨.error message, by rw [parseParts, hpart]; rfl⟩
    · obtain ⟨set', hpart, -⟩ := @parsePart_ok t enoughFuel set ht ht' le_rfl
      rw [parseParts, hpart]
      refine ih fun front token back htokens hendless => ?_
      obtain ⟨t', hmem, hrefused⟩ := h (t :: front) token back (by rw [htokens]; rfl) hendless
      obtain rfl | hmem := List.mem_cons.mp hmem
      · exact absurd hrefused ht
      · exact ⟨t', hmem, hrefused⟩

theorem parsePart_nodup (h : parsePart fuel set token = some (.ok set')) (hset : set.Nodup) :
    set'.Nodup := by
  obtain ⟨x, hadd⟩ | ⟨i, e, hloop⟩ | ⟨message, -, herror⟩ := parsePart_cases token
  · rw [hadd] at h
    cases h
    exact adds_setAdd.nodup hset
  · rw [hloop] at h
    obtain ⟨set'', hexpand, heq⟩ := Option.map_eq_some_iff.mp h
    cases heq
    exact expand_nodup hexpand hset
  · cases (herror fuel set).symm.trans h

theorem parseParts_nodup (h : parseParts fuel tokens set = some (.ok set')) (hset : set.Nodup) :
    set'.Nodup := by
  induction tokens generalizing set with
  | nil =>
    cases h
    exact hset
  | cons t tokens ih =>
    obtain ⟨outcome, hpart, hrest⟩ := Option.bind_eq_some_iff.mp h
    cases outcome with
    | ok set'' => exact ih hrest (parsePart_nodup hpart hset)
    | error message => cases hrest

theorem parsePart_mono (hle : fuel ≤ more) (h : parsePart fuel set token = some outcome) :
    parsePart more set token = some outcome := by
  obtain ⟨x, hadd⟩ | ⟨i, e, hloop⟩ | ⟨message, -, herror⟩ := parsePart_cases token
  · rw [hadd] at h ⊢
    exact h
  · rw [hloop] at h ⊢
    obtain ⟨set', hexpand, rfl⟩ := Option.map_eq_some_iff.mp h
    rw [expand_mono hle hexpand]
    rfl
  · rw [herror] at h ⊢
    exact h

theorem parseParts_mono (hle : fuel ≤ more) (h : parseParts fuel tokens set = some outcome) :
    parseParts more tokens set = some outcome := by
  induction tokens generalizing set with
  | nil => exact h
  | cons t tokens ih =>
    rw [parseParts] at h ⊢
    obtain ⟨outcome', hpart, hrest⟩ := Option.bind_eq_some_iff.mp h
    rw [parsePart_mono hle hpart, Option.bind_some]
    cases outcome' with
    | ok set' => exact ih hrest
    | error message => exact hrest

end Steps

section Results

variable {input : String} {token : List Char} {fuel : Nat} {set scans : List Double}
  {message : String} {outcome outcome' : Except String (List Double)}

/-- Every number that stands in a token is below `2 ^ 53`. -/
def NumbersBelow (input : String) : Prop :=
  ∀ token ∈ parts input, ∀ n, NumberIn token n → n < 2 ^ 53

theorem not_endless (h : ∀ n, NumberIn token n → n < 2 ^ 53) : ¬Endless token := by
  rintro ⟨ha, hb, -, hlarge⟩
  exact absurd (h _ (.end ha hb)) (not_lt.mpr hlarge)

theorem Denotes.hi_lt {lo hi : Nat} (hdenotes : Denotes token lo hi)
    (h : ∀ n, NumberIn token n → n < 2 ^ 53) : hi < 2 ^ 53 := by
  cases hdenotes with
  | number hn => exact h _ (.number hn)
  | range ha hb => exact h _ (.end ha hb)

theorem refused_iff (h : ∀ n, NumberIn token n → n < 2 ^ 53) :
    Refused token ↔ ¬∃ lo hi, Denotes token lo hi := by
  constructor
  · rintro hrefused ⟨lo, hi, hdenotes⟩
    cases hdenotes with
    | number hn => exact hrefused.number _ hn
    | range ha hb hlt =>
      have hle := hrefused.range _ _ _ _ ha hb rfl
      rw [Double.ofNat_of_le (h _ (.start ha hb)).le, Double.ofNat_of_le (h _ (.end ha hb)).le]
        at hle
      exact absurd hlt (not_lt.mpr (Nat.cast_le.mp hle))
  · intro hnone
    refine ⟨fun n hn => hnone ⟨n, n, .number hn⟩, ?_⟩
    rintro as a bs b ha hb rfl
    by_contra hlt
    exact hnone ⟨a, b, .range ha hb (lt_of_ofNat_lt (h _ (.end ha hb)) (not_le.mp hlt))⟩

theorem gives_unique (h : Gives input outcome) (h' : Gives input outcome') :
    outcome = outcome' := by
  obtain ⟨fuel, hfuel⟩ := h
  obtain ⟨fuel', hfuel'⟩ := h'
  obtain ⟨parsed, hparsed, rfl⟩ := Option.map_eq_some_iff.mp hfuel
  obtain ⟨parsed', hparsed', rfl⟩ := Option.map_eq_some_iff.mp hfuel'
  have hmax := parseParts_mono (le_max_left fuel fuel') hparsed
  have hmax' := parseParts_mono (le_max_right fuel fuel') hparsed'
  rw [Option.some_inj.mp (hmax.symm.trans hmax')]

theorem pairwise_insertionSort_lt (hset : set.Nodup) :
    (set.insertionSort (· ≤ ·)).Pairwise (· < ·) := by
  have hsorted := List.pairwise_insertionSort (· ≤ ·) set
  have hnodup := (List.perm_insertionSort (· ≤ ·) set).nodup_iff.mpr hset
  exact (hsorted.and hnodup).imp fun h => lt_of_le_of_ne h.1 h.2

theorem gives_pairwise (h : Gives input (.ok scans)) : scans.Pairwise (· < ·) := by
  obtain ⟨fuel, hfuel⟩ := h
  obtain ⟨outcome, hparts, houtcome⟩ := Option.map_eq_some_iff.mp hfuel
  cases outcome with
  | ok set =>
    cases houtcome
    exact pairwise_insertionSort_lt (parseParts_nodup hparts List.nodup_nil)
  | error message => cases houtcome

theorem gives_ok (hrefused : ∀ t ∈ parts input, ¬Refused t)
    (hendless : ∀ t ∈ parts input, ¬Endless t) :
    ∃ scans, Gives input (.ok scans) ∧ scans.Pairwise (· < ·) ∧
      ∀ x, x ∈ scans ↔ ∃ t ∈ parts input, x ∈ denoted t := by
  obtain ⟨set, hset, hadds⟩ := @parseParts_ok (parts input) enoughFuel [] hrefused hendless le_rfl
  refine ⟨set.insertionSort (· ≤ ·), ⟨enoughFuel, by rw [parseExcludedScans, hset]; rfl⟩, ?_, ?_⟩
  · exact pairwise_insertionSort_lt (hadds.nodup List.nodup_nil)
  · intro x
    rw [(List.perm_insertionSort (· ≤ ·) set).mem_iff, hadds.mem]
    simp

theorem gives_error (hrefused : ∃ t ∈ parts input, Refused t)
    (hendless : ∀ t ∈ parts input, ¬Endless t) : ∃ message, Gives input (.error message) := by
  obtain ⟨message, hparts⟩ := @parseParts_error (parts input) enoughFuel [] hrefused hendless le_rfl
  exact ⟨message, enoughFuel, by rw [parseExcludedScans, hparts]; rfl⟩

theorem parsePart_error_ne (h : parsePart fuel set token = some (.error message)) :
    message ≠ "" := by
  obtain ⟨x, hadd⟩ | ⟨i, e, hloop⟩ | ⟨message', hne, herror⟩ := parsePart_cases token
  · cases (hadd fuel set).symm.trans h
  · rw [hloop] at h
    simp at h
  · cases (herror fuel set).symm.trans h
    exact hne

theorem parseParts_error_ne {tokens : List (List Char)}
    (h : parseParts fuel tokens set = some (.error message)) : message ≠ "" := by
  induction tokens generalizing set with
  | nil => cases h
  | cons t tokens ih =>
    obtain ⟨outcome, hpart, hrest⟩ := Option.bind_eq_some_iff.mp h
    cases outcome with
    | ok set' => exact ih hrest
    | error message' =>
      cases hrest
      exact parsePart_error_ne hpart

theorem gives_error_ne (h : Gives input (.error message)) : message ≠ "" := by
  obtain ⟨fuel, hfuel⟩ := h
  obtain ⟨outcome, hparts, houtcome⟩ := Option.map_eq_some_iff.mp hfuel
  cases outcome with
  | ok set => cases houtcome
  | error message' =>
    cases houtcome
    exact parseParts_error_ne hparts

/-- Parsing ends, in one way or the other. -/
def Ends (input : String) : Prop := ∃ outcome, Gives input outcome

theorem parseExcludedScans_ends_iff :
    Ends input ↔ ∀ front token back, parts input = front ++ token :: back → Endless token →
      ∃ t ∈ front, Refused t := by
  constructor
  · rintro ⟨outcome, fuel, hfuel⟩ front token back hparts hendless
    by_contra hnone
    have hfront : ∀ t ∈ front, ¬Refused t := fun t ht hrefused => hnone ⟨t, ht, hrefused⟩
    rw [parseExcludedScans, hparts, parseParts_endless hfront hendless] at hfuel
    cases hfuel
  · intro h
    obtain ⟨outcome, hparts⟩ := @parseParts_ends (parts input) [] h
    exact ⟨_, enoughFuel, by rw [parseExcludedScans, hparts]; rfl⟩

theorem parseExcludedScans_not_ends : ¬Ends "9007199254740992-9007199254740994" := by
  rintro ⟨outcome, fuel, hfuel⟩
  have hparts : parts "9007199254740992-9007199254740994" =
      [] ++ ("9007199254740992".toList ++ '-' :: "9007199254740994".toList) :: [] := by
    decide +kernel
  have hendless : Endless ("9007199254740992".toList ++ '-' :: "9007199254740994".toList) :=
    .range (.of_all (by decide +kernel) (by decide +kernel))
      (.of_all (by decide +kernel) (by decide +kernel)) (by decide +kernel) (by decide +kernel)
  rw [parseExcludedScans, hparts, parseParts_endless (by simp) hendless] at hfuel
  cases hfuel

end Results

end Workflows.Frontend
