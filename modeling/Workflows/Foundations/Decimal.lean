import Mathlib.Tactic.SplitIfs
import Mathlib.Data.UInt

/-!
# Decimal numbers

A number is printed without leading zeros and read back digit by digit, as long as it fits in 32
bits. The digits of a regular expression are those of every script, of which only the ASCII ones
can be read.
-/

namespace Workflows.Decimal

/-- The letters of `\d`. -/
structure DecimalNumber where
  isDecimal : Char → Bool
  ascii : ∀ c : Char, c.toNat < 128 → isDecimal c = c.isDigit

def DecimalNumber.ofAscii : DecimalNumber where
  isDecimal := Char.isDigit
  ascii _ _ := rfl

theorem toNat_lt_of_isDigit {c : Char} (h : c.isDigit) : c.toNat < 128 := by
  have hle : c.toNat ≤ 57 := (Char.isDigit_iff_toNat.mp h).2
  omega

theorem DecimalNumber.of_isDigit (d : DecimalNumber) {c : Char} (h : c.isDigit) : d.isDecimal c :=
  (d.ascii c (toNat_lt_of_isDigit h)).trans h

theorem DecimalNumber.not_isDecimal (d : DecimalNumber) {c : Char} (h : c.toNat < 128)
    (hdigit : c.isDigit = false) : d.isDecimal c = false :=
  (d.ascii c h).trans hdigit

inductive ParseIntError where
  | empty
  | invalidDigit
  | posOverflow
  deriving DecidableEq

def ParseIntError.toString : ParseIntError → String
  | .empty => "cannot parse integer from empty string"
  | .invalidDigit => "invalid digit found in string"
  | .posOverflow => "number too large to fit in target type"

def parseDigits (acc : Nat) : List Char → Except ParseIntError Nat
  | [] => .ok acc
  | c :: cs =>
    if c.isDigit then
      if 10 * acc + (c.toNat - '0'.toNat) < 2 ^ 32 then
        parseDigits (10 * acc + (c.toNat - '0'.toNat)) cs
      else .error .posOverflow
    else .error .invalidDigit

/-- `u32::from_str`, which takes a sign in front of the digits. -/
def parseU32 (cs : List Char) : Except ParseIntError UInt32 :=
  match cs with
  | [] => .error .empty
  | '+' :: c :: cs => (parseDigits 0 (c :: cs)).map UInt32.ofNat
  | cs => (parseDigits 0 cs).map UInt32.ofNat

theorem le_ofDigitChars (cs : List Char) (acc : Nat) : acc ≤ Nat.ofDigitChars 10 cs acc := by
  induction cs generalizing acc with
  | nil => simp
  | cons c cs ih =>
    rw [Nat.ofDigitChars_cons]
    have hstep := ih (10 * acc + (c.toNat - '0'.toNat))
    omega

theorem parseDigits_eq_ok_iff {acc : Nat} (hacc : acc < 2 ^ 32) {cs : List Char} {n : Nat} :
    parseDigits acc cs = .ok n ↔
      (∀ c ∈ cs, c.isDigit) ∧ Nat.ofDigitChars 10 cs acc = n ∧ n < 2 ^ 32 := by
  induction cs generalizing acc with
  | nil =>
    rw [parseDigits, Except.ok.injEq, Nat.ofDigitChars_nil]
    constructor
    · rintro rfl
      exact ⟨by simp, rfl, hacc⟩
    · rintro ⟨-, rfl, -⟩
      rfl
  | cons c cs ih =>
    rw [parseDigits, List.forall_mem_cons, Nat.ofDigitChars_cons]
    split_ifs with hdigit hfits
    · rw [ih hfits, hdigit]
      simp
    · refine iff_of_false (by simp) ?_
      rintro ⟨-, rfl, hlt⟩
      exact hfits ((le_ofDigitChars cs _).trans_lt hlt)
    · exact iff_of_false (by simp) fun h => hdigit h.1.1

/-- Digits are read as what they print, as far as that fits. -/
theorem parseU32_eq_ok_iff {cs : List Char} (hne : cs ≠ []) (hdigits : ∀ c ∈ cs, c ≠ '+')
    {n : UInt32} :
    parseU32 cs = .ok n ↔ (∀ c ∈ cs, c.isDigit) ∧ Nat.ofDigitChars 10 cs 0 = n.toNat := by
  obtain ⟨c, rest, rfl⟩ := List.exists_cons_of_ne_nil hne
  have hplus : c ≠ '+' := hdigits c List.mem_cons_self
  have hread : parseU32 (c :: rest) = (parseDigits 0 (c :: rest)).map UInt32.ofNat := by
    unfold parseU32
    split
    next heq => cases heq
    next heq => exact absurd (List.cons.inj heq).1 hplus
    next => rfl
  rw [hread]
  constructor
  · intro h
    cases hparse : parseDigits 0 (c :: rest) with
    | error e =>
      rw [hparse] at h
      cases h
    | ok m =>
      rw [hparse] at h
      obtain ⟨hall, hvalue, hlt⟩ := (parseDigits_eq_ok_iff (by decide)).mp hparse
      obtain rfl := Except.ok.inj h
      exact ⟨hall, hvalue.trans (UInt32.toNat_ofNat_of_lt' hlt).symm⟩
  · rintro ⟨hall, hvalue⟩
    have hparse := (parseDigits_eq_ok_iff (by decide)).mpr ⟨hall, hvalue, n.toNat_lt⟩
    rw [hparse]
    exact congrArg Except.ok UInt32.ofNat_toNat

def printU32 (n : UInt32) : List Char := Nat.toDigits 10 n.toNat

theorem toList_toString (n : UInt32) : (toString n).toList = printU32 n :=
  Nat.toList_repr

theorem isDigit_of_mem_printU32 {n : UInt32} {c : Char} (h : c ∈ printU32 n) : c.isDigit :=
  Nat.isDigit_of_mem_toDigits (by decide) (by decide) h

theorem printU32_ne_nil (n : UInt32) : printU32 n ≠ [] := Nat.toDigits_ne_nil

@[simp] theorem parseU32_printU32 (n : UInt32) : parseU32 (printU32 n) = .ok n := by
  refine (parseU32_eq_ok_iff (printU32_ne_nil n) fun c hc => ?_).mpr
    ⟨fun c hc => isDigit_of_mem_printU32 hc, Nat.ofDigitChars_ten_toDigits⟩
  rintro rfl
  have hdigit := isDigit_of_mem_printU32 hc
  exact absurd hdigit (by decide)

theorem printU32_injective {m n : UInt32} (h : printU32 m = printU32 n) : m = n := by
  have hread : parseU32 (printU32 m) = parseU32 (printU32 n) := congrArg parseU32 h
  rw [parseU32_printU32, parseU32_printU32] at hread
  exact Except.ok.inj hread

end Workflows.Decimal
