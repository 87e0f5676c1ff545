import Mathlib.Data.ENat.Basic
import Mathlib.Tactic.SplitIfs
import Mathlib.Tactic.Linarith

/-!
# Natural numbers in floating point

A number is rounded to the nearest one with `p + 1` binary digits, of two that are as near to the
even one. Up to `2 ^ (p + 1)` every number is kept; from there on adding one may lead nowhere.
-/

namespace Workflows

section Rounding

def ulp (p n : Nat) : Nat := 2 ^ (n.log2 - p)

def roundEven (p n : Nat) : Nat :=
  let u := ulp p n
  let q := n / u
  let r := n % u
  if 2 * r < u ∨ 2 * r = u ∧ q % 2 = 0 then q * u else (q + 1) * u

/-- The numbers that rounding keeps. -/
def Representable (p n : Nat) : Prop := ulp p n ∣ n

variable {p n : Nat}

theorem ulp_pos (p n : Nat) : 0 < ulp p n := Nat.two_pow_pos _

theorem ulp_of_lt (h : n < 2 ^ (p + 1)) : ulp p n = 1 := by
  have hlog : n.log2 ≤ p := by
    obtain rfl | hn := eq_or_ne n 0
    · simp
    · exact Nat.lt_succ_iff.mp ((Nat.log2_lt hn).mpr h)
  rw [ulp, Nat.sub_eq_zero_of_le hlog, pow_zero]

theorem ne_zero_of_le (h : 2 ^ (p + 1) ≤ n) : n ≠ 0 := by
  have hpos := Nat.two_pow_pos (p + 1)
  omega

theorem two_dvd_ulp (h : 2 ^ (p + 1) ≤ n) : 2 ∣ ulp p n := by
  have hlog : p + 1 ≤ n.log2 := (Nat.le_log2 (ne_zero_of_le h)).mpr h
  exact dvd_pow_self 2 (by omega)

theorem roundEven_of_representable (h : Representable p n) : roundEven p n = n := by
  have hzero : n % ulp p n = 0 := Nat.mod_eq_zero_of_dvd h
  rw [roundEven, hzero, if_pos (.inl (ulp_pos p n)), Nat.div_mul_cancel h]

theorem representable_of_lt (h : n < 2 ^ (p + 1)) : Representable p n := by
  rw [Representable, ulp_of_lt h]
  exact one_dvd n

theorem roundEven_of_lt (h : n < 2 ^ (p + 1)) : roundEven p n = n :=
  roundEven_of_representable (representable_of_lt h)

theorem ulp_dvd_pow {k : Nat} (h : n.log2 ≤ k) : ulp p n ∣ 2 ^ k :=
  pow_dvd_pow 2 ((Nat.sub_le _ _).trans h)

theorem ulp_dvd_roundEven : ulp p n ∣ roundEven p n := by
  rw [roundEven]
  split_ifs
  · exact dvd_mul_left _ _
  · exact dvd_mul_left _ _

theorem div_mul_le_roundEven : n / ulp p n * ulp p n ≤ roundEven p n := by
  rw [roundEven]
  split_ifs
  · exact le_rfl
  · exact Nat.mul_le_mul_right _ (Nat.le_succ _)

theorem roundEven_le : roundEven p n ≤ (n / ulp p n + 1) * ulp p n := by
  rw [roundEven]
  split_ifs
  · exact Nat.mul_le_mul_right _ (Nat.le_succ _)
  · exact le_rfl

theorem pow_log2_le_roundEven (hn : n ≠ 0) : 2 ^ n.log2 ≤ roundEven p n := by
  refine le_trans ?_ div_mul_le_roundEven
  calc 2 ^ n.log2 = 2 ^ n.log2 / ulp p n * ulp p n := (Nat.div_mul_cancel (ulp_dvd_pow le_rfl)).symm
    _ ≤ n / ulp p n * ulp p n :=
      Nat.mul_le_mul_right _ (Nat.div_le_div_right (Nat.log2_self_le hn))

theorem roundEven_le_pow_log2 : roundEven p n ≤ 2 ^ (n.log2 + 1) := by
  refine roundEven_le.trans ?_
  have hdvd : ulp p n ∣ 2 ^ (n.log2 + 1) := ulp_dvd_pow (Nat.le_succ _)
  have hlt : n / ulp p n < 2 ^ (n.log2 + 1) / ulp p n :=
    Nat.div_lt_div_of_lt_of_dvd hdvd Nat.lt_log2_self
  calc (n / ulp p n + 1) * ulp p n ≤ 2 ^ (n.log2 + 1) / ulp p n * ulp p n :=
      Nat.mul_le_mul_right _ hlt
    _ = 2 ^ (n.log2 + 1) := Nat.div_mul_cancel hdvd

theorem representable_pow (k : Nat) : Representable p (2 ^ k) := by
  rw [Representable, ulp, Nat.log2_two_pow]
  exact pow_dvd_pow 2 (Nat.sub_le _ _)

theorem representable_roundEven : Representable p (roundEven p n) := by
  obtain rfl | hn := eq_or_ne n 0
  · rw [roundEven_of_lt (Nat.two_pow_pos _)]
    exact dvd_zero _
  have hpos : roundEven p n ≠ 0 := by
    have hle := pow_log2_le_roundEven (p := p) hn
    have htwo := Nat.two_pow_pos n.log2
    omega
  obtain hlt | heq := lt_or_eq_of_le (roundEven_le_pow_log2 (p := p) (n := n))
  · have hlog : (roundEven p n).log2 = n.log2 :=
      (Nat.log2_eq_iff hpos).mpr ⟨pow_log2_le_roundEven hn, hlt⟩
    rw [Representable, ulp, hlog]
    exact ulp_dvd_roundEven
  · rw [heq]
    exact representable_pow _

theorem pow_le_roundEven (h : 2 ^ (p + 1) ≤ n) : 2 ^ (p + 1) ≤ roundEven p n := by
  have hn := ne_zero_of_le h
  exact (Nat.pow_le_pow_right (by omega) ((Nat.le_log2 hn).mpr h)).trans (pow_log2_le_roundEven hn)

theorem roundEven_lt_iff : roundEven p n < 2 ^ (p + 1) ↔ n < 2 ^ (p + 1) := by
  constructor
  · intro h
    by_contra hle
    exact absurd (pow_le_roundEven (not_lt.mp hle)) (not_le.mpr h)
  · intro h
    rwa [roundEven_of_lt h]

end Rounding

section Successor

variable {p n : Nat}

/-- What is left of one that is added to a large number. -/
theorem roundEven_succ (hn : Representable p n) (hle : 2 ^ (p + 1) ≤ n) :
    roundEven p (n + 1) =
      if 2 < ulp p n ∨ n / ulp p n % 2 = 0 then n else n + ulp p n := by
  obtain ⟨q, hq⟩ := hn
  obtain ⟨k, hk⟩ := ulp_dvd_pow (p := p) (n := n) (k := n.log2 + 1) (Nat.le_succ _)
  have htwo : 2 ≤ ulp p n := Nat.le_of_dvd (ulp_pos p n) (two_dvd_ulp hle)
  have hne := ne_zero_of_le hle
  have hroom : n + ulp p n ≤ 2 ^ (n.log2 + 1) := by
    have hqk : ulp p n * q < ulp p n * k := by
      rw [← hq, ← hk]
      exact Nat.lt_log2_self
    calc n + ulp p n = ulp p n * (q + 1) := by rw [Nat.mul_add, ← hq, Nat.mul_one]
      _ ≤ ulp p n * k := Nat.mul_le_mul_left _ (Nat.lt_of_mul_lt_mul_left hqk)
      _ = 2 ^ (n.log2 + 1) := hk.symm
  have hlog : (n + 1).log2 = n.log2 :=
    (Nat.log2_eq_iff (by omega)).mpr ⟨(Nat.log2_self_le hne).trans (Nat.le_succ n), by omega⟩
  have hulp : ulp p (n + 1) = ulp p n := by rw [ulp, hlog, ulp]
  have hnext : n + 1 = 1 + ulp p n * q := by omega
  have hdiv : n / ulp p n = q := Nat.div_eq_of_eq_mul_right (ulp_pos p n) hq
  have hdiv_next : (n + 1) / ulp p n = q := by
    rw [hnext, Nat.add_mul_div_left 1 q (ulp_pos p n), Nat.div_eq_of_lt htwo, Nat.zero_add]
  have hmod : (n + 1) % ulp p n = 1 := by
    rw [hnext, Nat.add_mul_mod_self_left, Nat.mod_eq_of_lt htwo]
  have hkeep : q * ulp p n = n := by rw [Nat.mul_comm, ← hq]
  rw [roundEven, hulp, hdiv_next, hmod, hdiv, Nat.add_mul, Nat.one_mul, hkeep]
  refine if_congr ?_ rfl rfl
  omega

/-- A number that adding one leads away from, it leads to one that adding one leads nowhere from. -/
theorem roundEven_succ_succ (hn : Representable p n) (hle : 2 ^ (p + 1) ≤ n)
    (hne : roundEven p (n + 1) ≠ n) :
    roundEven p (n + 1) = n + 2 ∧ roundEven p (n + 2 + 1) = n + 2 := by
  have hsucc := roundEven_succ hn hle
  split_ifs at hsucc with h
  · exact absurd hsucc hne
  · have htwo : ulp p n = 2 := by
      have hge := Nat.le_of_dvd (ulp_pos p n) (two_dvd_ulp hle)
      omega
    rw [htwo] at h hsucc
    have hnext : Representable p (n + 2) := hsucc ▸ representable_roundEven
    have hnext_le : 2 ^ (p + 1) ≤ n + 2 := hle.trans (Nat.le_add_right n 2)
    refine ⟨hsucc, ?_⟩
    rw [roundEven_succ hnext hnext_le, if_pos]
    have hge := Nat.le_of_dvd (ulp_pos p (n + 2)) (two_dvd_ulp hnext_le)
    obtain heq | hlt := eq_or_lt_of_le hge
    · rw [← heq]
      omega
    · exact .inl hlt

/-- Counting up from below a large number never gets past it. -/
theorem roundEven_succ_le {i e : Nat} (hp : 1 ≤ p) (hi : Representable p i)
    (he : Representable p e) (hle : 2 ^ (p + 1) ≤ e) (hlt : i < e) :
    roundEven p (i + 1) < e ∨ roundEven p (i + 1) = e ∧ roundEven p (e + 1) = e := by
  obtain hsmall | hlarge := lt_or_ge i (2 ^ (p + 1))
  · have hnext : roundEven p (i + 1) = i + 1 := by
      obtain hlt | heq := lt_or_eq_of_le (Nat.succ_le_of_lt hsmall)
      · exact roundEven_of_lt hlt
      · rw [Nat.succ_eq_add_one] at heq
        rw [heq]
        exact roundEven_of_representable (representable_pow (p + 1))
    rw [hnext]
    obtain hlt | rfl := lt_or_eq_of_le (Nat.succ_le_of_lt hlt)
    · exact .inl hlt
    · obtain heq : i + 1 = 2 ^ (p + 1) := le_antisymm hsmall hle
      refine .inr ⟨rfl, (roundEven_succ he hle).trans (if_pos (.inr ?_))⟩
      obtain ⟨k, rfl⟩ := Nat.exists_eq_add_of_le' hp
      rw [Nat.succ_eq_add_one, heq, ulp, Nat.log2_two_pow, Nat.add_sub_cancel_left, pow_succ,
        pow_one, Nat.mul_div_cancel _ (by decide), pow_succ]
      exact Nat.mul_mod_left _ _
  · by_cases hne : roundEven p (i + 1) = i
    · exact .inl (lt_of_eq_of_lt hne hlt)
    · obtain ⟨hsucc, hstuck⟩ := roundEven_succ_succ hi hlarge hne
      have hieven := (two_dvd_ulp hlarge).trans hi
      have heeven := (two_dvd_ulp hle).trans he
      rw [hsucc]
      obtain hlt | rfl := lt_or_eq_of_le (show i + 2 ≤ e by omega)
      · exact .inl hlt
      · exact .inr ⟨rfl, hstuck⟩

end Successor

/-- The whole numbers of binary64 that are not negative. -/
abbrev Double := ℕ∞

namespace Double

def overflow : Nat := 2 ^ 1024

def ofNat (n : Nat) : Double :=
  if roundEven 52 n < overflow then (roundEven 52 n : Nat) else ⊤

def succ (x : Double) : Double := if x = ⊤ then ⊤ else ofNat (x.toNat + 1)

/-- The values that `ofNat` has. -/
def IsDouble (x : Double) : Prop := ∀ n : Nat, x = n → Representable 52 n ∧ n < overflow

/-- Where counting up to an end has come to, with nothing behind the end. -/
def Inside (i e : Double) : Prop := i < e ∨ i = e ∧ e.succ = e

@[simp] theorem succ_top : succ ⊤ = ⊤ := if_pos rfl

@[simp] theorem succ_coe (n : Nat) : succ n = ofNat (n + 1) := if_neg (ENat.natCast_ne_top n)

theorem lt_overflow {n : Nat} (h : n ≤ 2 ^ 53) : n < overflow := by
  have hpow : ∀ k, 53 < k → n < 2 ^ k := fun k hk =>
    lt_of_le_of_lt h (Nat.pow_lt_pow_right (by decide) hk)
  exact hpow 1024 (by decide)

variable {n : Nat} {i e : Double}

theorem ofNat_of_le (h : n ≤ 2 ^ 53) : ofNat n = n := by
  have hround : roundEven 52 n = n := by
    obtain hlt | rfl := lt_or_eq_of_le h
    · exact roundEven_of_lt hlt
    · exact roundEven_of_representable (representable_pow 53)
  rw [ofNat, hround, if_pos (lt_overflow h)]

theorem isDouble_ofNat (n : Nat) : IsDouble (ofNat n) := by
  intro m h
  rw [ofNat] at h
  split_ifs at h with hlt
  · obtain rfl := Nat.cast_injective h
    exact ⟨representable_roundEven, hlt⟩
  · exact absurd h (ENat.top_ne_natCast m)

theorem isDouble_succ (i : Double) : IsDouble i.succ := by
  induction i using ENat.recTopCoe with
  | top => exact fun m h => absurd h (ENat.top_ne_natCast m)
  | coe n => exact succ_coe n ▸ isDouble_ofNat (n + 1)

theorem ofNat_lt_iff : ofNat n < (2 ^ 53 : Nat) ↔ n < 2 ^ 53 := by
  constructor
  · intro h
    rw [ofNat] at h
    split_ifs at h with hlt
    · exact roundEven_lt_iff.mp (Nat.cast_lt.mp h)
    · exact absurd h not_top_lt
  · intro h
    rw [ofNat_of_le h.le]
    exact Nat.cast_lt.mpr h

theorem succ_of_lt (h : n < 2 ^ 53) : succ n = (n + 1 : Nat) := by
  rw [succ_coe, ofNat_of_le (Nat.succ_le_of_lt h)]

/-- Counting up to a large number never gets past it. -/
theorem Inside.step (hi : IsDouble i) (he : IsDouble e) (hle : (2 ^ 53 : Nat) ≤ e)
    (h : Inside i e) : Inside i.succ e := by
  obtain hlt | ⟨rfl, hstuck⟩ := h
  · obtain ⟨k, rfl⟩ := ENat.ne_top_iff_exists.mp hlt.ne_top
    induction e using ENat.recTopCoe with
    | top => exact (lt_or_eq_of_le le_top).imp id fun htop => ⟨htop, succ_top⟩
    | coe m =>
      obtain ⟨hm, hmax⟩ := he m rfl
      have hstep := roundEven_succ_le (by decide) (hi k rfl).1 hm (Nat.cast_le.mp hle)
        (Nat.cast_lt.mp hlt)
      rw [Inside, succ_coe, succ_coe, ofNat, ofNat]
      obtain hbelow | ⟨hend, hstuck⟩ := hstep
      · rw [if_pos (hbelow.trans hmax)]
        exact .inl (Nat.cast_lt.mpr hbelow)
      · rw [hend, hstuck, if_pos hmax]
        exact .inr ⟨rfl, rfl⟩
  · exact .inr ⟨hstuck, hstuck⟩

section Print

/-- The number with `m` zeros behind it that is nearest to `n` of those that are read as `n`. -/
def withZeros (n m : Nat) : Option Nat :=
  let lo := n / 10 ^ m
  let r := n % 10 ^ m
  let below := lo ≠ 0 ∧ ofNat (lo * 10 ^ m) = n
  let above := ofNat ((lo + 1) * 10 ^ m) = n
  if below ∧ (¬above ∨ 2 * r < 10 ^ m ∨ 2 * r = 10 ^ m ∧ lo % 2 = 0) then some lo
  else if above then some (lo + 1)
  else none

/-- The fewest digits that are read as `n`, and how many zeros stand behind them. -/
def shortest (n : Nat) : Nat → Nat × Nat
  | 0 => (n, 0)
  | m + 1 =>
    match withZeros n (m + 1) with
    | some s => (s, m + 1)
    | none => shortest n m

def exponential (digits : List Char) (exponent : Nat) : List Char :=
  let mantissa :=
    match digits with
    | [] => []
    | [d] => [d]
    | d :: ds => d :: '.' :: ds
  mantissa ++ ['e', '+'] ++ Nat.toDigits 10 exponent

/-- `Number::toString` -/
def toText (x : Double) : List Char :=
  if x = ⊤ then "Infinity".toList
  else if x = 0 then ['0']
  else
    let (s, m) := shortest x.toNat (Nat.toDigits 10 x.toNat).length
    let digits := Nat.toDigits 10 s
    if digits.length + m ≤ 21 then digits ++ List.replicate m '0'
    else exponential digits (digits.length + m - 1)

theorem mul_pow_of_withZeros (hn : n < 2 ^ 53) {s m : Nat} (h : withZeros n m = some s) :
    s * 10 ^ m = n := by
  have hexact : ∀ k, ofNat k = n → k = n := fun k hk => by
    have hlt : k < 2 ^ 53 := ofNat_lt_iff.mp (hk ▸ Nat.cast_lt.mpr hn)
    rw [ofNat_of_le hlt.le] at hk
    exact Nat.cast_injective hk
  rw [withZeros] at h
  split_ifs at h with hbelow habove
  · obtain rfl := Option.some_inj.mp h
    exact hexact _ hbelow.1.2
  · obtain rfl := Option.some_inj.mp h
    exact hexact _ habove

theorem mul_pow_shortest (hn : n < 2 ^ 53) (m : Nat) :
    (shortest n m).1 * 10 ^ (shortest n m).2 = n := by
  induction m with
  | zero => simp [shortest]
  | succ m ih =>
    rw [shortest]
    cases h : withZeros n (m + 1) with
    | none => exact ih
    | some s => exact mul_pow_of_withZeros hn h

theorem toDigits_mul_pow {s : Nat} (hs : 0 < s) (m : Nat) :
    Nat.toDigits 10 (s * 10 ^ m) = Nat.toDigits 10 s ++ List.replicate m '0' := by
  induction m with
  | zero => simp
  | succ m ih =>
    have hpos : 0 < s * 10 ^ m := Nat.mul_pos hs (Nat.pow_pos (by decide))
    have happend := Nat.toDigits_append_toDigits (b := 10) (by decide) hpos (show 0 < 10 by decide)
    rw [ih, Nat.toDigits_zero, Nat.add_zero] at happend
    rw [pow_succ, ← Nat.mul_assoc, Nat.mul_comm _ 10, ← happend, List.append_assoc,
      List.replicate_succ']

/-- Small numbers are printed in full. -/
theorem toText_of_lt (hn : n < 2 ^ 53) : toText n = Nat.toDigits 10 n := by
  rw [toText, if_neg (ENat.natCast_ne_top n)]
  obtain rfl | hne := eq_or_ne n 0
  · rfl
  rw [if_neg (by exact_mod_cast hne), ENat.toNat_natCast]
  have hmul := mul_pow_shortest hn (Nat.toDigits 10 n).length
  generalize shortest n (Nat.toDigits 10 n).length = found at hmul ⊢
  obtain ⟨s, m⟩ := found
  have hs : 0 < s := Nat.pos_of_ne_zero fun hzero => hne (by rw [← hmul, hzero, Nat.zero_mul])
  have htext := toDigits_mul_pow hs m
  rw [hmul] at htext
  have hlength : (Nat.toDigits 10 n).length ≤ 16 :=
    (Nat.length_toDigits_le_iff (by decide) (by decide)).mpr (hn.trans (by decide))
  rw [htext, List.length_append, List.length_replicate] at hlength
  simp only []
  rw [if_pos (by omega), htext]

end Print

end Double

end Workflows
