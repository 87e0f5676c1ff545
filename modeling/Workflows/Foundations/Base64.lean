import Mathlib.Data.Fintype.Basic
import Mathlib.Data.List.Basic
import Mathlib.Tactic.SplitIfs

/-!
# Base64

Three bytes are four digits of six bits, and one or two bytes at the end are two or three. A strict
reader refuses set bits that no byte takes, a forgiving one drops them.
-/

namespace Workflows.Base64

abbrev Digit := Fin 64

def byte (high low : Nat) : UInt8 := UInt8.ofNat (high + low)

def digits : List UInt8 → List Digit
  | [] => []
  | [a] => [.ofNat 64 (a.toNat / 4), .ofNat 64 (a.toNat % 4 * 16)]
  | [a, b] =>
    [.ofNat 64 (a.toNat / 4), .ofNat 64 (a.toNat % 4 * 16 + b.toNat / 16),
      .ofNat 64 (b.toNat % 16 * 4)]
  | a :: b :: c :: bytes =>
    .ofNat 64 (a.toNat / 4) :: .ofNat 64 (a.toNat % 4 * 16 + b.toNat / 16) ::
      .ofNat 64 (b.toNat % 16 * 4 + c.toNat / 64) :: .ofNat 64 (c.toNat % 64) :: digits bytes

def bytes (strict : Bool) : List Digit → Option (List UInt8)
  | [] => some []
  | [_] => none
  | [w, x] => if strict ∧ x.val % 16 ≠ 0 then none else some [byte (w * 4) (x / 16)]
  | [w, x, y] =>
    if strict ∧ y.val % 4 ≠ 0 then none
    else some [byte (w * 4) (x / 16), byte (x % 16 * 16) (y / 4)]
  | w :: x :: y :: z :: digits =>
    (bytes strict digits).map fun bytes =>
      byte (w * 4) (x / 16) :: byte (x % 16 * 16) (y / 4) :: byte (y % 4 * 64) z :: bytes

section Digits

theorem toNat_byte {high low : Nat} (h : high + low < 256) : (byte high low).toNat = high + low := by
  rw [byte, UInt8.toNat_ofNat_of_lt' h]

theorem byte_eq {high low : Nat} {b : UInt8} (h : high + low = b.toNat) : byte high low = b := by
  apply UInt8.toNat_inj.mp
  have hb := b.toNat_lt
  rw [toNat_byte (by omega), h]

theorem val_ofNat {n : Nat} (h : n < 64) : (Fin.ofNat 64 n).val = n := Nat.mod_eq_of_lt h

theorem ofNat_eq {n : Nat} {d : Digit} (h : n = d.val) : Fin.ofNat 64 n = d := by
  apply Fin.ext
  rw [val_ofNat (by omega), h]

theorem bytes_digits (strict : Bool) (bs : List UInt8) : bytes strict (digits bs) = some bs := by
  induction bs using digits.induct with
  | case1 => rfl
  | case2 a =>
    have ha := a.toNat_lt
    simp only [digits, bytes, val_ofNat (show a.toNat / 4 < 64 by omega),
      val_ofNat (show a.toNat % 4 * 16 < 64 by omega)]
    rw [if_neg (by omega), byte_eq (b := a) (by omega)]
  | case3 a b =>
    have ha := a.toNat_lt
    have hb := b.toNat_lt
    simp only [digits, bytes, val_ofNat (show a.toNat / 4 < 64 by omega),
      val_ofNat (show a.toNat % 4 * 16 + b.toNat / 16 < 64 by omega),
      val_ofNat (show b.toNat % 16 * 4 < 64 by omega)]
    rw [if_neg (by omega), byte_eq (b := a) (by omega), byte_eq (b := b) (by omega)]
  | case4 a b c bs ih =>
    have ha := a.toNat_lt
    have hb := b.toNat_lt
    have hc := c.toNat_lt
    simp only [digits, bytes, ih, Option.map_some, val_ofNat (show a.toNat / 4 < 64 by omega),
      val_ofNat (show a.toNat % 4 * 16 + b.toNat / 16 < 64 by omega),
      val_ofNat (show b.toNat % 16 * 4 + c.toNat / 64 < 64 by omega),
      val_ofNat (show c.toNat % 64 < 64 by omega)]
    rw [byte_eq (b := a) (by omega), byte_eq (b := b) (by omega), byte_eq (b := c) (by omega)]

/-- A strict reader accepts the digits of what it reads and nothing else. -/
theorem digits_of_bytes : ∀ {ds : List Digit} {bs : List UInt8}, bytes true ds = some bs →
    digits bs = ds
  | [], bs, h => by
    cases h
    rfl
  | [_], bs, h => by cases h
  | [w, x], bs, h => by
    simp only [bytes, true_and] at h
    split_ifs at h with hx
    cases h
    have hw := toNat_byte (show w.val * 4 + x.val / 16 < 256 by omega)
    simp only [digits, hw]
    rw [ofNat_eq (d := w) (by omega), ofNat_eq (d := x) (by omega)]
  | [w, x, y], bs, h => by
    simp only [bytes, true_and] at h
    split_ifs at h with hy
    cases h
    have hw := toNat_byte (show w.val * 4 + x.val / 16 < 256 by omega)
    have hx := toNat_byte (show x.val % 16 * 16 + y.val / 4 < 256 by omega)
    simp only [digits, hw, hx]
    rw [ofNat_eq (d := w) (by omega), ofNat_eq (d := x) (by omega), ofNat_eq (d := y) (by omega)]
  | w :: x :: y :: z :: ds, bs, h => by
    obtain ⟨bs', hbs', rfl⟩ := Option.map_eq_some_iff.mp h
    have hw := toNat_byte (show w.val * 4 + x.val / 16 < 256 by omega)
    have hx := toNat_byte (show x.val % 16 * 16 + y.val / 4 < 256 by omega)
    have hy := toNat_byte (show y.val % 4 * 64 + z.val < 256 by omega)
    simp only [digits, hw, hx, hy, digits_of_bytes hbs']
    rw [ofNat_eq (d := w) (by omega), ofNat_eq (d := x) (by omega), ofNat_eq (d := y) (by omega),
      ofNat_eq (d := z) (by omega)]

theorem bytes_forgiving {ds : List Digit} {bs : List UInt8} (h : bytes true ds = some bs) :
    bytes false ds = some bs := by
  rw [← digits_of_bytes h]
  exact bytes_digits false bs

end Digits

/-- A letter for each digit. -/
structure Alphabet where
  letters : List Char
  length_eq : letters.length = 64
  nodup : letters.Nodup

namespace Alphabet

variable (alphabet : Alphabet)

def letter (d : Digit) : Char := alphabet.letters.get (d.cast alphabet.length_eq.symm)

def digit (c : Char) : Option Digit :=
  if h : c ∈ alphabet.letters then
    some ⟨alphabet.letters.idxOf c, alphabet.length_eq ▸ List.idxOf_lt_length_iff.mpr h⟩
  else none

theorem digit_letter (d : Digit) : alphabet.digit (alphabet.letter d) = some d := by
  have hmem : alphabet.letter d ∈ alphabet.letters := List.get_mem ..
  rw [digit, dif_pos hmem]
  exact congrArg some (Fin.ext (alphabet.nodup.idxOf_getElem _ _))

theorem letter_of_digit {c : Char} {d : Digit} (h : alphabet.digit c = some d) :
    alphabet.letter d = c := by
  unfold digit at h
  split_ifs at h with hmem
  cases h
  exact List.getElem_idxOf _

def encode (bs : List UInt8) : List Char := (digits bs).map alphabet.letter

def decode (strict : Bool) (cs : List Char) : Option (List UInt8) :=
  (cs.mapM alphabet.digit).bind (bytes strict)

theorem mapM_digit_letters (ds : List Digit) :
    (ds.map alphabet.letter).mapM alphabet.digit = some ds := by
  induction ds with
  | nil => rfl
  | cons d ds ih => simp [digit_letter, ih]

theorem letters_of_mapM_digit {cs : List Char} {ds : List Digit}
    (h : cs.mapM alphabet.digit = some ds) : ds.map alphabet.letter = cs := by
  induction cs generalizing ds with
  | nil =>
    cases h
    rfl
  | cons c cs ih =>
    simp only [List.mapM_cons, Option.bind_eq_bind, Option.bind_eq_some_iff, Option.pure_def,
      Option.some.injEq] at h
    obtain ⟨d, hd, ds', hds', rfl⟩ := h
    rw [List.map_cons, alphabet.letter_of_digit hd, ih hds']

theorem decode_encode (strict : Bool) (bs : List UInt8) :
    alphabet.decode strict (alphabet.encode bs) = some bs := by
  rw [decode, encode, mapM_digit_letters]
  exact bytes_digits strict bs

/-- Strictly read, only one text stands for some bytes. -/
theorem decode_eq_some_iff {cs : List Char} {bs : List UInt8} :
    alphabet.decode true cs = some bs ↔ cs = alphabet.encode bs := by
  constructor
  · intro h
    obtain ⟨ds, hds, hbs⟩ := Option.bind_eq_some_iff.mp h
    rw [encode, digits_of_bytes hbs, alphabet.letters_of_mapM_digit hds]
  · rintro rfl
    exact alphabet.decode_encode true bs

end Alphabet

section Alphabets

def standard : Alphabet where
  letters := "ABCDEFGHIJKLMNOPQRSTUVWXYZabcdefghijklmnopqrstuvwxyz0123456789+/".toList
  length_eq := by decide +kernel
  nodup := by decide +kernel

def urlSafe : Alphabet where
  letters := "ABCDEFGHIJKLMNOPQRSTUVWXYZabcdefghijklmnopqrstuvwxyz0123456789-_".toList
  length_eq := by decide +kernel
  nodup := by decide +kernel

end Alphabets

section Forgiving

def isAsciiSpace (c : Char) : Bool :=
  c = ' ' || c = '\t' || c = '\n' || c = '\x0c' || c = '\r'

/-- At most two signs of padding at the end. -/
def stripPadding (cs : List Char) : List Char :=
  if cs.length % 4 = 0 then
    if ['=', '='] <:+ cs then cs.take (cs.length - 2)
    else if ['='] <:+ cs then cs.take (cs.length - 1)
    else cs
  else cs

/-- The forgiving decoding of browsers. -/
def atob (cs : List Char) : Option (List UInt8) :=
  standard.decode false (stripPadding (cs.filter fun c => !isAsciiSpace c))

theorem stripPadding_of_not_mem {cs : List Char} (h : '=' ∉ cs) : stripPadding cs = cs := by
  have hone : ¬['='] <:+ cs := fun hsuffix => h (hsuffix.subset (by simp))
  have htwo : ¬['=', '='] <:+ cs := fun hsuffix => h (hsuffix.subset (by simp))
  unfold stripPadding
  split_ifs
  · rfl
  · rfl

theorem plain_letter (d : Digit) :
    isAsciiSpace (standard.letter d) = false ∧ standard.letter d ≠ '=' := by
  revert d
  decide +kernel

theorem atob_letters (ds : List Digit) : atob (ds.map standard.letter) = bytes false ds := by
  have hspace : (ds.map standard.letter).filter (fun c => !isAsciiSpace c) =
      ds.map standard.letter := by
    refine List.filter_eq_self.mpr fun c hc => ?_
    obtain ⟨d, -, rfl⟩ := List.mem_map.mp hc
    simp [(plain_letter d).1]
  have hpadding : '=' ∉ ds.map standard.letter := by
    intro hmem
    obtain ⟨d, -, hd⟩ := List.mem_map.mp hmem
    exact (plain_letter d).2 hd
  rw [atob, hspace, stripPadding_of_not_mem hpadding, Alphabet.decode, standard.mapM_digit_letters]
  rfl

end Forgiving

example : urlSafe.decode true "_-A".toList = some [0xFF, 0xE0] := by decide +kernel

end Workflows.Base64
