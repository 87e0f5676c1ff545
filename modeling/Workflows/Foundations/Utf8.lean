import Mathlib

/-!
# Lossy decoding of UTF-8

The decoder reads byte by byte. It replaces each longest prefix of a character that does not go on
as one, and each byte that starts none, by U+FFFD. Text that is encoded is read back as it was.
-/

namespace Workflows.Utf8

/-- A character of which some bytes are read: `more` bytes follow the next one, which lies between
`lower` and `upper`. No overlong form is ever pending, so what comes out is not ASCII. -/
structure Pending where
  more : Nat
  lower : Nat
  upper : Nat
  acc : Nat
  lower_ge : 0x80 ≤ lower
  wide : 0x80 ≤ (acc * 64 + (lower - 0x80)) * 64 ^ more

def Pending.code (p : Pending) (b : Nat) : Nat :=
  p.acc * 64 + (b - 0x80)

theorem Pending.code_ge (p : Pending) {b : Nat} (hb : p.lower ≤ b) :
    0x80 ≤ p.code b * 64 ^ p.more := by
  refine p.wide.trans (Nat.mul_le_mul_right _ ?_)
  have hlower := p.lower_ge
  unfold Pending.code
  omega

def Pending.next (p : Pending) (b : Nat) (hb : p.lower ≤ b) (n : Nat) (hmore : p.more = n + 1) :
    Pending where
  more := n
  lower := 0x80
  upper := 0xBF
  acc := p.code b
  lower_ge := Nat.le_refl _
  wide := by
    have hge := p.code_ge hb
    rw [hmore, Nat.pow_succ] at hge
    calc 0x80 ≤ p.code b * (64 ^ n * 64) := hge
      _ = (p.code b * 64 + (0x80 - 0x80)) * 64 ^ n := by ring

def lead (b : Nat) : Option Pending :=
  if h : 0xC2 ≤ b ∧ b ≤ 0xDF then some ⟨0, 0x80, 0xBF, b - 0xC0, by omega, by omega⟩
  else if b = 0xE0 then some ⟨1, 0xA0, 0xBF, 0, by omega, by omega⟩
  else if b = 0xED then some ⟨1, 0x80, 0x9F, 0xD, by omega, by omega⟩
  else if h : 0xE1 ≤ b ∧ b ≤ 0xEF then some ⟨1, 0x80, 0xBF, b - 0xE0, by omega, by omega⟩
  else if b = 0xF0 then some ⟨2, 0x90, 0xBF, 0, by omega, by omega⟩
  else if h : 0xF1 ≤ b ∧ b ≤ 0xF3 then some ⟨2, 0x80, 0xBF, b - 0xF0, by omega, by omega⟩
  else if b = 0xF4 then some ⟨2, 0x80, 0x8F, 4, by omega, by omega⟩
  else none

def replacement : Char := Char.ofNat 0xFFFD

def start (b : Nat) : List Char × Option Pending :=
  if b < 0x80 then ([Char.ofNat b], none)
  else
    match lead b with
    | some p => ([], some p)
    | none => ([replacement], none)

/-- One byte: the characters it completes and what is then pending. -/
def feed (state : Option Pending) (b : Nat) : List Char × Option Pending :=
  match state with
  | none => start b
  | some p =>
    if h : p.lower ≤ b ∧ b ≤ p.upper then
      match hmore : p.more with
      | 0 => ([Char.ofNat (p.code b)], none)
      | n + 1 => ([], some (p.next b h.1 n hmore))
    -- the byte that breaks the character off is read again, as a first byte
    else (replacement :: (start b).1, (start b).2)

def accept (state : Option Pending) (b : Nat) : Option (List Char × Option Pending) :=
  match state with
  | none => if b < 0x80 then some ([Char.ofNat b], none) else (lead b).map fun p => ([], some p)
  | some p =>
    if h : p.lower ≤ b ∧ b ≤ p.upper then
      match hmore : p.more with
      | 0 => some ([Char.ofNat (p.code b)], none)
      | n + 1 => some ([], some (p.next b h.1 n hmore))
    else none

def decode : Option Pending → List UInt8 → List Char
  | none, [] => []
  | some _, [] => [replacement]
  | state, b :: bs => (feed state b.toNat).1 ++ decode (feed state b.toNat).2 bs

def fromUtf8Lossy (bytes : List UInt8) : List Char :=
  decode none bytes

example : fromUtf8Lossy [0x61, 0xE2, 0x82, 0xAC, 0xE2, 0x82, 0x0A, 0xFF] =
    ['a', '€', replacement, '\n', replacement] := by decide

section Newline

theorem ofNat_eq_newline_iff {n : Nat} : Char.ofNat n = '\n' ↔ n = 0x0A := by
  constructor
  · intro heq
    have htoNat : (if n.isValidChar then n else 0) = 0x0A := by
      rw [← Char.toNat_ofNat, heq]
      rfl
    split at htoNat
    · exact htoNat
    · omega
  · rintro rfl
    rfl

theorem count_start (b : Nat) :
    (start b).1.count '\n' = if b = 0x0A then 1 else 0 := by
  unfold start
  split
  next => simp [List.count_singleton, ofNat_eq_newline_iff]
  next hge =>
    rw [if_neg (by omega)]
    split <;> rfl

/-- A line feed ends what is pending and stands for itself. -/
theorem feed_newline (state : Option Pending) :
    feed state 0x0A = (decode state [] ++ ['\n'], none) := by
  cases state with
  | none => rfl
  | some p =>
    have hlower := p.lower_ge
    rw [feed, dif_neg (by omega)]
    rfl

theorem count_feed (state : Option Pending) (b : Nat) :
    (feed state b).1.count '\n' = if b = 0x0A then 1 else 0 := by
  cases state with
  | none => exact count_start b
  | some p =>
    have hlower := p.lower_ge
    unfold feed
    dsimp only
    split
    next h =>
      rw [if_neg (by omega)]
      split
      next hmore =>
        have hge := p.code_ge h.1
        rw [hmore, Nat.pow_zero, Nat.mul_one] at hge
        rw [List.count_eq_zero, List.mem_singleton, eq_comm, ofNat_eq_newline_iff]
        omega
      next => rfl
    next =>
      rw [List.count_cons_of_ne (by decide)]
      exact count_start b

theorem decode_newline_cons (state : Option Pending) (b : List UInt8) :
    decode state (0x0A :: b) = decode state [] ++ ['\n'] ++ decode none b := by
  have hfeed : feed state (0x0A : UInt8).toNat = (decode state [] ++ ['\n'], none) :=
    feed_newline state
  rw [decode, hfeed]

theorem decode_append_newline (state : Option Pending) (a b : List UInt8) :
    decode state (a ++ 0x0A :: b) = decode state (a ++ [0x0A]) ++ decode none b := by
  induction a generalizing state with
  | nil =>
    rw [List.nil_append, List.nil_append, decode_newline_cons, decode_newline_cons, decode,
      List.append_nil]
  | cons x a ih =>
    rw [List.cons_append, List.cons_append, decode, decode, ih, List.append_assoc]

theorem fromUtf8Lossy_append {a : List UInt8} (h : a.getLast? = some 0x0A) (b : List UInt8) :
    fromUtf8Lossy (a ++ b) = fromUtf8Lossy a ++ fromUtf8Lossy b := by
  obtain ⟨init, rfl⟩ := List.getLast?_eq_some_iff.mp h
  rw [List.append_assoc]
  exact decode_append_newline none init b

theorem count_decode (state : Option Pending) (bytes : List UInt8) :
    (decode state bytes).count '\n' = bytes.count 0x0A := by
  induction bytes generalizing state with
  | nil => cases state <;> rfl
  | cons b bs ih =>
    have hb : b = 0x0A ↔ b.toNat = 0x0A := by
      rw [← UInt8.toNat_inj]
      rfl
    rw [decode, List.count_append, ih, count_feed, List.count_cons]
    simp only [beq_iff_eq, hb]
    omega

theorem exists_decode_append (state : Option Pending) (a b : List UInt8) :
    ∃ front rest, decode state (a ++ b) = front ++ decode rest b := by
  induction a generalizing state with
  | nil => exact ⟨[], state, rfl⟩
  | cons x a ih =>
    obtain ⟨front, rest, h⟩ := ih (feed state x.toNat).2
    exact ⟨(feed state x.toNat).1 ++ front, rest, by
      rw [List.cons_append, decode, h, List.append_assoc]⟩

theorem decode_singleton_ne_nil (state : Option Pending) (b : UInt8) : decode state [b] ≠ [] := by
  have hstart : (start b.toNat).1 ++ decode (start b.toNat).2 [] ≠ [] := by
    unfold start
    split
    · simp
    · split <;> simp [decode]
  rw [decode]
  cases state with
  | none => exact hstart
  | some p =>
    unfold feed
    dsimp only
    split
    · split <;> simp [decode]
    · simp

/-- The text ends in a line feed exactly when the bytes do. -/
theorem getLast?_decode (state : Option Pending) (bytes : List UInt8) :
    (decode state bytes).getLast? = some '\n' ↔ bytes.getLast? = some 0x0A := by
  induction bytes using List.reverseRecOn with
  | nil => cases state <;> simp [decode, replacement]
  | append_singleton init b =>
    rw [List.getLast?_concat, Option.some_inj]
    constructor
    · intro h
      obtain ⟨front, rest, heq⟩ := exists_decode_append state init [b]
      rw [heq, List.getLast?_append_of_ne_nil _ (decode_singleton_ne_nil rest b)] at h
      have hmem := List.mem_of_getLast? h
      rw [← List.count_pos_iff, count_decode, List.count_pos_iff, List.mem_singleton] at hmem
      exact hmem.symm
    · rintro rfl
      obtain ⟨front, rest, heq⟩ := exists_decode_append state init [0x0A]
      rw [heq, decode_newline_cons, decode, List.append_nil, ← List.append_assoc,
        List.getLast?_concat]

theorem getLast?_fromUtf8Lossy (bytes : List UInt8) :
    (fromUtf8Lossy bytes).getLast? = some '\n' ↔ bytes.getLast? = some 0x0A :=
  getLast?_decode none bytes

theorem fromUtf8Lossy_eq_nil_iff {bytes : List UInt8} : fromUtf8Lossy bytes = [] ↔ bytes = [] := by
  induction bytes using List.reverseRecOn with
  | nil => exact ⟨fun _ => rfl, fun _ => rfl⟩
  | append_singleton init b =>
    obtain ⟨front, rest, heq⟩ := exists_decode_append none init [b]
    rw [fromUtf8Lossy, heq]
    simp [decode_singleton_ne_nil]

theorem count_fromUtf8Lossy (bytes : List UInt8) :
    (fromUtf8Lossy bytes).count '\n' = bytes.count 0x0A :=
  count_decode none bytes

end Newline

section Encode

theorem decode_cons (state : Option Pending) (b : UInt8) (bs : List UInt8) :
    decode state (b :: bs) = (feed state b.toNat).1 ++ decode (feed state b.toNat).2 bs := by
  cases state <;> rfl

theorem decode_last {p : Pending} {b : UInt8} (h : p.lower ≤ b.toNat ∧ b.toNat ≤ p.upper)
    (hmore : p.more = 0) (bs : List UInt8) :
    decode (some p) (b :: bs) = Char.ofNat (p.code b.toNat) :: decode none bs := by
  obtain ⟨more, lower, upper, acc, hlower, hwide⟩ := p
  obtain rfl : more = 0 := hmore
  rw [decode_cons, feed, dif_pos h]
  rfl

theorem decode_more {p : Pending} {b : UInt8} (h : p.lower ≤ b.toNat ∧ b.toNat ≤ p.upper) {n : Nat}
    (hmore : p.more = n + 1) (bs : List UInt8) :
    decode (some p) (b :: bs) = decode (some (p.next b.toNat h.1 n hmore)) bs := by
  obtain ⟨more, lower, upper, acc, hlower, hwide⟩ := p
  obtain rfl : more = n + 1 := hmore
  rw [decode_cons, feed, dif_pos h]
  rfl

theorem decode_lead {p : Pending} {b : UInt8} (h : lead b.toNat = some p) (hb : 0x80 ≤ b.toNat)
    (bs : List UInt8) : decode none (b :: bs) = decode (some p) bs := by
  rw [decode_cons, feed, start, if_neg (Nat.not_lt_of_le hb), h]
  rfl

/-- Which bytes may follow the first one of two, three or four. -/
theorem lead_two {b : Nat} (h : 0xC2 ≤ b ∧ b ≤ 0xDF) :
    ∃ p, lead b = some p ∧ p.more = 0 ∧ p.acc = b - 0xC0 ∧ p.lower = 0x80 ∧ p.upper = 0xBF :=
  ⟨_, dif_pos h, rfl, rfl, rfl, rfl⟩

theorem lead_three {b c : Nat} (h : 0xE0 ≤ b ∧ b ≤ 0xEF) (hc : 0x80 ≤ c ∧ c ≤ 0xBF)
    (hshort : b = 0xE0 → 0xA0 ≤ c) (hsurrogate : b = 0xED → c ≤ 0x9F) :
    ∃ p, lead b = some p ∧ p.more = 1 ∧ p.acc = b - 0xE0 ∧ p.lower ≤ c ∧ c ≤ p.upper := by
  unfold lead
  split_ifs with htwo hE0 hED hthree
  · omega
  · exact ⟨_, rfl, rfl, by simp [hE0], hshort hE0, hc.2⟩
  · exact ⟨_, rfl, rfl, by simp [hED], hc.1, hsurrogate hED⟩
  · exact ⟨_, rfl, rfl, rfl, hc⟩
  all_goals omega

theorem lead_four {b c : Nat} (h : 0xF0 ≤ b ∧ b ≤ 0xF4) (hc : 0x80 ≤ c ∧ c ≤ 0xBF)
    (hshort : b = 0xF0 → 0x90 ≤ c) (hlarge : b = 0xF4 → c ≤ 0x8F) :
    ∃ p, lead b = some p ∧ p.more = 2 ∧ p.acc = b - 0xF0 ∧ p.lower ≤ c ∧ c ≤ p.upper := by
  unfold lead
  split_ifs with htwo hE0 hED hthree hF0 hfour hF4
  · omega
  · omega
  · omega
  · omega
  · exact ⟨_, rfl, rfl, by simp [hF0], hshort hF0, hc.2⟩
  · exact ⟨_, rfl, rfl, rfl, hc⟩
  · exact ⟨_, rfl, rfl, by simp [hF4], hc.1, hlarge hF4⟩
  · omega

theorem ofNat_toNat_of_lt {n : Nat} (h : n < 256) : (UInt8.ofNat n).toNat = n :=
  UInt8.toNat_ofNat_of_lt' h

theorem code_next (p : Pending) {b : Nat} (hb : p.lower ≤ b) {n : Nat} (hmore : p.more = n + 1)
    (x : Nat) : (p.next b hb n hmore).code x = p.code b * 64 + (x - 0x80) := rfl

theorem more_next (p : Pending) {b : Nat} (hb : p.lower ≤ b) {n : Nat} (hmore : p.more = n + 1) :
    (p.next b hb n hmore).more = n := rfl

theorem bounds_next (p : Pending) {b : Nat} (hb : p.lower ≤ b) {n : Nat} (hmore : p.more = n + 1)
    (v : Nat) : (p.next b hb n hmore).lower ≤ (UInt8.ofNat (v % 0x40 + 0x80)).toNat ∧
      (UInt8.ofNat (v % 0x40 + 0x80)).toNat ≤ (p.next b hb n hmore).upper := by
  rw [ofNat_toNat_of_lt (by omega)]
  refine ⟨Nat.le_add_left _ _, ?_⟩
  change v % 0x40 + 0x80 ≤ 0xBF
  omega

theorem decode_utf8EncodeChar (c : Char) (bs : List UInt8) :
    decode none (String.utf8EncodeChar c ++ bs) = c :: decode none bs := by
  have hvalid : c.val.toNat < 0xD800 ∨ 0xDFFF < c.val.toNat ∧ c.val.toNat < 0x110000 := c.valid
  have hchar : Char.ofNat c.val.toNat = c := Char.ofNat_toNat c
  unfold String.utf8EncodeChar
  generalize c.val.toNat = v at hvalid hchar ⊢
  dsimp only
  split_ifs with hone htwo hthree
  · have hb := ofNat_toNat_of_lt (show v < 256 by omega)
    rw [List.singleton_append, decode_cons, hb, feed, start, if_pos (by omega), hchar]
    rfl
  · have hb := ofNat_toNat_of_lt (show v / 64 % 0x20 + 0xc0 < 256 by omega)
    have hb' := ofNat_toNat_of_lt (show v % 0x40 + 0x80 < 256 by omega)
    obtain ⟨p, hp, hmore, hacc, hlower, hupper⟩ :=
      lead_two (b := v / 64 % 0x20 + 0xc0) (by omega)
    have hcode : p.code (UInt8.ofNat (v % 0x40 + 0x80)).toNat = v := by
      unfold Pending.code
      omega
    rw [List.cons_append, List.singleton_append, decode_lead (hb.symm ▸ hp) (by omega),
      decode_last (by omega) hmore, hcode]
    exact congrArg (· :: decode none bs) hchar
  · have hb := ofNat_toNat_of_lt (show v / 4096 % 0x10 + 0xe0 < 256 by omega)
    have hb' := ofNat_toNat_of_lt (show v / 64 % 0x40 + 0x80 < 256 by omega)
    have hb'' := ofNat_toNat_of_lt (show v % 0x40 + 0x80 < 256 by omega)
    obtain ⟨p, hp, hmore, hacc, hnext⟩ :=
      lead_three (b := v / 4096 % 0x10 + 0xe0) (c := v / 64 % 0x40 + 0x80)
        (by omega) (by omega) (by omega) (by omega)
    have hcode : (p.code (v / 64 % 0x40 + 0x80)) * 64 + (v % 0x40 + 0x80 - 0x80) = v := by
      unfold Pending.code
      omega
    rw [List.cons_append, List.cons_append, List.singleton_append,
      decode_lead (hb.symm ▸ hp) (by omega), decode_more (hb'.symm ▸ hnext) hmore,
      decode_last (bounds_next ..) (more_next ..)]
    rw [code_next, hb', hb'', hcode]
    exact congrArg (· :: decode none bs) hchar
  · have hb := ofNat_toNat_of_lt (show v / 262144 % 0x08 + 0xf0 < 256 by omega)
    have hb' := ofNat_toNat_of_lt (show v / 4096 % 0x40 + 0x80 < 256 by omega)
    have hb'' := ofNat_toNat_of_lt (show v / 64 % 0x40 + 0x80 < 256 by omega)
    have hb''' := ofNat_toNat_of_lt (show v % 0x40 + 0x80 < 256 by omega)
    obtain ⟨p, hp, hmore, hacc, hnext⟩ :=
      lead_four (b := v / 262144 % 0x08 + 0xf0) (c := v / 4096 % 0x40 + 0x80)
        (by omega) (by omega) (by omega) (by omega)
    have hcode : (p.code (v / 4096 % 0x40 + 0x80) * 64 + (v / 64 % 0x40 + 0x80 - 0x80)) * 64 +
        (v % 0x40 + 0x80 - 0x80) = v := by
      unfold Pending.code
      omega
    rw [List.cons_append, List.cons_append, List.cons_append, List.singleton_append,
      decode_lead (hb.symm ▸ hp) (by omega), decode_more (hb'.symm ▸ hnext) hmore,
      decode_more (bounds_next ..) (more_next ..), decode_last (bounds_next ..) (more_next ..)]
    rw [code_next, code_next, hb', hb'', hb''', hcode]
    exact congrArg (· :: decode none bs) hchar

/-- Text is read back from its encoding. -/
theorem fromUtf8Lossy_encode (cs : List Char) :
    fromUtf8Lossy (cs.flatMap String.utf8EncodeChar) = cs := by
  induction cs with
  | nil => rfl
  | cons c cs ih =>
    rw [List.flatMap_cons, fromUtf8Lossy, decode_utf8EncodeChar]
    exact congrArg (c :: ·) ih

end Encode

section Strict

/-- Decoding that fails where the lossy one replaces. -/
def decodeStrict : Option Pending → List UInt8 → Option (List Char)
  | none, [] => some []
  | some _, [] => none
  | state, b :: bs => do
    let (out, next) ← accept state b.toNat
    (decodeStrict next bs).map (out ++ ·)

def fromUtf8 (bytes : List UInt8) : Option (List Char) :=
  decodeStrict none bytes

theorem decodeStrict_cons (state : Option Pending) (b : UInt8) (bs : List UInt8) :
    decodeStrict state (b :: bs) = (accept state b.toNat).bind fun step =>
      (decodeStrict step.2 bs).map (step.1 ++ ·) := by
  cases state <;> rfl

/-- A byte that is not accepted leaves its mark. -/
theorem accept_of_feed {state : Option Pending} {b : Nat}
    (h : replacement ∉ (feed state b).1) : accept state b = some (feed state b) := by
  cases state with
  | none =>
    simp only [feed, start, accept] at h ⊢
    split_ifs at h ⊢ with hb
    · rfl
    · cases hlead : lead b with
      | none =>
        rw [hlead] at h
        exact absurd (List.mem_singleton_self _) h
      | some p => rfl
  | some p =>
    simp only [feed, accept] at h ⊢
    split_ifs at h ⊢ with hb
    · split <;> rfl
    · exact absurd List.mem_cons_self h

theorem decodeStrict_of_decode {state : Option Pending} {bs : List UInt8}
    (h : replacement ∉ decode state bs) : decodeStrict state bs = some (decode state bs) := by
  induction bs generalizing state with
  | nil =>
    cases state with
    | none => rfl
    | some p => exact absurd (List.mem_singleton_self _) h
  | cons b bs ih =>
    rw [decode_cons, List.mem_append, not_or] at h
    rw [decodeStrict_cons, accept_of_feed h.1, Option.bind_some, ih h.2, decode_cons]
    rfl

theorem decodeStrict_append {state : Option Pending} {as : List UInt8} {out : List Char}
    (h : decodeStrict state as = some out) (bs : List UInt8) :
    decodeStrict state (as ++ bs) = (decodeStrict none bs).map (out ++ ·) := by
  induction as generalizing state out with
  | nil =>
    cases state with
    | none =>
      cases h
      simp
    | some p => cases h
  | cons a as ih =>
    rw [decodeStrict_cons] at h
    obtain ⟨⟨front, next⟩, haccept, hrest⟩ := Option.bind_eq_some_iff.mp h
    obtain ⟨back, hback, rfl⟩ := Option.map_eq_some_iff.mp hrest
    rw [List.cons_append, decodeStrict_cons, haccept, Option.bind_some, ih hback, Option.map_map]
    exact congrArg (Option.map · _) (funext fun cs => (List.append_assoc ..).symm)

theorem decodeStrict_utf8EncodeChar (c : Char) :
    decodeStrict none (String.utf8EncodeChar c) = some [c] := by
  rcases eq_or_ne c replacement with rfl | hc
  · decide +kernel
  · have hdecode := decode_utf8EncodeChar c []
    rw [List.append_nil] at hdecode
    have hmark : replacement ∉ decode none (String.utf8EncodeChar c) := by
      rw [hdecode]
      exact fun hmem => hc (List.mem_singleton.mp hmem).symm
    rw [decodeStrict_of_decode hmark, hdecode]
    rfl

theorem fromUtf8_encode (cs : List Char) :
    fromUtf8 (cs.flatMap String.utf8EncodeChar) = some cs := by
  induction cs with
  | nil => rfl
  | cons c cs ih =>
    have hrest : decodeStrict none (cs.flatMap String.utf8EncodeChar) = some cs := ih
    rw [List.flatMap_cons, fromUtf8, decodeStrict_append (decodeStrict_utf8EncodeChar c), hrest]
    rfl

end Strict

end Workflows.Utf8
