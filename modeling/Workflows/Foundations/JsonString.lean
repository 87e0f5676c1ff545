import Workflows.Foundations.Json

/-!
# Strings in JSON text

A string is printed between quotes with as few escapes as JSON allows. It is read letter by letter;
a leading surrogate has to be followed by a trailing one.
-/

namespace Workflows.Json

/-- A reader of a front of the text, with what it leaves of it. -/
abbrev Parser (α : Type) := List Char → Option (α × List Char)

theorem eq_some_of_map {α β : Type} {f : α → β} {result : Option (α × List Char)} {y : β}
    {rest : List Char} (h : (result.map fun (x, rest) => (f x, rest)) = some (y, rest)) :
    ∃ x, result = some (x, rest) ∧ y = f x := by
  obtain ⟨⟨x, left⟩, hresult, heq⟩ := Option.map_eq_some_iff.mp h
  obtain ⟨rfl, rfl⟩ := Prod.mk.inj heq
  exact ⟨x, hresult, rfl⟩

section Print

def escape (c : Char) : List Char :=
  if c = '\x22' then ['\\', '\x22']
  else if c = '\\' then ['\\', '\\']
  else if c = '\x08' then ['\\', 'b']
  else if c = '\x0c' then ['\\', 'f']
  else if c = '\n' then ['\\', 'n']
  else if c = '\r' then ['\\', 'r']
  else if c = '\t' then ['\\', 't']
  else if c.toNat < 0x20 then
    ['\\', 'u', '0', '0', Nat.digitChar (c.toNat / 16), Nat.digitChar (c.toNat % 16)]
  else [c]

def quoted (s : String) : List Char := '\x22' :: (s.toList.flatMap escape ++ ['\x22'])

end Print

section Read

inductive StringState where
  | plain
  | escaped
  | hex (left unit : Nat) (high : Option Nat)
  | afterHigh (high : Nat)
  | afterHighEscape (high : Nat)
  deriving DecidableEq

def escapedChar (c : Char) : Option Char :=
  if c = '\x22' then some '\x22'
  else if c = '\\' then some '\\'
  else if c = '/' then some '/'
  else if c = 'b' then some '\x08'
  else if c = 'f' then some '\x0c'
  else if c = 'n' then some '\n'
  else if c = 'r' then some '\r'
  else if c = 't' then some '\t'
  else none

def isHighSurrogate (unit : Nat) : Bool := 0xD800 ≤ unit ∧ unit ≤ 0xDBFF

def isLowSurrogate (unit : Nat) : Bool := 0xDC00 ≤ unit ∧ unit ≤ 0xDFFF

def codeUnit (unit : Nat) : Option Nat → Option (Option Char × StringState)
  | none =>
    if isHighSurrogate unit then some (none, .afterHigh unit)
    else if isLowSurrogate unit then none
    else some (some (Char.ofNat unit), .plain)
  | some high =>
    if isLowSurrogate unit then
      some (some (Char.ofNat (0x10000 + 0x400 * (high - 0xD800) + (unit - 0xDC00))), .plain)
    else none

def StringState.step (c : Char) : StringState → Option (Option Char × StringState)
  | .plain =>
    if c = '\\' then some (none, .escaped)
    else if c.toNat < 0x20 then none
    else some (some c, .plain)
  | .escaped =>
    if c = 'u' then some (none, .hex 3 0 none)
    else (escapedChar c).map fun d => (some d, .plain)
  | .hex left unit high =>
    (hexDigit c).bind fun digit =>
      match left with
      | left + 1 => some (none, .hex left (16 * unit + digit) high)
      | 0 => codeUnit (16 * unit + digit) high
  | .afterHigh high => if c = '\\' then some (none, .afterHighEscape high) else none
  | .afterHighEscape high => if c = 'u' then some (none, .hex 3 0 (some high)) else none

/-- The string up to its closing quote. -/
def stringBody (state : StringState) : Parser (List Char)
  | [] => none
  | c :: cs =>
    if state = .plain ∧ c = '\x22' then some ([], cs)
    else
      (state.step c).bind fun (out, next) =>
        (stringBody next cs).map fun (body, rest) => (out.toList ++ body, rest)

theorem stringBody_cons {state next : StringState} {c : Char} {out : Option Char}
    (hquote : ¬(state = .plain ∧ c = '\x22')) (hstep : state.step c = some (out, next))
    (cs : List Char) :
    stringBody state (c :: cs) =
      (stringBody next cs).map fun (body, rest) => (out.toList ++ body, rest) := by
  rw [stringBody, if_neg hquote, hstep]
  rfl

theorem length_stringBody {state : StringState} {cs body rest : List Char}
    (h : stringBody state cs = some (body, rest)) : body.length + rest.length < cs.length := by
  induction cs generalizing state body with
  | nil => cases h
  | cons c cs ih =>
    rw [stringBody] at h
    split at h
    · obtain ⟨rfl, rfl⟩ := Prod.mk.inj (Option.some_inj.mp h)
      simp
    · obtain ⟨⟨out, next⟩, -, hrest⟩ := Option.bind_eq_some_iff.mp h
      obtain ⟨tail, htail, rfl⟩ := eq_some_of_map hrest
      have hlt := ih htail
      have hout : out.toList.length ≤ 1 := by cases out <;> simp
      simp only [List.length_append, List.length_cons]
      omega

end Read

section RoundTrip

theorem hexDigit_digitChar : ∀ n < 16, hexDigit (Nat.digitChar n) = some n := by
  decide

theorem stringBody_control {c : Char} (h : c.toNat < 0x20) (rest : List Char) :
    stringBody .plain ('\\' :: 'u' :: '0' :: '0' :: Nat.digitChar (c.toNat / 16) ::
        Nat.digitChar (c.toNat % 16) :: rest) =
      (stringBody .plain rest).map fun (body, rest) => (c :: body, rest) := by
  have hhigh := hexDigit_digitChar (c.toNat / 16) (by omega)
  have hlow := hexDigit_digitChar (c.toNat % 16) (by omega)
  have hunit : 16 * (c.toNat / 16) + c.toNat % 16 = c.toNat := by omega
  have hnotHigh : isHighSurrogate c.toNat = false := by
    simp only [isHighSurrogate, decide_eq_false_iff_not]
    omega
  have hnotLow : isLowSurrogate c.toNat = false := by
    simp only [isLowSurrogate, decide_eq_false_iff_not]
    omega
  have hend : codeUnit c.toNat none = some (some c, .plain) := by
    simp [codeUnit, hnotHigh, hnotLow]
  have hzero : hexDigit '0' = some 0 := rfl
  rw [stringBody_cons (by simp) rfl, stringBody_cons (by simp) rfl,
    stringBody_cons (by simp) (by rw [StringState.step, hzero, Option.bind_some]),
    stringBody_cons (by simp) (by rw [StringState.step, hzero, Option.bind_some]),
    stringBody_cons (by simp) (by rw [StringState.step, hhigh, Option.bind_some]),
    stringBody_cons (by simp) (by rw [StringState.step, hlow, Option.bind_some, Nat.mul_zero,
      Nat.zero_add, hunit, hend])]
  simp [Option.map_map, Function.comp_def]

theorem stringBody_escape (c : Char) (rest : List Char) :
    stringBody .plain (escape c ++ rest) =
      (stringBody .plain rest).map fun (body, rest) => (c :: body, rest) := by
  unfold escape
  split_ifs with hquote hbackslash hb hf hn hr ht hcontrol
  iterate 7
    · subst c
      rw [List.cons_append, List.cons_append, List.nil_append, stringBody_cons (by simp) rfl,
        stringBody_cons (by simp) rfl]
      simp [Option.map_map, Function.comp_def]
  · exact stringBody_control hcontrol rest
  · have hstep : StringState.plain.step c = some (some c, .plain) := by
      rw [StringState.step, if_neg hbackslash, if_neg hcontrol]
    rw [List.cons_append, List.nil_append, stringBody_cons (by simp [hquote]) hstep]
    rfl

theorem stringBody_flatMap_escape (cs rest : List Char) :
    stringBody .plain (cs.flatMap escape ++ '\x22' :: rest) = some (cs, rest) := by
  induction cs with
  | nil => rfl
  | cons c cs ih =>
    rw [List.flatMap_cons, List.append_assoc, stringBody_escape, ih]
    rfl

end RoundTrip

end Workflows.Json
