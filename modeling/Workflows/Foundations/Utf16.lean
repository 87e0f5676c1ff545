import Mathlib.Data.List.Basic

/-!
# UTF-16 code units

What a string of JavaScript is made of: a letter beyond the first plane counts for two units.
-/

namespace Workflows.Utf16

def charUnits (c : Char) : List Nat :=
  if c.toNat < 0x10000 then [c.toNat]
  else [0xD800 + (c.toNat - 0x10000) / 0x400, 0xDC00 + (c.toNat - 0x10000) % 0x400]

def codeUnits (cs : List Char) : List Nat := cs.flatMap charUnits

end Workflows.Utf16
