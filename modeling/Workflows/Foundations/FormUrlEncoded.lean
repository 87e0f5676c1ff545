import Workflows.Foundations.Json

/-!
# Names and values in the query of a URL

Pairs are written with `=` between a name and its value and `&` between pairs. Of what is in them,
letters, digits and a few marks stand for themselves and `+` for a space; other bytes of the text
are escaped. Whatever is written is read back.
-/

namespace Workflows.FormUrlEncoded

section Escape

def isUnreserved (b : UInt8) : Bool :=
  let c := Char.ofNat b.toNat
  c.isAlphanum || c = '*' || c = '-' || c = '.' || c = '_'

def hexLetter (n : Nat) : Char := Char.ofNat (if n < 10 then 48 + n else 55 + n)

def escapeByte (b : UInt8) : List Char :=
  if isUnreserved b then [Char.ofNat b.toNat]
  else if b = 32 then ['+']
  else ['%', hexLetter (b.toNat / 16), hexLetter (b.toNat % 16)]

def bytesOf (cs : List Char) : List UInt8 := cs.flatMap String.utf8EncodeChar

def escape (text : String) : List Char := (bytesOf text.toList).flatMap escapeByte

def hexByte (b : UInt8) : Option Nat := Json.hexDigit (Char.ofNat b.toNat)

/-- What is no escape is left as it is. -/
def unescapeBytes : List UInt8 → List UInt8
  | a :: b :: c :: rest =>
    if a = 37 then
      match hexByte b, hexByte c with
      | some high, some low => UInt8.ofNat (16 * high + low) :: unescapeBytes rest
      | _, _ => a :: unescapeBytes (b :: c :: rest)
    else a :: unescapeBytes (b :: c :: rest)
  | bytes => bytes

def spaced (c : Char) : Char := if c = '+' then ' ' else c

def unescape (cs : List Char) : String :=
  String.ofList (Utf8.fromUtf8Lossy (unescapeBytes (bytesOf (cs.map spaced))))

end Escape

section Pairs

def printPair (pair : String × String) : List Char := escape pair.1 ++ '=' :: escape pair.2

def print (pairs : List (String × String)) : List Char := ['&'].intercalate (pairs.map printPair)

/-- A name without `=` has the empty value. -/
def parsePair (cs : List Char) : String × String :=
  (unescape (cs.takeWhile (· ≠ '=')), unescape ((cs.dropWhile (· ≠ '=')).drop 1))

def parse (cs : List Char) : List (String × String) :=
  ((cs.splitOn '&').filter (· ≠ [])).map parsePair

end Pairs

section RoundTrip

/-- What the byte is read from: itself, unless it is a `%`, or an escape. -/
def reads (b : UInt8) : List UInt8 → Bool
  | [a] => a = b && a ≠ 37
  | [a, x, y] =>
    a = 37 && (hexByte x).any fun high => (hexByte y).any fun low => UInt8.ofNat (16 * high + low) = b
  | _ => false

/-- Neither mark of the format is left by an escape. -/
theorem escapeByte_spec (n : Fin 256) :
    (escapeByte (UInt8.ofNat n)).all (fun c => c ≠ '&' && c ≠ '=') ∧
      reads (UInt8.ofNat n) (bytesOf ((escapeByte (UInt8.ofNat n)).map spaced)) := by
  revert n
  decide +kernel

theorem escapeByte_spec' (b : UInt8) :
    (escapeByte b).all (fun c => c ≠ '&' && c ≠ '=') ∧
      reads b (bytesOf ((escapeByte b).map spaced)) := by
  have hspec := escapeByte_spec ⟨b.toNat, b.toNat_lt⟩
  rwa [UInt8.ofNat_toNat] at hspec

theorem unescapeBytes_cons_of_ne {a : UInt8} (h : a ≠ 37) (rest : List UInt8) :
    unescapeBytes (a :: rest) = a :: unescapeBytes rest := by
  match rest with
  | [] => rfl
  | [b] => rfl
  | b :: c :: rest => rw [unescapeBytes, if_neg h]

theorem unescapeBytes_of_reads {b : UInt8} {bytes : List UInt8} (h : reads b bytes)
    (rest : List UInt8) : unescapeBytes (bytes ++ rest) = b :: unescapeBytes rest := by
  match bytes with
  | [] => cases h
  | [a] =>
    simp only [reads, Bool.and_eq_true, decide_eq_true_eq] at h
    obtain ⟨rfl, hne⟩ := h
    exact unescapeBytes_cons_of_ne hne rest
  | [a, x] => cases h
  | [a, x, y] =>
    simp only [reads, Bool.and_eq_true, decide_eq_true_eq, Option.any_eq_true] at h
    obtain ⟨rfl, high, hhigh, low, hlow, rfl⟩ := h
    rw [List.cons_append, List.cons_append, List.cons_append, List.nil_append, unescapeBytes,
      if_pos rfl, hhigh, hlow]
  | a :: x :: y :: z :: more => cases h

theorem bytesOf_append (front back : List Char) :
    bytesOf (front ++ back) = bytesOf front ++ bytesOf back := List.flatMap_append

theorem unescapeBytes_escaped (bytes : List UInt8) :
    unescapeBytes (bytesOf ((bytes.flatMap escapeByte).map spaced)) = bytes := by
  induction bytes with
  | nil => rfl
  | cons b bytes ih =>
    rw [List.flatMap_cons, List.map_append, bytesOf_append,
      unescapeBytes_of_reads (escapeByte_spec' b).2, ih]

/-- Text is read back from what it is escaped to. -/
theorem unescape_escape (text : String) : unescape (escape text) = text := by
  rw [unescape, escape, unescapeBytes_escaped, bytesOf, Utf8.fromUtf8Lossy_encode,
    String.ofList_toList]

theorem not_mem_escape (text : String) : '&' ∉ escape text ∧ '=' ∉ escape text := by
  have hmem : ∀ c ∈ escape text, c ≠ '&' ∧ c ≠ '=' := by
    intro c hc
    obtain ⟨b, -, hb⟩ := List.mem_flatMap.mp hc
    have hall := List.all_eq_true.mp (escapeByte_spec' b).1 c hb
    simpa using hall
  exact ⟨fun h => (hmem _ h).1 rfl, fun h => (hmem _ h).2 rfl⟩

theorem parsePair_printPair (pair : String × String) : parsePair (printPair pair) = pair := by
  have hname : ∀ c ∈ escape pair.1, decide (c ≠ '=') = true := by
    intro c hc
    exact decide_eq_true fun heq => (not_mem_escape pair.1).2 (heq ▸ hc)
  rw [parsePair, printPair, List.takeWhile_append_of_pos hname, List.dropWhile_append_of_pos hname,
    List.takeWhile_cons_of_neg (by simp), List.dropWhile_cons_of_neg (by simp), List.append_nil,
    List.drop_one, List.tail_cons, unescape_escape, unescape_escape]

theorem not_mem_printPair (pair : String × String) : '&' ∉ printPair pair := by
  rw [printPair, List.mem_append, List.mem_cons, not_or, not_or]
  exact ⟨(not_mem_escape pair.1).1, by decide, (not_mem_escape pair.2).1⟩

/-- Pairs are read back in their order, with all that is repeated or empty. -/
theorem parse_print (pairs : List (String × String)) : parse (print pairs) = pairs := by
  cases pairs with
  | nil => rfl
  | cons pair pairs =>
    have hsplit : (print (pair :: pairs)).splitOn '&' = (pair :: pairs).map printPair := by
      apply List.splitOn_intercalate
      · intro cs hcs
        obtain ⟨pair, -, rfl⟩ := List.mem_map.mp hcs
        exact not_mem_printPair pair
      · exact List.cons_ne_nil _ _
    have hkept : ((pair :: pairs).map printPair).filter (· ≠ []) = (pair :: pairs).map printPair := by
      rw [List.filter_eq_self]
      intro cs hcs
      obtain ⟨pair, -, rfl⟩ := List.mem_map.mp hcs
      simp [printPair]
    rw [parse, hsplit, hkept, List.map_map]
    have hid : parsePair ∘ printPair = id := funext parsePair_printPair
    rw [hid, List.map_id]

example : parse "group=MX&search=a+b%20%C3%A9&&x".toList =
    [("group", "MX"), ("search", "a b é"), ("x", "")] := by decide +kernel

end RoundTrip

end Workflows.FormUrlEncoded
