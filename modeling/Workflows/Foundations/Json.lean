import Workflows.Foundations.Utf8

/-!
# JSON values and pointers into them

A pointer is a list of tokens. As the fragment of a URI it is percent-encoded, and within a token
`~0` and `~1` stand for `~` and `/`.
-/

namespace Workflows

/-- A JSON value; a number is kept as its text. The entries of an object stand in any order. -/
inductive Json where
  | null
  | bool (b : Bool)
  | number (text : String)
  | string (s : String)
  | array (items : List Json)
  | object (entries : List (String × Json))

namespace Json

inductive Head where
  | null
  | bool (b : Bool)
  | number (text : String)
  | string (s : String)
  | array (length : Nat)
  | object (keys : List String)
  deriving DecidableEq

def head : Json → Head
  | .null => .null
  | .bool b => .bool b
  | .number text => .number text
  | .string s => .string s
  | .array items => .array items.length
  | .object entries => .object (entries.map (·.1))

section Get

def digits (cs : List Char) : Nat :=
  cs.foldl (fun n c => 10 * n + (c.toNat - '0'.toNat)) 0

def arrayIndex (token : String) : Option Nat :=
  let cs := token.toList
  if cs = ['0'] then some 0
  else if cs ≠ [] ∧ cs.head? ≠ some '0' ∧ cs.all Char.isDigit then some (digits cs)
  else none

def child : Json → String → Option Json
  | .array items, token => (arrayIndex token).bind (items[·]?)
  | .object entries, token => entries.lookup token
  | _, _ => none

def get : Json → List String → Option Json
  | j, [] => some j
  | j, token :: path => (j.child token).bind (get · path)

theorem mem_of_child {entries : List (String × Json)} {token : String} {v : Json}
    (h : (Json.object entries).child token = some v) : (token, v) ∈ entries := by
  obtain ⟨front, back, hsplit, -⟩ := List.lookup_eq_some_iff.mp h
  simp [hsplit]

theorem lookup_cons_ite (name : String) (j : Json) (entries : List (String × Json)) (key : String) :
    ((name, j) :: entries).lookup key = if key = name then some j else entries.lookup key := by
  rw [List.lookup_cons]
  by_cases h : key = name
  · rw [if_pos h, h, beq_self_eq_true]
  · rw [if_neg h, beq_false_of_ne h]

theorem lookup_map (entries : List (String × Json)) (f : String → Json → Json) (key : String) :
    (entries.map fun entry => (entry.1, f entry.1 entry.2)).lookup key =
      (entries.lookup key).map (f key) := by
  induction entries with
  | nil => rfl
  | cons entry entries ih =>
    obtain ⟨name, j⟩ := entry
    rw [List.map_cons, lookup_cons_ite, lookup_cons_ite, ih]
    split_ifs with h
    · rw [h]
      rfl
    · rfl

theorem sizeOf_child_lt {j v : Json} {token : String} (h : j.child token = some v) :
    sizeOf v < sizeOf j := by
  cases j with
  | array items =>
    obtain ⟨i, -, hi⟩ := Option.bind_eq_some_iff.mp h
    have hlt := List.sizeOf_lt_of_mem (List.mem_of_getElem? hi)
    simp only [array.sizeOf_spec]
    omega
  | object entries =>
    have hlt : sizeOf (token, v) < sizeOf entries := List.sizeOf_lt_of_mem (mem_of_child h)
    simp only [Prod.mk.sizeOf_spec] at hlt
    simp only [object.sizeOf_spec]
    omega
  | _ => cases h

theorem sizeOf_get_lt {j v : Json} {token : String} {path : List String}
    (h : j.get (token :: path) = some v) : sizeOf v < sizeOf j := by
  induction path generalizing j token with
  | nil =>
    obtain ⟨w, hw, heq⟩ := Option.bind_eq_some_iff.mp h
    obtain rfl := Option.some_inj.mp heq
    exact sizeOf_child_lt hw
  | cons next path ih =>
    obtain ⟨w, hw, hrest⟩ := Option.bind_eq_some_iff.mp h
    exact (ih hrest).trans (sizeOf_child_lt hw)

theorem object_of_child_isSome {j v : Json} {token : String} (htoken : arrayIndex token = none)
    (h : j.child token = some v) : ∃ entries, j = .object entries := by
  cases j with
  | object entries => exact ⟨entries, rfl⟩
  | array items =>
    rw [child, htoken] at h
    cases h
  | _ => cases h

end Get

section Pointer

def hexDigit (c : Char) : Option Nat :=
  if c.isDigit then some (c.toNat - '0'.toNat)
  else if 'a' ≤ c ∧ c ≤ 'f' then some (c.toNat - 'a'.toNat + 10)
  else if 'A' ≤ c ∧ c ≤ 'F' then some (c.toNat - 'A'.toNat + 10)
  else none

def percentDecode (state : Option Utf8.Pending) (cs : List Char) : Option (List Char) :=
  match cs with
  | [] => if state.isNone then some [] else none
  | c :: rest =>
    if c = '%' then
      match rest with
      | a :: b :: rest' => do
        let high ← hexDigit a
        let low ← hexDigit b
        let (out, next) ← Utf8.accept state (16 * high + low)
        (percentDecode next rest').map (out ++ ·)
      | _ => none
    else if state.isNone then (percentDecode none rest).map (c :: ·)
    else none

theorem percentDecode_append {front : List Char} (h : '%' ∉ front) (back : List Char) :
    percentDecode none (front ++ back) = (percentDecode none back).map (front ++ ·) := by
  induction front with
  | nil => simp
  | cons c front ih =>
    obtain ⟨hc, hfront⟩ := List.ne_and_not_mem_of_not_mem_cons h
    have hempty : (none : Option Utf8.Pending).isNone := rfl
    rw [List.cons_append, percentDecode.eq_def]
    dsimp only
    rw [if_neg (Ne.symm hc), if_pos hempty, ih hfront, Option.map_map]
    rfl

def splitTokens : List Char → List (List Char)
  | [] => [[]]
  | c :: cs =>
    if c = '/' then [] :: splitTokens cs
    else
      match splitTokens cs with
      | [] => [[c]]
      | token :: tokens => (c :: token) :: tokens

theorem splitTokens_append {front : List Char} (h : '/' ∉ front) (back : List Char) :
    splitTokens (front ++ '/' :: back) = front :: splitTokens back := by
  induction front with
  | nil => simp [splitTokens]
  | cons c front ih =>
    obtain ⟨hc, hfront⟩ := List.ne_and_not_mem_of_not_mem_cons h
    rw [List.cons_append, splitTokens, if_neg (Ne.symm hc), ih hfront]

def unescape : List Char → Option (List Char)
  | [] => some []
  | '~' :: '0' :: cs => (unescape cs).map ('~' :: ·)
  | '~' :: '1' :: cs => (unescape cs).map ('/' :: ·)
  | c :: cs => if c = '~' then none else (unescape cs).map (c :: ·)

theorem unescape_of_not_mem {token : List Char} (h : '~' ∉ token) :
    unescape token = some token := by
  induction token with
  | nil => rfl
  | cons c token ih =>
    obtain ⟨hc, htoken⟩ := List.ne_and_not_mem_of_not_mem_cons h
    rw [unescape, if_neg (Ne.symm hc), ih htoken]
    · rfl
    all_goals
      rintro _ rfl
      exact absurd rfl hc

def tokenOf (token : List Char) : Option String :=
  (unescape token).map String.ofList

def parsePointer : List Char → Option (List String)
  | [] => some []
  | c :: rest => if c = '/' then (splitTokens rest).mapM tokenOf else none

/-- The tokens of a reference into the document it stands in. -/
def pointerOf (reference : String) : Option (List String) :=
  match reference.toList with
  | '#' :: fragment => (percentDecode none fragment).bind parsePointer
  | _ => none

theorem pointerOf_of_toList {reference : String} {fragment : List Char}
    (h : reference.toList = '#' :: fragment) :
    pointerOf reference = (percentDecode none fragment).bind parsePointer := by
  rw [pointerOf, h]
  rfl

def resolve (document : Json) (reference : String) : Option Json :=
  (pointerOf reference).bind document.get

example : pointerOf "#/a~1b/%E2%82%AC/0" = some ["a/b", "€", "0"] := by decide +kernel

end Pointer

end Json

end Workflows
