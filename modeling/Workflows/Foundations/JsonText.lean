import Workflows.Foundations.JsonString
import Workflows.Foundations.Regex

/-!
# JSON text

Values are printed without spaces, and read with a limit on how deep they nest. The entries of an
object that is read are sorted by their keys, the last one of a key counting. What a number is read
as is left to a `NumberFormat`.
-/

namespace Workflows.Json

section Number

def digit : Regex Char := .cls Char.isDigit

def numberRegex : Regex Char :=
  .seq (.opt (.cls (· = '-')))
    (.seq (.alt (.cls (· = '0')) (.seq (.cls fun c => c.isDigit && c ≠ '0') (.star digit)))
      (.seq (.opt (.seq (.cls (· = '.')) (.plus digit)))
        (.opt (.seq (.cls fun c => c = 'e' || c = 'E')
          (.seq (.opt (.cls fun c => c = '+' || c = '-')) (.plus digit))))))

def isNumberChar (c : Char) : Bool :=
  c.isDigit || c = '-' || c = '+' || c = '.' || c = 'e' || c = 'E'

/-- What a number is read as: the text that it is printed as, or nothing where it is too large. -/
structure NumberFormat where
  normalize : List Char → Option String
  isNumber_normalize {token : List Char} {text : String} : normalize token = some text →
    numberRegex.accepts text.toList ∧ normalize text.toList = some text

def NumberFormat.IsNumber (format : NumberFormat) (text : String) : Prop :=
  numberRegex.accepts text.toList ∧ format.normalize text.toList = some text

/-- Any number, as it is written. -/
def NumberFormat.verbatim : NumberFormat where
  normalize token := if numberRegex.accepts token then some (String.ofList token) else none
  isNumber_normalize {token text} h := by
    split_ifs at h with haccepts
    obtain rfl := Option.some_inj.mp h
    rw [String.toList_ofList, if_pos haccepts]
    exact ⟨haccepts, rfl⟩

def numberToken (format : NumberFormat) : Parser Json := fun cs =>
  let (token, rest) := cs.span isNumberChar
  if numberRegex.accepts token then
    (format.normalize token).map fun text => (.number text, rest)
  else none

end Number

section Read

def isSpace (c : Char) : Bool := c = ' ' || c = '\n' || c = '\t' || c = '\r'

def skipSpace (cs : List Char) : List Char := cs.dropWhile isSpace

def expect (c : Char) (cs : List Char) : Option (List Char) :=
  match skipSpace cs with
  | [] => none
  | head :: rest => if head = c then some rest else none

variable {α : Type}

def listItems (close : Char) (item : Parser α) : Nat → Parser (List α)
  | 0, _ => none
  | fuel + 1, cs =>
    (item cs).bind fun (x, rest) =>
      match expect ',' rest with
      | some rest => (listItems close item fuel rest).map fun (xs, rest) => (x :: xs, rest)
      | none => (expect close rest).map fun rest => ([x], rest)

def commaList (close : Char) (item : Parser α) : Parser (List α) := fun cs =>
  match expect close cs with
  | some rest => some ([], rest)
  | none => listItems close item cs.length cs

def member (value : Parser Json) : Parser (String × Json) := fun cs => do
  let cs ← expect '\x22' cs
  let (key, cs) ← stringBody .plain cs
  let cs ← expect ':' cs
  let (v, cs) ← value cs
  return ((String.ofList key, v), cs)

def insertEntry (entry : String × Json) : List (String × Json) → List (String × Json)
  | [] => [entry]
  | e :: entries =>
    if entry.1 < e.1 then entry :: e :: entries
    else if entry.1 = e.1 then entry :: entries
    else e :: insertEntry entry entries

def objectOf (members : List (String × Json)) : List (String × Json) :=
  members.foldl (fun entries entry => insertEntry entry entries) []

def word (text : List Char) (v : Json) : Parser Json := fun cs =>
  (text.isPrefixOf? cs).map fun rest => (v, rest)

variable (format : NumberFormat)

def scalar : Parser Json
  | [] => none
  | c :: cs =>
    if c = 'n' then word ['u', 'l', 'l'] .null cs
    else if c = 't' then word ['r', 'u', 'e'] (.bool true) cs
    else if c = 'f' then word ['a', 'l', 's', 'e'] (.bool false) cs
    else if c = '\x22' then
      (stringBody .plain cs).map fun (body, rest) => (.string (String.ofList body), rest)
    else numberToken format (c :: cs)

/-- A value that nests no deeper than `depth`. -/
def value : Nat → Parser Json
  | 0, cs => scalar format (skipSpace cs)
  | depth + 1, cs =>
    match skipSpace cs with
    | [] => none
    | c :: cs =>
      if c = '[' then
        (commaList ']' (value depth) cs).map fun (items, rest) => (.array items, rest)
      else if c = '{' then
        (commaList '}' (member (value depth)) cs).map fun (members, rest) =>
          (.object (objectOf members), rest)
      else scalar format (c :: cs)

def parse (limit : Nat) (cs : List Char) : Option Json :=
  (value format limit cs).bind fun (v, rest) => if skipSpace rest = [] then some v else none

end Read

section Print

mutual

def text : Json → List Char
  | .null => ['n', 'u', 'l', 'l']
  | .bool true => ['t', 'r', 'u', 'e']
  | .bool false => ['f', 'a', 'l', 's', 'e']
  | .number text => text.toList
  | .string s => quoted s
  | .array items => '[' :: ([','].intercalate (itemTexts items) ++ [']'])
  | .object entries => '{' :: ([','].intercalate (entryTexts entries) ++ ['}'])

def itemTexts : List Json → List (List Char)
  | [] => []
  | item :: items => text item :: itemTexts items

def entryTexts : List (String × Json) → List (List Char)
  | [] => []
  | (key, v) :: entries => (quoted key ++ ':' :: text v) :: entryTexts entries

end

def entryText (entry : String × Json) : List Char := quoted entry.1 ++ ':' :: text entry.2

mutual

def nesting : Json → Nat
  | .array items => itemsNesting items + 1
  | .object entries => entriesNesting entries + 1
  | _ => 0

def itemsNesting : List Json → Nat
  | [] => 0
  | item :: items => max (nesting item) (itemsNesting items)

def entriesNesting : List (String × Json) → Nat
  | [] => 0
  | (_, v) :: entries => max (nesting v) (entriesNesting entries)

end

theorem itemTexts_eq_map (items : List Json) : itemTexts items = items.map text := by
  induction items with
  | nil => rfl
  | cons item items ih => rw [itemTexts, ih, List.map_cons]

theorem entryTexts_eq_map (entries : List (String × Json)) :
    entryTexts entries = entries.map entryText := by
  induction entries with
  | nil => rfl
  | cons entry entries ih =>
    rw [entryTexts, ih, List.map_cons]
    rfl

theorem itemsNesting_le_iff {items : List Json} {d : Nat} :
    itemsNesting items ≤ d ↔ ∀ v ∈ items, v.nesting ≤ d := by
  induction items with
  | nil => simp [itemsNesting]
  | cons item items ih => rw [itemsNesting, Nat.max_le, ih, List.forall_mem_cons]

theorem entriesNesting_le_iff {entries : List (String × Json)} {d : Nat} :
    entriesNesting entries ≤ d ↔ ∀ e ∈ entries, e.2.nesting ≤ d := by
  induction entries with
  | nil => simp [entriesNesting]
  | cons entry entries ih => rw [entriesNesting, Nat.max_le, ih, List.forall_mem_cons]

end Print

section Letters

theorem isNumberChar_of_isDigit {c : Char} (h : c.isDigit) : isNumberChar c := by
  simp [isNumberChar, h]

theorem isNumberChar_of_mem_plus_digit {w : List Char} (h : w ∈ (Regex.plus digit).lang) :
    ∀ c ∈ w, isNumberChar c := fun c hc =>
  isNumberChar_of_isDigit ((Regex.mem_lang_plus_cls.mp h).2 c hc)

theorem isNumberChar_of_mem_opt {r : Regex Char} {w : List Char} (h : w ∈ r.opt.lang)
    (hr : w ∈ r.lang → ∀ c ∈ w, isNumberChar c) : ∀ c ∈ w, isNumberChar c := by
  obtain h | rfl := Regex.mem_lang_opt.mp h
  · exact hr h
  · simp

theorem isNumberChar_of_mem_cls {p : Char → Bool} {w : List Char} (h : w ∈ (Regex.cls p).lang)
    (hp : ∀ c, p c → isNumberChar c) : ∀ c ∈ w, isNumberChar c := by
  obtain ⟨a, ha, rfl⟩ := Regex.mem_lang_cls.mp h
  intro c hc
  rw [List.mem_singleton.mp hc]
  exact hp a ha

theorem isNumberChar_of_mem_integer {w : List Char}
    (h : w ∈ (Regex.alt (.cls (· = '0'))
      (.seq (.cls fun c => c.isDigit && c ≠ '0') (.star digit))).lang) :
    w ≠ [] ∧ ∀ c ∈ w, isNumberChar c := by
  obtain ⟨a, ha, rfl⟩ | ⟨u, ⟨a, ha, rfl⟩, v, hv, rfl⟩ := h
  · obtain rfl := of_decide_eq_true ha
    simp [isNumberChar]
  · have hdigit : a.isDigit := (Bool.and_eq_true_iff.mp ha).1
    refine ⟨by simp, List.forall_mem_cons.mpr ⟨isNumberChar_of_isDigit hdigit, fun c hc => ?_⟩⟩
    exact isNumberChar_of_isDigit (Regex.mem_lang_star_cls.mp hv c hc)

theorem isNumberChar_of_mem_numberRegex {w : List Char} (h : w ∈ numberRegex.lang) :
    w ≠ [] ∧ ∀ c ∈ w, isNumberChar c := by
  obtain ⟨sign, hsign, _, ⟨integer, hinteger, _, ⟨fraction, hfraction, exponent, hexponent, rfl⟩,
    rfl⟩, rfl⟩ := h
  obtain ⟨hne, hletters⟩ := isNumberChar_of_mem_integer hinteger
  refine ⟨by simp [hne], ?_⟩
  simp only [List.forall_mem_append]
  refine ⟨?_, hletters, ?_, ?_⟩
  · refine isNumberChar_of_mem_opt hsign fun h => isNumberChar_of_mem_cls h fun c hc => ?_
    simp [isNumberChar, of_decide_eq_true hc]
  · refine isNumberChar_of_mem_opt hfraction ?_
    rintro ⟨dot, hdot, digits, hdigits, rfl⟩
    refine List.forall_mem_append.mpr ⟨?_, isNumberChar_of_mem_plus_digit hdigits⟩
    refine isNumberChar_of_mem_cls hdot fun c hc => ?_
    simp [isNumberChar, of_decide_eq_true hc]
  · refine isNumberChar_of_mem_opt hexponent ?_
    rintro ⟨e, he, _, ⟨sign, hsign, digits, hdigits, rfl⟩, rfl⟩
    simp only [List.forall_mem_append]
    refine ⟨?_, ?_, isNumberChar_of_mem_plus_digit hdigits⟩
    · refine isNumberChar_of_mem_cls he fun c hc => ?_
      rcases Bool.or_eq_true_iff.mp hc with hc | hc
      · simp [isNumberChar, of_decide_eq_true hc]
      · simp [isNumberChar, of_decide_eq_true hc]
    · refine isNumberChar_of_mem_opt hsign fun h => isNumberChar_of_mem_cls h fun c hc => ?_
      rcases Bool.or_eq_true_iff.mp hc with hc | hc
      · simp [isNumberChar, of_decide_eq_true hc]
      · simp [isNumberChar, of_decide_eq_true hc]

end Letters

/-- Numbers are as they are printed, and the keys of an object distinct and sorted. -/
inductive Canonical (IsNumber : String → Prop) : Json → Prop where
  | null : Canonical IsNumber .null
  | bool (b : Bool) : Canonical IsNumber (.bool b)
  | number {text : String} (h : IsNumber text) : Canonical IsNumber (.number text)
  | string (s : String) : Canonical IsNumber (.string s)
  | array {items : List Json} (h : ∀ v ∈ items, Canonical IsNumber v) :
      Canonical IsNumber (.array items)
  | object {entries : List (String × Json)} (hsorted : (entries.map (·.1)).Pairwise (· < ·))
      (h : ∀ e ∈ entries, Canonical IsNumber e.2) : Canonical IsNumber (.object entries)

section RoundTrip

/-- Nothing that a number could go on with. -/
def Boundary (rest : List Char) : Prop := ∀ c ∈ rest.head?, isNumberChar c = false

theorem skipSpace_cons {c : Char} (h : isSpace c = false) (cs : List Char) :
    skipSpace (c :: cs) = c :: cs :=
  List.dropWhile_cons_of_neg (by simp [h])

theorem expect_cons {c : Char} (h : isSpace c = false) (d : Char) (cs : List Char) :
    expect d (c :: cs) = if c = d then some cs else none := by
  rw [expect, skipSpace_cons h]

theorem numberToken_append {format : NumberFormat} {text : String} (h : format.IsNumber text)
    {rest : List Char} (hrest : Boundary rest) :
    numberToken format (text.toList ++ rest) = some (.number text, rest) := by
  obtain ⟨haccepts, hnormal⟩ := h
  obtain ⟨-, hletters⟩ := isNumberChar_of_mem_numberRegex (Regex.accepts_iff.mp haccepts)
  have hspan : (text.toList ++ rest).span isNumberChar = (text.toList, rest) :=
    Regex.span_eq_iff.mpr ⟨rfl, hletters, hrest⟩
  rw [numberToken, hspan]
  dsimp only
  rw [if_pos haccepts, hnormal]
  rfl

section Lists

variable {α : Type} {close : Char} {item : Parser α} {textOf : α → List Char} {ok : α → Prop}
  [DecidablePred ok]

/-- The reader takes the text of `x` if it is fine, and otherwise refuses it. -/
def Reads (item : Parser α) (textOf : α → List Char) (ok : α → Prop) [DecidablePred ok] (x : α) :
    Prop :=
  ∀ rest, Boundary rest → item (textOf x ++ rest) = if ok x then some (x, rest) else none

structure IsClose (close : Char) : Prop where
  notSpace : isSpace close = false
  notNumber : isNumberChar close = false
  notComma : close ≠ ','

theorem IsClose.boundary (h : IsClose close) (rest : List Char) : Boundary (close :: rest) := by
  rintro c hc
  obtain rfl := Option.some_inj.mp hc
  exact h.notNumber

theorem length_le_intercalate (texts : List (List Char)) :
    texts.length ≤ ([','].intercalate texts).length + 1 := by
  induction texts with
  | nil => simp
  | cons t texts ih =>
    cases texts with
    | nil => simp
    | cons u texts =>
      rw [List.intercalate_cons_cons]
      simp only [List.length_cons, List.length_append] at ih ⊢
      omega

theorem expect_self {c : Char} (h : isSpace c = false) (cs : List Char) :
    expect c (c :: cs) = some cs := by
  rw [expect_cons h, if_pos rfl]

theorem listItems_close (hclose : IsClose close) {x : α} {cs rest : List Char}
    (h : item cs = some (x, close :: rest)) (fuel : Nat) :
    listItems close item (fuel + 1) cs = some ([x], rest) := by
  have hcomma : expect ',' (close :: rest) = none := by
    rw [expect_cons hclose.notSpace, if_neg hclose.notComma]
  rw [listItems, h, Option.bind_some]
  dsimp only
  rw [hcomma, expect_self hclose.notSpace]
  rfl

theorem listItems_comma {x : α} {cs rest : List Char} (h : item cs = some (x, ',' :: rest))
    (fuel : Nat) :
    listItems close item (fuel + 1) cs =
      (listItems close item fuel rest).map fun (xs, rest) => (x :: xs, rest) := by
  rw [listItems, h, Option.bind_some]
  dsimp only
  rw [expect_self (by decide)]

theorem listItems_none {cs : List Char} (h : item cs = none) (fuel : Nat) :
    listItems close item fuel cs = none := by
  cases fuel with
  | zero => rfl
  | succ fuel => rw [listItems, h, Option.bind_none]

theorem listItems_intercalate (hclose : IsClose close) {xs : List α} (hne : xs ≠ [])
    (hitem : ∀ x ∈ xs, Reads item textOf ok x) {fuel : Nat} (hfuel : xs.length ≤ fuel)
    (rest : List Char) :
    listItems close item fuel ([','].intercalate (xs.map textOf) ++ close :: rest) =
      if ∀ x ∈ xs, ok x then some (xs, rest) else none := by
  induction xs generalizing fuel with
  | nil => exact absurd rfl hne
  | cons x xs ih =>
    obtain ⟨hx, hxs⟩ := List.forall_mem_cons.mp hitem
    rw [List.length_cons] at hfuel
    obtain ⟨fuel, rfl⟩ : ∃ n, fuel = n + 1 := ⟨fuel - 1, by omega⟩
    cases xs with
    | nil =>
      have hitem := hx (close :: rest) (hclose.boundary rest)
      rw [List.map_cons, List.map_nil, List.intercalate_singleton]
      split_ifs at hitem with hok
      · rw [listItems_close hclose hitem, if_pos (by simp [hok])]
      · rw [listItems_none hitem, if_neg (by simp [hok])]
    | cons y ys =>
      have hitem := hx (',' :: ([','].intercalate ((y :: ys).map textOf) ++ close :: rest))
        fun c hc => Option.some_inj.mp hc ▸ by decide
      have htail := ih (by simp) hxs (show (y :: ys).length ≤ fuel by omega)
      rw [List.map_cons, List.map_cons, List.intercalate_cons_cons, ← List.map_cons,
        List.append_assoc, List.append_assoc, List.singleton_append]
      split_ifs at hitem with hok
      · have hall : (∀ z ∈ x :: y :: ys, ok z) ↔ ∀ z ∈ y :: ys, ok z :=
          List.forall_mem_cons.trans (and_iff_right hok)
        rw [listItems_comma hitem, htail]
        simp only [hall]
        split_ifs with hys
        · rfl
        · rfl
      · rw [listItems_none hitem, if_neg fun h => hok (List.forall_mem_cons.mp h).1]

theorem commaList_intercalate (hclose : IsClose close) {xs : List α}
    (hitem : ∀ x ∈ xs, Reads item textOf ok x)
    (hhead : ∀ x ∈ xs, ∃ c cs, textOf x = c :: cs ∧ isSpace c = false ∧ c ≠ close)
    (rest : List Char) :
    commaList close item ([','].intercalate (xs.map textOf) ++ close :: rest) =
      if ∀ x ∈ xs, ok x then some (xs, rest) else none := by
  cases xs with
  | nil =>
    rw [List.map_nil, List.intercalate_nil, List.nil_append, commaList,
      expect_self hclose.notSpace]
    simp
  | cons x xs =>
    obtain ⟨c, cs, htext, hspace, hc⟩ := hhead x List.mem_cons_self
    have hstart : ∃ back, [','].intercalate ((x :: xs).map textOf) = c :: back := by
      cases xs with
      | nil => exact ⟨cs, by simp [htext]⟩
      | cons y ys =>
        rw [List.map_cons, List.map_cons, List.intercalate_cons_cons, htext]
        exact ⟨_, rfl⟩
    obtain ⟨back, hback⟩ := hstart
    have hopen :
        expect close ([','].intercalate ((x :: xs).map textOf) ++ close :: rest) = none := by
      rw [hback, List.cons_append, expect_cons hspace, if_neg hc]
    have hlength := length_le_intercalate ((x :: xs).map textOf)
    rw [commaList, hopen]
    refine listItems_intercalate hclose (by simp) hitem ?_ rest
    rw [List.length_map] at hlength
    simp only [List.length_append, List.length_cons] at hlength ⊢
    omega

end Lists

section Values

variable {format : NumberFormat}

theorem value_of_scalar {c : Char} (hspace : isSpace c = false) (harray : c ≠ '[')
    (hobject : c ≠ '{') (cs : List Char) (depth : Nat) :
    value format depth (c :: cs) = scalar format (c :: cs) := by
  cases depth with
  | zero => rw [value, skipSpace_cons hspace]
  | succ depth =>
    rw [value, skipSpace_cons hspace]
    dsimp only
    rw [if_neg harray, if_neg hobject]

theorem isNumberChar_head {text : String} (h : format.IsNumber text) :
    ∃ c cs, text.toList = c :: cs ∧ isNumberChar c := by
  obtain ⟨hne, hletters⟩ := isNumberChar_of_mem_numberRegex (Regex.accepts_iff.mp h.1)
  obtain ⟨c, cs, htext⟩ := List.exists_cons_of_ne_nil hne
  exact ⟨c, cs, htext, hletters c (htext ▸ List.mem_cons_self)⟩

theorem ne_of_isNumberChar {c d : Char} (hd : isNumberChar d = false) (h : isNumberChar c) :
    c ≠ d := by
  rintro rfl
  rw [hd] at h
  cases h

theorem isSpace_of_isNumberChar {c : Char} (h : isNumberChar c) : isSpace c = false := by
  simp only [isSpace, Bool.or_eq_false_iff, decide_eq_false_iff_not]
  refine ⟨⟨⟨?_, ?_⟩, ?_⟩, ?_⟩
  all_goals exact ne_of_isNumberChar (by decide) h

theorem scalar_of_isNumberChar {c : Char} (h : isNumberChar c) (cs : List Char) :
    scalar format (c :: cs) = numberToken format (c :: cs) := by
  rw [scalar, if_neg (ne_of_isNumberChar (by decide) h), if_neg (ne_of_isNumberChar (by decide) h),
    if_neg (ne_of_isNumberChar (by decide) h), if_neg (ne_of_isNumberChar (by decide) h)]

/-- How the text of a value starts, so that no list ends in front of it and a scalar is not taken
for a list. -/
theorem text_head {v : Json} (h : v.Canonical format.IsNumber) :
    ∃ c cs, text v = c :: cs ∧ isSpace c = false ∧ c ≠ ']' ∧
      (v.nesting = 0 → c ≠ '[' ∧ c ≠ '{') := by
  cases h with
  | null => exact ⟨_, _, rfl, by decide, by decide, fun _ => by decide⟩
  | bool b => cases b <;> exact ⟨_, _, rfl, by decide, by decide, fun _ => by decide⟩
  | number hnumber =>
    obtain ⟨c, cs, htext, hc⟩ := isNumberChar_head hnumber
    exact ⟨c, cs, htext, isSpace_of_isNumberChar hc, ne_of_isNumberChar (by decide) hc, fun _ =>
      ⟨ne_of_isNumberChar (by decide) hc, ne_of_isNumberChar (by decide) hc⟩⟩
  | string s => exact ⟨_, _, rfl, by decide, by decide, fun _ => by decide⟩
  | array h =>
    exact ⟨_, _, rfl, by decide, by decide, fun hzero => absurd hzero (by simp [nesting])⟩
  | object hsorted h =>
    exact ⟨_, _, rfl, by decide, by decide, fun hzero => absurd hzero (by simp [nesting])⟩

theorem insertEntry_of_lt {entry : String × Json} {entries : List (String × Json)}
    (h : ∀ e ∈ entries, e.1 < entry.1) : insertEntry entry entries = entries ++ [entry] := by
  induction entries with
  | nil => rfl
  | cons e entries ih =>
    obtain ⟨he, hentries⟩ := List.forall_mem_cons.mp h
    rw [insertEntry, if_neg (lt_asymm he), if_neg (ne_of_gt he), ih hentries, List.cons_append]

theorem foldl_insertEntry {front back : List (String × Json)}
    (h : ((front ++ back).map (·.1)).Pairwise (· < ·)) :
    back.foldl (fun entries entry => insertEntry entry entries) front = front ++ back := by
  induction back generalizing front with
  | nil => simp
  | cons entry back ih =>
    have hlt : ∀ e ∈ front, e.1 < entry.1 := by
      rw [List.map_append, List.pairwise_append] at h
      intro e he
      exact h.2.2 e.1 (List.mem_map_of_mem he) entry.1 (by simp)
    rw [List.foldl_cons, insertEntry_of_lt hlt, ih (by simpa using h)]
    simp

theorem objectOf_of_sorted {entries : List (String × Json)}
    (h : (entries.map (·.1)).Pairwise (· < ·)) : objectOf entries = entries :=
  foldl_insertEntry h

theorem member_entryText {reader : Parser Json} {entry : String × Json} {rest : List Char} :
    member reader (entryText entry ++ rest) =
      (reader (text entry.2 ++ rest)).map fun (v, rest) => ((entry.1, v), rest) := by
  have hopen : expect '\x22' (entryText entry ++ rest) =
      some (entry.1.toList.flatMap escape ++ '\x22' :: ':' :: (text entry.2 ++ rest)) := by
    rw [entryText, quoted, List.cons_append, List.cons_append, expect_self (by decide)]
    simp
  rw [member, hopen]
  simp only [Option.bind_eq_bind, Option.bind_some, stringBody_flatMap_escape,
    expect_self (show isSpace ':' = false by decide), String.ofList_toList]
  cases reader (text entry.2 ++ rest) with
  | none => rfl
  | some result => rfl

theorem isClose_bracket : IsClose ']' := ⟨by decide, by decide, by decide⟩

theorem isClose_brace : IsClose '}' := ⟨by decide, by decide, by decide⟩

theorem scalar_text {v : Json} (h : v.Canonical format.IsNumber) (hnesting : v.nesting = 0)
    {rest : List Char} (hrest : Boundary rest) :
    scalar format (text v ++ rest) = some (v, rest) := by
  cases h with
  | null => rfl
  | bool b => cases b <;> rfl
  | number hnumber =>
    obtain ⟨c, cs, htext, hc⟩ := isNumberChar_head hnumber
    rw [text, htext, List.cons_append, scalar_of_isNumberChar hc, ← List.cons_append, ← htext,
      numberToken_append hnumber hrest]
  | string s =>
    have hbody := stringBody_flatMap_escape s.toList rest
    rw [text, quoted, List.cons_append, List.append_assoc, List.singleton_append]
    simp [scalar, hbody]
  | array h =>
    rw [nesting] at hnesting
    omega
  | object hsorted h =>
    rw [nesting] at hnesting
    omega

theorem value_text_of_scalar {v : Json} (h : v.Canonical format.IsNumber)
    (hnesting : v.nesting = 0) (depth : Nat) {rest : List Char} (hrest : Boundary rest) :
    value format depth (text v ++ rest) = some (v, rest) := by
  obtain ⟨c, cs, htext, hspace, -, hopen⟩ := text_head h
  obtain ⟨harray, hobject⟩ := hopen hnesting
  rw [htext, List.cons_append, value_of_scalar hspace harray hobject, ← List.cons_append, ← htext]
  exact scalar_text h hnesting hrest

theorem scalar_of_open {c : Char} (h : c = '[' ∨ c = '{') (cs : List Char) :
    scalar format (c :: cs) = none := by
  rcases h with rfl | rfl <;> rfl

theorem value_array {depth : Nat} (cs : List Char) :
    value format (depth + 1) ('[' :: cs) =
      (commaList ']' (value format depth) cs).map fun (items, rest) => (.array items, rest) := by
  rw [value, skipSpace_cons (by decide)]
  rfl

theorem value_object {depth : Nat} (cs : List Char) :
    value format (depth + 1) ('{' :: cs) =
      (commaList '}' (member (value format depth)) cs).map fun (members, rest) =>
        (.object (objectOf members), rest) := by
  rw [value, skipSpace_cons (by decide)]
  rfl

/-- A value is read back as far as it nests no deeper than the limit, whatever comes after it. -/
theorem value_text {v : Json} (h : v.Canonical format.IsNumber) (depth : Nat) {rest : List Char}
    (hrest : Boundary rest) :
    value format depth (text v ++ rest) = if v.nesting ≤ depth then some (v, rest) else none := by
  induction h generalizing depth rest with
  | null => exact value_text_of_scalar .null rfl depth hrest
  | bool b => exact value_text_of_scalar (.bool b) rfl depth hrest
  | number hnumber => exact value_text_of_scalar (.number hnumber) rfl depth hrest
  | string s => exact value_text_of_scalar (.string s) rfl depth hrest
  | @array items hitems ih =>
    rw [text, List.cons_append, List.append_assoc, List.singleton_append, nesting,
      itemTexts_eq_map]
    cases depth with
    | zero =>
      rw [value, skipSpace_cons (by decide), scalar_of_open (.inl rfl)]
      rfl
    | succ depth =>
      have hhead (v : Json) (hv : v ∈ items) :
          ∃ c cs, text v = c :: cs ∧ isSpace c = false ∧ c ≠ ']' := by
        obtain ⟨c, cs, htext, hspace, hclose, -⟩ := text_head (hitems v hv)
        exact ⟨c, cs, htext, hspace, hclose⟩
      have hread := commaList_intercalate isClose_bracket
        (fun v hv back hback => ih v hv depth hback) hhead rest
      rw [value_array, hread]
      simp only [Nat.add_le_add_iff_right, itemsNesting_le_iff]
      split_ifs <;> rfl
  | @object entries hsorted hentries ih =>
    rw [text, List.cons_append, List.append_assoc, List.singleton_append, nesting,
      entryTexts_eq_map]
    cases depth with
    | zero =>
      rw [value, skipSpace_cons (by decide), scalar_of_open (.inr rfl)]
      rfl
    | succ depth =>
      have hmember (e : String × Json) (he : e ∈ entries) :
          Reads (member (value format depth)) entryText (fun e => e.2.nesting ≤ depth) e := by
        intro back hback
        rw [member_entryText, ih e he depth hback]
        split_ifs <;> rfl
      have hread := commaList_intercalate isClose_brace hmember
        (fun e _ => ⟨_, _, rfl, by decide, by decide⟩) rest
      rw [value_object, hread]
      simp only [Nat.add_le_add_iff_right, entriesNesting_le_iff]
      split_ifs
      · rw [Option.map_some, objectOf_of_sorted hsorted]
      · rfl

theorem parse_text {v : Json} (h : v.Canonical format.IsNumber) (limit : Nat) :
    parse format limit (text v) = if v.nesting ≤ limit then some v else none := by
  have hread := value_text h limit (show Boundary [] by simp [Boundary])
  rw [List.append_nil] at hread
  rw [parse, hread]
  split_ifs <;> rfl

end Values

end RoundTrip

section Soundness

theorem length_skipSpace_le (cs : List Char) : (skipSpace cs).length ≤ cs.length :=
  (List.dropWhile_sublist isSpace).length_le

theorem length_expect {c : Char} {cs rest : List Char} (h : expect c cs = some rest) :
    rest.length < cs.length := by
  have hle := length_skipSpace_le cs
  rw [expect] at h
  split at h
  next => cases h
  next head tail heq =>
    split at h
    · obtain rfl := Option.some_inj.mp h
      rw [heq, List.length_cons] at hle
      omega
    · cases h

section Lists

variable {α : Type} {close : Char} {item : Parser α}

def Consumes (item : Parser α) : Prop :=
  ∀ cs x rest, item cs = some (x, rest) → rest.length < cs.length

theorem listItems_eq_some {fuel : Nat} {cs rest : List Char} {xs : List α}
    (h : listItems close item (fuel + 1) cs = some (xs, rest)) :
    ∃ x front, item cs = some (x, front) ∧
      ((∃ back tail, expect ',' front = some back ∧
          listItems close item fuel back = some (tail, rest) ∧ xs = x :: tail) ∨
        (expect close front = some rest ∧ xs = [x])) := by
  rw [listItems] at h
  obtain ⟨⟨x, front⟩, hitem, hnext⟩ := Option.bind_eq_some_iff.mp h
  refine ⟨x, front, hitem, ?_⟩
  dsimp only at hnext
  split at hnext
  next back hcomma =>
    obtain ⟨tail, htail, rfl⟩ := eq_some_of_map hnext
    exact .inl ⟨back, tail, hcomma, htail, rfl⟩
  next hcomma =>
    obtain ⟨left, hclose, heq⟩ := Option.map_eq_some_iff.mp hnext
    obtain ⟨rfl, rfl⟩ := Prod.mk.inj heq
    exact .inr ⟨hclose, rfl⟩

theorem forall_of_listItems {P : α → Prop} (hitem : ∀ cs x rest, item cs = some (x, rest) → P x)
    {fuel : Nat} {cs rest : List Char} {xs : List α}
    (h : listItems close item fuel cs = some (xs, rest)) : ∀ x ∈ xs, P x := by
  induction fuel generalizing cs xs with
  | zero => cases h
  | succ fuel ih =>
    obtain ⟨x, front, hx, ⟨back, tail, -, htail, rfl⟩ | ⟨-, rfl⟩⟩ := listItems_eq_some h
    · exact List.forall_mem_cons.mpr ⟨hitem cs x front hx, ih htail⟩
    · exact List.forall_mem_singleton.mpr (hitem cs x front hx)

theorem forall_of_commaList {P : α → Prop} (hitem : ∀ cs x rest, item cs = some (x, rest) → P x)
    {cs rest : List Char} {xs : List α} (h : commaList close item cs = some (xs, rest)) :
    ∀ x ∈ xs, P x := by
  rw [commaList] at h
  split at h
  next =>
    obtain ⟨rfl, -⟩ := Prod.mk.inj (Option.some_inj.mp h)
    simp
  next => exact forall_of_listItems hitem h

theorem Consumes.listItems (hitem : Consumes item) (fuel : Nat) :
    Consumes (listItems close item fuel) := by
  intro cs xs rest h
  induction fuel generalizing cs xs with
  | zero => cases h
  | succ fuel ih =>
    obtain ⟨x, front, hx, ⟨back, tail, hcomma, htail, -⟩ | ⟨hclose, -⟩⟩ := listItems_eq_some h
    · have hfront := hitem cs x front hx
      have hback := length_expect hcomma
      have hrest := ih back tail htail
      omega
    · have hfront := hitem cs x front hx
      have hrest := length_expect hclose
      omega

theorem Consumes.commaList (hitem : Consumes item) : Consumes (commaList close item) := by
  intro cs xs rest h
  rw [Json.commaList] at h
  split at h
  next back hclose =>
    obtain ⟨-, rfl⟩ := Prod.mk.inj (Option.some_inj.mp h)
    exact length_expect hclose
  next => exact hitem.listItems cs.length cs xs rest h

/-- As many items are allowed for as there can be. -/
theorem listItems_of_le (hitem : Consumes item) {fuel more : Nat} (hle : fuel ≤ more)
    {cs : List Char} (hlength : cs.length ≤ fuel) :
    listItems close item more cs = listItems close item fuel cs := by
  induction fuel generalizing more cs with
  | zero =>
    have hnone : item cs = none := by
      refine Option.eq_none_iff_forall_not_mem.mpr fun (x, rest) hx => ?_
      have hlt := hitem cs x rest hx
      omega
    rw [listItems_none hnone, listItems_none hnone]
  | succ fuel ih =>
    obtain ⟨more, rfl⟩ : ∃ n, more = n + 1 := ⟨more - 1, by omega⟩
    rw [Json.listItems, Json.listItems]
    refine Option.bind_congr fun (x, front) hx => ?_
    have hfront := hitem cs x front hx
    dsimp only
    cases hcomma : expect ',' front with
    | none => rfl
    | some back =>
      have hback := length_expect hcomma
      dsimp only
      rw [ih (by omega) (by omega)]

end Lists

section Values

variable {format : NumberFormat}

theorem mem_insertEntry {entry e : String × Json} {entries : List (String × Json)}
    (h : e ∈ insertEntry entry entries) : e = entry ∨ e ∈ entries := by
  induction entries with
  | nil => exact .inl (List.mem_singleton.mp h)
  | cons head entries ih =>
    rw [insertEntry] at h
    split_ifs at h
    · exact List.mem_cons.mp h
    · exact (List.mem_cons.mp h).imp id (List.mem_cons_of_mem head)
    · obtain rfl | h := List.mem_cons.mp h
      · exact .inr List.mem_cons_self
      · exact (ih h).imp id (List.mem_cons_of_mem head)

theorem insertEntry_sorted {entry : String × Json} {entries : List (String × Json)}
    (h : (entries.map (·.1)).Pairwise (· < ·)) :
    ((insertEntry entry entries).map (·.1)).Pairwise (· < ·) := by
  induction entries with
  | nil => exact List.pairwise_singleton _ _
  | cons head entries ih =>
    obtain ⟨hhead, hentries⟩ := List.pairwise_cons.mp h
    rw [insertEntry]
    split_ifs with hlt heq
    · refine List.pairwise_cons.mpr ⟨?_, h⟩
      intro key hkey
      obtain rfl | hkey := List.mem_cons.mp hkey
      · exact hlt
      · exact hlt.trans (hhead key hkey)
    · rw [List.map_cons, heq]
      exact h
    · refine List.pairwise_cons.mpr ⟨?_, ih hentries⟩
      intro key hkey
      obtain ⟨e, he, rfl⟩ := List.mem_map.mp hkey
      obtain rfl | he := mem_insertEntry he
      · exact lt_of_le_of_ne (not_lt.mp hlt) (Ne.symm heq)
      · exact hhead e.1 (List.mem_map_of_mem he)

theorem objectOf_spec (members : List (String × Json)) :
    ((objectOf members).map (·.1)).Pairwise (· < ·) ∧ ∀ e ∈ objectOf members, e ∈ members := by
  induction members using List.reverseRecOn with
  | nil => exact ⟨List.Pairwise.nil, by simp [objectOf]⟩
  | append_singleton members entry ih =>
    rw [objectOf, List.foldl_append, List.foldl_cons, List.foldl_nil, ← objectOf]
    refine ⟨insertEntry_sorted ih.1, fun e he => ?_⟩
    obtain rfl | he := mem_insertEntry he
    · simp
    · exact List.mem_append_left _ (ih.2 e he)

theorem word_eq_some {text cs rest : List Char} {v w : Json}
    (h : word text v cs = some (w, rest)) : w = v ∧ rest.length ≤ cs.length := by
  obtain ⟨left, hfront, heq⟩ := Option.map_eq_some_iff.mp h
  obtain ⟨rfl, rfl⟩ := Prod.mk.inj heq
  obtain rfl := List.isPrefixOf?_eq_some_iff_append_eq.mp hfront
  simp

theorem numberToken_eq_some {cs rest : List Char} {v : Json}
    (h : numberToken format cs = some (v, rest)) :
    (∃ text, v = .number text ∧ format.IsNumber text) ∧ rest.length < cs.length := by
  obtain ⟨token, left, hspan⟩ : ∃ token left, cs.span isNumberChar = (token, left) := ⟨_, _, rfl⟩
  obtain ⟨rfl, -, -⟩ := Regex.span_eq_iff.mp hspan
  rw [numberToken, hspan] at h
  dsimp only at h
  split at h
  next haccepts =>
    obtain ⟨text, hnormal, heq⟩ := Option.map_eq_some_iff.mp h
    obtain ⟨rfl, rfl⟩ := Prod.mk.inj heq
    obtain ⟨hne, -⟩ := isNumberChar_of_mem_numberRegex (Regex.accepts_iff.mp haccepts)
    have hpos := List.length_pos_of_ne_nil hne
    refine ⟨⟨text, rfl, format.isNumber_normalize hnormal⟩, ?_⟩
    rw [List.length_append]
    omega
  next => cases h

theorem scalar_eq_some {cs rest : List Char} {v : Json}
    (h : scalar format cs = some (v, rest)) :
    (v.Canonical format.IsNumber ∧ rest.length < cs.length) ∧
      ∀ s, v = .string s → s.length + rest.length < cs.length := by
  cases cs with
  | nil => cases h
  | cons c cs =>
    rw [scalar] at h
    rw [List.length_cons]
    split_ifs at h with hn ht hf hquote
    · obtain ⟨rfl, hle⟩ := word_eq_some h
      exact ⟨⟨.null, by omega⟩, nofun⟩
    · obtain ⟨rfl, hle⟩ := word_eq_some h
      exact ⟨⟨.bool true, by omega⟩, nofun⟩
    · obtain ⟨rfl, hle⟩ := word_eq_some h
      exact ⟨⟨.bool false, by omega⟩, nofun⟩
    · have hread : ∃ body, stringBody .plain cs = some (body, rest) ∧
          v = .string (String.ofList body) := eq_some_of_map h
      obtain ⟨body, hbody, rfl⟩ := hread
      have hlt := length_stringBody hbody
      refine ⟨⟨.string _, by omega⟩, ?_⟩
      rintro _ ⟨rfl⟩
      rw [String.length_ofList]
      omega
    · obtain ⟨⟨text, rfl, hnumber⟩, hlt⟩ := numberToken_eq_some h
      exact ⟨⟨.number hnumber, hlt⟩, nofun⟩

theorem member_eq_some {reader : Parser Json} {cs rest : List Char} {entry : String × Json}
    (h : member reader cs = some (entry, rest)) :
    ∃ front, reader front = some (entry.2, rest) ∧ front.length < cs.length := by
  obtain ⟨afterQuote, hquote, h⟩ := Option.bind_eq_some_iff.mp h
  obtain ⟨⟨key, afterKey⟩, hkey, h⟩ := Option.bind_eq_some_iff.mp h
  obtain ⟨front, hcolon, h⟩ := Option.bind_eq_some_iff.mp h
  obtain ⟨⟨v, left⟩, hvalue, h⟩ := Option.bind_eq_some_iff.mp h
  obtain ⟨rfl, rfl⟩ := Prod.mk.inj (Option.some_inj.mp h)
  refine ⟨front, hvalue, ?_⟩
  have hafterQuote := length_expect hquote
  have hafterKey := length_stringBody hkey
  have hfront := length_expect hcolon
  omega

theorem Consumes.member {reader : Parser Json} (h : Consumes reader) :
    Consumes (member reader) := by
  intro cs entry rest hmember
  obtain ⟨front, hvalue, hlt⟩ := member_eq_some hmember
  exact (h front entry.2 rest hvalue).trans hlt

/-- What is read is a scalar, an array or an object. -/
theorem value_eq_some {depth : Nat} {cs rest : List Char} {v : Json}
    (h : value format depth cs = some (v, rest)) :
    scalar format (skipSpace cs) = some (v, rest) ∨
      ∃ inner back, depth = inner + 1 ∧ back.length < cs.length ∧
        ((∃ items, v = .array items ∧
            commaList ']' (value format inner) back = some (items, rest)) ∨
          ∃ members, v = .object (objectOf members) ∧
            commaList '}' (member (value format inner)) back = some (members, rest)) := by
  cases depth with
  | zero => exact .inl h
  | succ depth =>
    have hle := length_skipSpace_le cs
    rw [value] at h
    split at h
    next => cases h
    next c back hskip =>
      rw [hskip, List.length_cons] at hle
      split_ifs at h
      · obtain ⟨items, hitems, rfl⟩ := eq_some_of_map h
        exact .inr ⟨depth, back, rfl, hle, .inl ⟨items, rfl, hitems⟩⟩
      · have hread : ∃ members, commaList '}' (member (value format depth)) back =
            some (members, rest) ∧ v = .object (objectOf members) := eq_some_of_map h
        obtain ⟨members, hmembers, rfl⟩ := hread
        exact .inr ⟨depth, back, rfl, hle, .inr ⟨members, rfl, hmembers⟩⟩
      · rw [← hskip] at h
        exact .inl h

theorem consumes_value (depth : Nat) : Consumes (value format depth) := by
  induction depth with
  | zero =>
    intro cs v rest h
    have hle := length_skipSpace_le cs
    have hlt := (scalar_eq_some h).1.2
    omega
  | succ depth ih =>
    intro cs v rest h
    have hle := length_skipSpace_le cs
    obtain h | ⟨inner, back, hdepth, hback, ⟨items, -, hlist⟩ | ⟨members, -, hlist⟩⟩ :=
      value_eq_some h
    · have hlt := (scalar_eq_some h).1.2
      omega
    · obtain rfl := Nat.succ.inj hdepth
      have hlt := ih.commaList back items rest hlist
      omega
    · obtain rfl := Nat.succ.inj hdepth
      have hlt := ih.member.commaList back members rest hlist
      omega

/-- The length of the text is enough for the items of every list. -/
theorem commaList_eq_listItems {close : Char} {cs : List Char} (hopen : expect close cs = none)
    {fuel : Nat} (hlength : cs.length ≤ fuel) (depth : Nat) :
    commaList close (value format depth) cs = listItems close (value format depth) fuel cs ∧
      commaList close (member (value format depth)) cs =
        listItems close (member (value format depth)) fuel cs := by
  have hvalue : Consumes (value format depth) := consumes_value depth
  rw [commaList, commaList, hopen]
  exact ⟨(listItems_of_le hvalue hlength le_rfl).symm,
    (listItems_of_le hvalue.member hlength le_rfl).symm⟩

theorem canonical_of_value {depth : Nat} {cs rest : List Char} {v : Json}
    (h : value format depth cs = some (v, rest)) : v.Canonical format.IsNumber := by
  induction depth generalizing cs rest v with
  | zero => exact (scalar_eq_some h).1.1
  | succ depth ih =>
    obtain h | ⟨inner, back, hdepth, -, ⟨items, rfl, hlist⟩ | ⟨members, rfl, hlist⟩⟩ :=
      value_eq_some h
    · exact (scalar_eq_some h).1.1
    · obtain rfl := Nat.succ.inj hdepth
      exact .array (forall_of_commaList (fun _ _ _ hitem => ih hitem) hlist)
    · obtain rfl := Nat.succ.inj hdepth
      have hmembers : ∀ e ∈ members, e.2.Canonical format.IsNumber := by
        refine forall_of_commaList (fun cs e rest hentry => ?_) hlist
        obtain ⟨front, hvalue, -⟩ := member_eq_some hentry
        exact ih hvalue
      obtain ⟨hsorted, hmem⟩ := objectOf_spec members
      exact .object hsorted fun e he => hmembers e (hmem e he)

theorem parse_eq_some {limit : Nat} {cs : List Char} {v : Json}
    (h : parse format limit cs = some v) :
    ∃ rest, value format limit cs = some (v, rest) := by
  obtain ⟨⟨w, rest⟩, hvalue, hend⟩ := Option.bind_eq_some_iff.mp h
  dsimp only at hend
  split_ifs at hend
  obtain rfl := Option.some_inj.mp hend
  exact ⟨rest, hvalue⟩

theorem canonical_of_parse {limit : Nat} {cs : List Char} {v : Json}
    (h : parse format limit cs = some v) : v.Canonical format.IsNumber := by
  obtain ⟨rest, hvalue⟩ := parse_eq_some h
  exact canonical_of_value hvalue

theorem nesting_of_scalar {cs rest : List Char} {v : Json}
    (h : scalar format cs = some (v, rest)) : v.nesting = 0 := by
  cases cs with
  | nil => cases h
  | cons c cs =>
    rw [scalar] at h
    split_ifs at h
    · obtain ⟨rfl, -⟩ := word_eq_some h
      rfl
    · obtain ⟨rfl, -⟩ := word_eq_some h
      rfl
    · obtain ⟨rfl, -⟩ := word_eq_some h
      rfl
    · obtain ⟨body, -, rfl⟩ : ∃ body, stringBody .plain cs = some (body, rest) ∧
          v = .string (String.ofList body) := eq_some_of_map h
      rfl
    · obtain ⟨⟨text, rfl, -⟩, -⟩ := numberToken_eq_some h
      rfl

/-- What is read nests no deeper than the limit. -/
theorem nesting_of_value {depth : Nat} {cs rest : List Char} {v : Json}
    (h : value format depth cs = some (v, rest)) : v.nesting ≤ depth := by
  induction depth generalizing cs rest v with
  | zero =>
    obtain h | ⟨inner, back, hdepth, -⟩ := value_eq_some h
    · exact (nesting_of_scalar h).le
    · cases hdepth
  | succ depth ih =>
    obtain h | ⟨inner, back, hdepth, -, ⟨items, rfl, hlist⟩ | ⟨members, rfl, hlist⟩⟩ :=
      value_eq_some h
    · exact (nesting_of_scalar h).trans_le (Nat.zero_le _)
    · obtain rfl := Nat.succ.inj hdepth
      rw [nesting, Nat.add_le_add_iff_right, itemsNesting_le_iff]
      exact forall_of_commaList (fun cs v rest hitem => ih hitem) hlist
    · obtain rfl := Nat.succ.inj hdepth
      rw [nesting, Nat.add_le_add_iff_right, entriesNesting_le_iff]
      have hmembers : ∀ e ∈ members, e.2.nesting ≤ depth := by
        refine forall_of_commaList (fun cs e rest hentry => ?_) hlist
        obtain ⟨front, hvalue, -⟩ := member_eq_some hentry
        exact ih hvalue
      exact fun e he => hmembers e ((objectOf_spec members).2 e he)

theorem nesting_of_parse {limit : Nat} {cs : List Char} {v : Json}
    (h : parse format limit cs = some v) : v.nesting ≤ limit := by
  obtain ⟨rest, hvalue⟩ := parse_eq_some h
  exact nesting_of_value hvalue

example : (parse .verbatim 1 "[ 1, -2.5e+3, \"\\u00e9\" ] ".toList).map text =
    some "[1,-2.5e+3,\"é\"]".toList := by
  decide +kernel

/-- A string is shorter than the text it is read from. -/
theorem length_lt_of_parse_string {limit : Nat} {cs : List Char} {s : String}
    (h : parse format limit cs = some (.string s)) : s.length < cs.length := by
  obtain ⟨rest, hvalue⟩ := parse_eq_some h
  have hle := length_skipSpace_le cs
  obtain h | ⟨inner, back, -, -, ⟨items, heq, -⟩ | ⟨members, heq, -⟩⟩ := value_eq_some hvalue
  · have hlt := (scalar_eq_some h).2 s rfl
    omega
  · cases heq
  · cases heq

end Values

end Soundness

end Workflows.Json
