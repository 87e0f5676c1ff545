import Workflows.Foundations.Dictionary
import Workflows.Foundations.Separator
import Workflows.Foundations.Utf8

/-!
# The configuration of an event source

A line for each entry, a key and a value with `": "` between them. What cannot be read is logged
and there is no configuration.
-/

namespace Workflows.Events.Stomp

open Dictionary Separator

inductive Ack where
  | auto
  | client
  | clientIndividual
  deriving DecidableEq

def Ack.text : Ack → String
  | .auto => "auto"
  | .client => "client"
  | .clientIndividual => "client-individual"

def Ack.ofText? (text : String) : Option Ack :=
  [Ack.auto, .client, .clientIndividual].find? fun ack => ack.text = text

structure EventSourceConfig where
  user : String
  password : String
  host : String
  port : Int
  destination : String
  ack : Ack := .auto
  deriving DecidableEq

section Parse

/-- `str.isspace`, of one character. -/
def isSpace (c : Char) : Bool :=
  let n := c.toNat
  (0x09 ≤ n && n ≤ 0x0D) || (0x1C ≤ n && n ≤ 0x20) || n = 0x85 || n = 0xA0 || n = 0x1680 ||
    (0x2000 ≤ n && n ≤ 0x200A) || n = 0x2028 || n = 0x2029 || n = 0x202F || n = 0x205F || n = 0x3000

def strip (cs : List Char) : List Char :=
  ((cs.dropWhile isSpace).reverse.dropWhile isSpace).reverse

/-- `none` unless the entry has exactly one `": "`. -/
def splitEntry (entry : List Char) : Option (List Char × List Char) :=
  match splitWord [':', ' '] entry with
  | [key, value] => some (key, value)
  | _ => none

def configEntries (text : List Char) : Option (List (List Char × List Char)) :=
  (splitWord ['\n'] (strip text)).mapM splitEntry

def configDict (entries : List (List Char × List Char)) : Std.TreeMap String String :=
  dictOf (fun entry => String.ofList entry.1) (fun entry => String.ofList entry.2) entries

/-- How `pydantic` reads an integer from a text. -/
structure IntReader where
  read : String → Option Int
  read_toString (n : Int) : read (toString n) = some n

theorem isDigit_of_mem_toString (k : Nat) {c : Char} (h : c ∈ (toString k).toList) : c.isDigit := by
  rw [Nat.toString_eq_repr, Nat.toList_repr] at h
  exact Nat.isDigit_of_mem_toDigits (by decide) (by decide) h

theorem toList_negSucc (k : Nat) :
    (toString (Int.negSucc k)).toList = '-' :: (toString (k + 1)).toList := by
  have htext : toString (Int.negSucc k) = "-" ++ toString (k + 1) := rfl
  rw [htext, String.toList_append]
  rfl

def readDecimal (text : List Char) : Option Int :=
  match text with
  | '-' :: digits => some (-(Nat.ofDigitChars 10 digits 0))
  | digits => if digits.all Char.isDigit then some (Nat.ofDigitChars 10 digits 0) else none

/-- Decimal digits, with a sign if the integer is negative. -/
def IntReader.decimal : IntReader where
  read text := readDecimal text.toList
  read_toString n := by
    have hread (k : Nat) : Nat.ofDigitChars 10 (toString k).toList 0 = k := by
      rw [Nat.toString_eq_repr, Nat.toList_repr]
      exact Nat.ofDigitChars_ten_toDigits
    cases n with
    | ofNat k =>
      have hdigits : ∀ c ∈ (toString k).toList, c.isDigit := fun c hc =>
        isDigit_of_mem_toString k hc
      have htext : (toString (Int.ofNat k)).toList = (toString k).toList := rfl
      rw [htext, readDecimal, if_pos (List.all_eq_true.mpr hdigits), hread]
      · rfl
      · intro digits heq
        rw [heq] at hdigits
        exact absurd (hdigits '-' List.mem_cons_self) (by decide)
    | negSucc k =>
      rw [toList_negSucc, readDecimal, hread]
      rfl

variable (ints : IntReader)

def ackOf (config : Std.TreeMap String String) : Option Ack :=
  match config["ack"]? with
  | none => some .auto
  | some ack => Ack.ofText? ack

def modelValidate (config : Std.TreeMap String String) : Option EventSourceConfig := do
  let user ← config["user"]?
  let password ← config["password"]?
  let host ← config["host"]?
  let port ← config["port"]?.bind ints.read
  let destination ← config["destination"]?
  let ack ← ackOf config
  return { user, password, host, port, destination, ack }

def parseConfig (config : List UInt8) : Option EventSourceConfig := do
  let decoded ← Utf8.fromUtf8 config
  let entries ← configEntries decoded
  modelValidate ints (configDict entries)

end Parse

namespace EventSourceConfig

def entries (config : EventSourceConfig) : List (String × String) :=
  [("user", config.user), ("password", config.password), ("host", config.host),
    ("port", toString config.port), ("destination", config.destination), ("ack", config.ack.text)]

def line (entry : String × String) : List Char :=
  entry.1.toList ++ ([':', ' '] ++ entry.2.toList)

/-- The text of a configuration, as in the manifest of an event source. -/
def text (config : EventSourceConfig) : List Char :=
  ['\n'].intercalate (config.entries.map line) ++ ['\n']

def encode (config : EventSourceConfig) : List UInt8 :=
  config.text.flatMap String.utf8EncodeChar

end EventSourceConfig

/-- A text that stays one value. -/
def IsValue (value : List Char) : Prop := '\n' ∉ value ∧ ¬[':', ' '] <:+: value

structure EventSourceConfig.Readable (config : EventSourceConfig) : Prop where
  user : IsValue config.user.toList
  password : IsValue config.password.toList
  host : IsValue config.host.toList
  destination : IsValue config.destination.toList

section Values

variable {ints : IntReader} {config : EventSourceConfig}

theorem isValue_of_safe {value : List Char} (h : ∀ c ∈ value, c ≠ '\n' ∧ c ≠ ':') :
    IsValue value := by
  refine ⟨fun hmem => (h _ hmem).1 rfl, fun hsub => ?_⟩
  exact (h ':' (hsub.subset List.mem_cons_self)).2 rfl

theorem isValue_toString (n : Int) : IsValue (toString n).toList := by
  have hdigits (k : Nat) : ∀ c ∈ (toString k).toList, c ≠ '\n' ∧ c ≠ ':' := by
    intro c hc
    have hdigit := isDigit_of_mem_toString k hc
    constructor
    · rintro rfl
      cases hdigit
    · rintro rfl
      cases hdigit
  apply isValue_of_safe
  cases n with
  | ofNat k => exact hdigits k
  | negSucc k =>
    rw [toList_negSucc]
    exact List.forall_mem_cons.mpr ⟨by decide, hdigits (k + 1)⟩

theorem isValue_ack (ack : Ack) : IsValue ack.text.toList := by
  unfold IsValue
  cases ack <;> decide

theorem ofText?_text (ack : Ack) : Ack.ofText? ack.text = some ack := by
  cases ack <;> decide

theorem EventSourceConfig.Readable.isValue (h : config.Readable) :
    ∀ entry ∈ config.entries, IsValue entry.2.toList := by
  simp only [EventSourceConfig.entries, List.forall_mem_cons, List.not_mem_nil, false_imp_iff,
    implies_true, and_true]
  exact ⟨h.user, h.password, h.host, isValue_toString _, h.destination, isValue_ack _⟩

/-- The keys of a configuration have nothing to split at. -/
theorem isValue_key : ∀ entry ∈ config.entries, IsValue (entry.1.toList ++ [':']) := by
  simp only [EventSourceConfig.entries, List.forall_mem_cons, List.not_mem_nil, false_imp_iff,
    implies_true, and_true]
  unfold IsValue
  decide

theorem splitWord_line {entry : String × String} (hkey : IsValue (entry.1.toList ++ [':']))
    (hvalue : IsValue entry.2.toList) :
    splitEntry (EventSourceConfig.line entry) = some (entry.1.toList, entry.2.toList) := by
  have hsplit : splitWord [':', ' '] (EventSourceConfig.line entry) =
      entry.1.toList :: splitWord [':', ' '] entry.2.toList :=
    splitWord_append_word (by simp) hkey.2
  rw [splitEntry, hsplit, splitWord_eq_singleton hvalue.2]

theorem newline_notMem_line {entry : String × String} (hkey : IsValue (entry.1.toList ++ [':']))
    (hvalue : IsValue entry.2.toList) : '\n' ∉ EventSourceConfig.line entry := by
  intro hmem
  rw [EventSourceConfig.line, ← List.append_assoc] at hmem
  obtain hmem | hmem := List.mem_append.mp hmem
  · have hrest : '\n' ∈ (entry.1.toList ++ [':']) ++ [' '] := by simpa using hmem
    obtain hmem | hmem := List.mem_append.mp hrest
    · exact hkey.1 hmem
    · simp at hmem
  · exact hvalue.1 hmem

theorem dropWhile_of_head {p : Char → Bool} {cs : List Char} (h : ∀ c ∈ cs.head?, p c = false) :
    cs.dropWhile p = cs := by
  cases cs with
  | nil => rfl
  | cons c cs => exact List.dropWhile_cons_of_neg (by simp [h c rfl])

theorem strip_append {body blank : List Char} (hne : body ≠ [])
    (hhead : ∀ c ∈ body.head?, isSpace c = false) (hlast : ∀ c ∈ body.getLast?, isSpace c = false)
    (hblank : ∀ c ∈ blank, isSpace c) : strip (body ++ blank) = body := by
  have hfront : (body ++ blank).dropWhile isSpace = body ++ blank := by
    refine dropWhile_of_head fun c hc => hhead c ?_
    rwa [List.head?_append_of_ne_nil _ hne] at hc
  have hback : body.reverse.dropWhile isSpace = body.reverse := by
    refine dropWhile_of_head fun c hc => hlast c ?_
    rwa [List.head?_reverse] at hc
  rw [strip, hfront, List.reverse_append, List.dropWhile_append_of_pos (by simpa using hblank),
    hback, List.reverse_reverse]

theorem exists_intercalate_concat (sep : List Char) (words : List (List Char)) (word : List Char) :
    ∃ front, sep.intercalate (words ++ [word]) = front ++ word := by
  induction words with
  | nil => exact ⟨[], List.intercalate_singleton⟩
  | cons first words ih =>
    obtain ⟨front, heq⟩ := ih
    cases words with
    | nil => exact ⟨first ++ sep, by simp [List.intercalate_cons_cons]⟩
    | cons next words =>
      refine ⟨first ++ sep ++ front, ?_⟩
      rw [List.cons_append, List.cons_append, List.intercalate_cons_cons, ← List.cons_append, heq,
        List.append_assoc _ front word]

theorem strip_text : strip config.text =
    ['\n'].intercalate (config.entries.map EventSourceConfig.line) := by
  refine strip_append ?_ ?_ ?_ ?_
  · simp [EventSourceConfig.entries, EventSourceConfig.line, List.intercalate_cons_cons]
  · intro c hc
    have hu : c = 'u' := by
      simpa [EventSourceConfig.entries, EventSourceConfig.line, List.intercalate_cons_cons,
        eq_comm] using hc
    rw [hu]
    decide
  · intro c hc
    obtain ⟨front, hfront⟩ := exists_intercalate_concat ['\n']
      (config.entries.dropLast.map EventSourceConfig.line)
      (EventSourceConfig.line ("ack", config.ack.text))
    have hlines : config.entries.map EventSourceConfig.line =
        config.entries.dropLast.map EventSourceConfig.line ++
          [EventSourceConfig.line ("ack", config.ack.text)] := rfl
    have hne : config.ack.text.toList ≠ [] := by
      cases config.ack <;> simp [Ack.text]
    rw [hlines, hfront, EventSourceConfig.line, ← List.append_assoc, ← List.append_assoc,
      List.getLast?_append_of_ne_nil _ hne] at hc
    have hlast : ∀ c ∈ config.ack.text.toList.getLast?, isSpace c = false := by
      cases config.ack <;> simp [Ack.text, isSpace]
    exact hlast c hc
  · rw [List.forall_mem_singleton]
    decide

end Values

section RoundTrip

variable {ints : IntReader} {config : EventSourceConfig}

theorem configEntries_text (h : config.Readable) : configEntries config.text =
    some (config.entries.map fun entry => (entry.1.toList, entry.2.toList)) := by
  have hlines : splitWord ['\n'] (strip config.text) =
      config.entries.map EventSourceConfig.line := by
    rw [strip_text]
    refine splitWord_intercalate (by simp) (by simp [EventSourceConfig.entries]) ?_
    simp only [List.forall_mem_map, List.dropLast_singleton, List.append_nil,
      List.singleton_infix_iff]
    exact fun entry hentry =>
      newline_notMem_line (isValue_key entry hentry) (h.isValue entry hentry)
  have hentries : ∀ entry ∈ config.entries, splitEntry (EventSourceConfig.line entry) =
      some (entry.1.toList, entry.2.toList) := fun entry hentry =>
    splitWord_line (isValue_key entry hentry) (h.isValue entry hentry)
  rw [configEntries, hlines, List.mapM_map]
  generalize config.entries = entries at hentries
  induction entries with
  | nil => rfl
  | cons entry entries ih =>
    obtain ⟨hentry, hentries⟩ := List.forall_mem_cons.mp hentries
    rw [List.mapM_cons, ih hentries, Function.comp_apply, hentry]
    rfl

theorem getElem?_configDict (entries : List (String × String)) (key : String) :
    (configDict (entries.map fun entry => (entry.1.toList, entry.2.toList)))[key]? =
      (lastWith Prod.fst key entries).map Prod.snd := by
  have hmap : configDict (entries.map fun entry => (entry.1.toList, entry.2.toList)) =
      dictOf Prod.fst Prod.snd entries := by
    rw [configDict, dictOf, dictOf, List.foldl_map]
    simp only [String.ofList_toList]
  rw [hmap, getElem?_dictOf]

theorem modelValidate_entries : modelValidate ints
    (configDict (config.entries.map fun entry => (entry.1.toList, entry.2.toList))) =
      some config := by
  have hport : ints.read config.port.repr = some config.port := ints.read_toString config.port
  rw [modelValidate]
  simp only [ackOf, getElem?_configDict]
  simp [EventSourceConfig.entries, lastWith, hport, ofText?_text]

theorem isValue_of_splitEntry {entry key value : List Char}
    (h : splitEntry entry = some (key, value)) (hline : '\n' ∉ entry) : IsValue value := by
  rw [splitEntry] at h
  split at h
  next first second hpieces =>
    obtain ⟨rfl, rfl⟩ := Prod.mk.inj (Option.some_inj.mp h)
    have hmem : second ∈ splitWord [':', ' '] entry := by
      rw [hpieces]
      simp
    refine ⟨fun hnewline => hline (mem_of_mem_splitWord hmem _ hnewline), ?_⟩
    exact not_infix_of_mem_splitWord (by simp) hmem
  next => cases h

theorem exists_of_mem_mapM {α β : Type} {f : α → Option β} {xs : List α} {ys : List β}
    (h : xs.mapM f = some ys) {y : β} (hy : y ∈ ys) : ∃ x ∈ xs, f x = some y := by
  induction xs generalizing ys with
  | nil =>
    obtain rfl : [] = ys := Option.some_inj.mp h
    cases hy
  | cons x xs ih =>
    simp only [List.mapM_cons, Option.pure_def, Option.bind_eq_bind, Option.bind_eq_some_iff,
      Option.some_inj] at h
    obtain ⟨z, hz, zs, hzs, rfl⟩ := h
    obtain rfl | hy := List.mem_cons.mp hy
    · exact ⟨x, List.mem_cons_self, hz⟩
    · obtain ⟨w, hw, hread⟩ := ih hzs hy
      exact ⟨w, List.mem_cons_of_mem x hw, hread⟩

theorem isValue_of_configEntries {text : List Char} {entries : List (List Char × List Char)}
    (h : configEntries text = some entries) : ∀ entry ∈ entries, IsValue entry.2 := by
  intro entry hentry
  obtain ⟨line, hline, hsplit⟩ := exists_of_mem_mapM h hentry
  refine isValue_of_splitEntry hsplit fun hnewline => ?_
  exact not_infix_of_mem_splitWord (by simp) hline (List.singleton_infix_iff _ _ |>.mpr hnewline)

theorem isValue_of_getElem? {entries : List (List Char × List Char)}
    (h : ∀ entry ∈ entries, IsValue entry.2) {key value : String}
    (hvalue : (configDict entries)[key]? = some value) : IsValue value.toList := by
  rw [configDict, getElem?_dictOf] at hvalue
  obtain ⟨entry, hlast, rfl⟩ := Option.map_eq_some_iff.mp hvalue
  rw [String.toList_ofList]
  exact h entry (mem_of_lastWith hlast).1

theorem readable_of_modelValidate {dict : Std.TreeMap String String}
    (hdict : ∀ key value : String, dict[key]? = some value → IsValue value.toList)
    (h : modelValidate ints dict = some config) : config.Readable := by
  obtain ⟨user, huser, h⟩ := Option.bind_eq_some_iff.mp h
  obtain ⟨password, hpassword, h⟩ := Option.bind_eq_some_iff.mp h
  obtain ⟨host, hhost, h⟩ := Option.bind_eq_some_iff.mp h
  obtain ⟨port, -, h⟩ := Option.bind_eq_some_iff.mp h
  obtain ⟨destination, hdestination, h⟩ := Option.bind_eq_some_iff.mp h
  obtain ⟨ack, -, h⟩ := Option.bind_eq_some_iff.mp h
  obtain rfl := Option.some_inj.mp h
  exact ⟨hdict _ _ huser, hdict _ _ hpassword, hdict _ _ hhost, hdict _ _ hdestination⟩

end RoundTrip

end Workflows.Events.Stomp
