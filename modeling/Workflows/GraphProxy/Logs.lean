import Workflows.Foundations.Chunks
import Workflows.Foundations.Utf8

/-!
# The log subscription

`logs` turns each network chunk of the response into text, splits the text into lines and yields
one entry for each line. Nothing is kept from one chunk to the next.
-/

namespace Workflows.GraphProxy

open Chunks Utf8

/-- A single log line streamed from a pod. -/
structure LogEntry where
  content : String
  podName : String
  deriving DecidableEq

structure LogContent where
  content : String
  podName : String

structure LogResponse where
  result : Option LogContent

section Text

/-- `split_inclusive('\n')`. -/
def splitInclusive : List Char → List (List Char)
  | [] => []
  | c :: cs =>
    if c = '\n' then [c] :: splitInclusive cs
    else
      match splitInclusive cs with
      | [] => [[c]]
      | line :: rest => (c :: line) :: rest

def stripSuffix (c : Char) (line : List Char) : Option (List Char) :=
  if line.getLast? = some c then some line.dropLast else none

def stripTerminator (line : List Char) : List Char :=
  match stripSuffix '\n' line with
  | none => line
  | some content => (stripSuffix '\r' content).getD content

def lines (text : List Char) : List (List Char) :=
  (splitInclusive text).map stripTerminator

def isWhitespace (c : Char) : Bool :=
  let n := c.toNat
  (0x09 ≤ n && n ≤ 0x0D) || n = 0x20 || n = 0x85 || n = 0xA0 || n = 0x1680 ||
    (0x2000 ≤ n && n ≤ 0x200A) || n = 0x2028 || n = 0x2029 || n = 0x202F || n = 0x205F || n = 0x3000

def trim (line : List Char) : List Char :=
  ((line.dropWhile isWhitespace).reverse.dropWhile isWhitespace).reverse

example : lines "a\r\nb \n\nc\r".toList = ["a".toList, "b ".toList, [], "c\r".toList] := by decide

end Text

section Logs

-- `serde_json::from_str::<LogResponse>`, none where it fails.
variable (fromStr : String → Option LogResponse) (taskId : String)

def lineEntry (line : List Char) : Except String LogEntry :=
  match fromStr (String.ofList line) with
  | some parsed =>
    match parsed.result with
    | some result => .ok { content := result.content, podName := result.podName }
    | none => .error "Missing result in log response"
  -- a line that is not JSON is passed on as it is, under the name of the task
  | none => .ok { content := String.ofList (trim line), podName := taskId }

def textEntries (chunk : List UInt8) : List (Except String LogEntry) :=
  (lines (fromUtf8Lossy chunk)).map (lineEntry fromStr taskId)

def chunkEntries (isSuccess : Bool) : Except Unit (List UInt8) → List (Except String LogEntry)
  | .ok chunk =>
    if isSuccess then textEntries fromStr taskId chunk else [.error "Failed to read log chunk"]
  | .error _ => [.error "Failed to read log chunk"]

def logs (isSuccess : Bool) (byteStream : List (Except Unit (List UInt8))) :
    List (Except String LogEntry) :=
  byteStream.flatMap (chunkEntries fromStr taskId isSuccess)

/-- A stream received with a success status in these chunks. -/
def received (chunks : List (List UInt8)) : List (Except String LogEntry) :=
  logs fromStr taskId true (chunks.map .ok)

theorem received_eq_flatMap (chunks : List (List UInt8)) :
    received fromStr taskId chunks = chunks.flatMap (textEntries fromStr taskId) := by
  rw [received, logs, List.flatMap_map]
  rfl

theorem received_singleton (bytes : List UInt8) :
    received fromStr taskId [bytes] = textEntries fromStr taskId bytes := by
  rw [received_eq_flatMap, List.flatMap_singleton]

end Logs

section Lines

theorem splitInclusive_eq_nil_iff {text : List Char} : splitInclusive text = [] ↔ text = [] := by
  cases text with
  | nil => simp [splitInclusive]
  | cons c cs =>
    rw [splitInclusive]
    split
    · simp
    · split <;> simp

theorem exists_cons_splitInclusive {text : List Char} (h : text ≠ []) :
    ∃ line rest, splitInclusive text = line :: rest :=
  List.exists_cons_of_ne_nil (mt splitInclusive_eq_nil_iff.mp h)

theorem splitInclusive_append {a : List Char} (h : a.getLast? = some '\n') (b : List Char) :
    splitInclusive (a ++ b) = splitInclusive a ++ splitInclusive b := by
  induction a with
  | nil => cases h
  | cons c cs ih =>
    rcases List.eq_nil_or_concat' cs with rfl | ⟨init, last, hconcat⟩
    · obtain rfl : c = '\n' := Option.some_inj.mp h
      simp [splitInclusive]
    · have hne : cs ≠ [] := by simp [hconcat]
      rw [List.getLast?_cons_of_ne_nil hne] at h
      rw [List.cons_append, splitInclusive, splitInclusive, ih h]
      split
      · rfl
      · obtain ⟨line, rest, hsplit⟩ := exists_cons_splitInclusive hne
        rw [hsplit]
        rfl

/-- A text has one more line than line feeds when it stops in the middle of a line. -/
def unterminated {α : Type} [DecidableEq α] (newline : α) (l : List α) : Nat :=
  if l = [] ∨ l.getLast? = some newline then 0 else 1

theorem unterminated_append {α : Type} [DecidableEq α] {newline : α} (a : List α) {b : List α}
    (hb : b ≠ []) : unterminated newline (a ++ b) = unterminated newline b := by
  simp [unterminated, hb, List.getLast?_append_of_ne_nil a hb]

theorem length_splitInclusive (text : List Char) :
    (splitInclusive text).length = text.count '\n' + unterminated '\n' text := by
  induction text with
  | nil => rfl
  | cons c cs ih =>
    have hcons : cs ≠ [] → unterminated '\n' (c :: cs) = unterminated '\n' cs :=
      unterminated_append [c]
    rw [splitInclusive]
    split
    next hc =>
      subst hc
      rw [List.length_cons, ih, List.count_cons_self]
      rcases eq_or_ne cs [] with rfl | hne
      · rfl
      · rw [hcons hne]
        omega
    next hc =>
      rw [List.count_cons_of_ne hc]
      rcases eq_or_ne cs [] with rfl | hne
      · simp [splitInclusive, unterminated, hc]
      · obtain ⟨line, rest, hsplit⟩ := exists_cons_splitInclusive hne
        rw [hcons hne, ← ih, hsplit]
        rfl

end Lines

section Chunking

variable (fromStr : String → Option LogResponse) (taskId : String)

/-- A cut of the stream that does not run through a line. -/
def LineCut (front back : List UInt8) : Prop :=
  front = [] ∨ back = [] ∨ front.getLast? = some 0x0A

theorem textEntries_append {front back : List UInt8} (h : LineCut front back) :
    textEntries fromStr taskId (front ++ back) =
      textEntries fromStr taskId front ++ textEntries fromStr taskId back := by
  rcases h with rfl | rfl | hlast
  · rfl
  · rw [List.append_nil]
    exact (List.append_nil _).symm
  · have htext := (getLast?_fromUtf8Lossy front).mpr hlast
    simp only [textEntries, lines]
    rw [fromUtf8Lossy_append hlast, splitInclusive_append htext, List.map_append, List.map_append]

theorem length_textEntries (bytes : List UInt8) :
    (textEntries fromStr taskId bytes).length = bytes.count 0x0A + unterminated 0x0A bytes := by
  have hopen : unterminated '\n' (fromUtf8Lossy bytes) = unterminated 0x0A bytes := by
    simp only [unterminated, fromUtf8Lossy_eq_nil_iff, getLast?_fromUtf8Lossy]
  rw [textEntries, List.length_map, lines, List.length_map, length_splitInclusive, hopen,
    count_fromUtf8Lossy]

theorem length_textEntries_append_lt {front back : List UInt8} (h : ¬LineCut front back) :
    (textEntries fromStr taskId (front ++ back)).length <
      (textEntries fromStr taskId front).length + (textEntries fromStr taskId back).length := by
  simp only [LineCut, not_or] at h
  obtain ⟨hfront, hback, hlast⟩ := h
  have hopen : unterminated (0x0A : UInt8) front = 1 := by simp [unterminated, hfront, hlast]
  rw [length_textEntries, length_textEntries, length_textEntries, unterminated_append front hback,
    List.count_append, hopen]
  omega

theorem received_eq_iff_aligned (chunks : List (List UInt8)) :
    received fromStr taskId chunks = received fromStr taskId [chunks.flatten] ↔
      Aligned LineCut chunks := by
  rw [received_singleton, received_eq_flatMap]
  exact flatMap_eq_iff_aligned rfl (fun _ _ => textEntries_append fromStr taskId)
    (fun _ _ => length_textEntries_append_lt fromStr taskId) chunks

/-- In a stream of empty lines every cut is at the end of a line. -/
theorem aligned_of_newlines : ∀ {chunks : List (List UInt8)},
    (∀ b ∈ chunks.flatten.dropLast, b = 0x0A) → Aligned LineCut chunks
  | [], _ => trivial
  | c :: cs, h => by
    rw [List.flatten_cons] at h
    rcases eq_or_ne cs.flatten [] with hnil | hne
    · refine ⟨.inr (.inl hnil), aligned_of_flatten_eq_nil (fun _ => .inr (.inl rfl)) hnil⟩
    · rw [List.dropLast_append_of_ne_nil hne] at h
      refine ⟨?_, aligned_of_newlines fun b hb => h b (List.mem_append_right c hb)⟩
      rcases List.eq_nil_or_concat' c with rfl | ⟨init, last, rfl⟩
      · exact .inl rfl
      · rw [LineCut, List.getLast?_concat, h last (by simp)]
        exact .inr (.inr rfl)

theorem newlines_of_received_eq {bytes : List UInt8}
    (h : ∀ cs ds : List (List UInt8), cs.flatten = bytes → ds.flatten = bytes →
      received fromStr taskId cs = received fromStr taskId ds) :
    ∀ b ∈ bytes.dropLast, b = 0x0A := by
  intro b hb
  obtain ⟨front, back, hsplit⟩ := List.append_of_mem hb
  have hne : bytes ≠ [] := by
    rintro rfl
    cases hb
  obtain ⟨last, hlast⟩ : ∃ last, bytes = (front ++ [b]) ++ (back ++ [last]) := by
    refine ⟨bytes.getLast hne, ?_⟩
    calc bytes = bytes.dropLast ++ [bytes.getLast hne] := (List.dropLast_append_getLast hne).symm
      _ = (front ++ [b]) ++ (back ++ [bytes.getLast hne]) := by rw [hsplit]; simp
  have haligned := (received_eq_iff_aligned fromStr taskId [front ++ [b], back ++ [last]]).mp
    (h _ _ (by simp [hlast]) (by simp [hlast]))
  have hcut : LineCut (front ++ [b]) (back ++ [last]) := by simpa using haligned.1
  simpa [LineCut] using hcut

/-- A split reads as the whole stream does exactly when it cuts no line; all splits of a stream
read alike exactly when it has no line to cut. -/
theorem received_chunking_iff :
    (∀ chunks : List (List UInt8),
      received fromStr taskId chunks = received fromStr taskId [chunks.flatten] ↔
        Aligned LineCut chunks) ∧
    ∀ bytes : List UInt8,
      (∀ cs ds : List (List UInt8), cs.flatten = bytes → ds.flatten = bytes →
        received fromStr taskId cs = received fromStr taskId ds) ↔
        ∀ b ∈ bytes.dropLast, b = 0x0A := by
  refine ⟨received_eq_iff_aligned fromStr taskId, fun bytes => ?_⟩
  constructor
  · exact newlines_of_received_eq fromStr taskId
  · rintro h cs ds rfl hds
    have hcs := (received_eq_iff_aligned fromStr taskId cs).mpr (aligned_of_newlines h)
    rw [← hds] at h
    have hds' := (received_eq_iff_aligned fromStr taskId ds).mpr (aligned_of_newlines h)
    rw [hcs, hds', hds]

def ascii (text : String) : List UInt8 :=
  text.toList.map fun c => UInt8.ofNat c.toNat

theorem received_depends_on_chunks :
    ¬∀ (fromStr : String → Option LogResponse) (taskId : String) (bytes : List UInt8)
      (cs ds : List (List UInt8)), cs.flatten = bytes → ds.flatten = bytes →
      received fromStr taskId cs = received fromStr taskId ds := by
  intro h
  have heq := h (fun line =>
      if line = "\x7b\"result\":\x7b\"content\":\"hi\",\"podName\":\"pod-1\"\x7d\x7d" then
        some ⟨some ⟨"hi", "pod-1"⟩⟩
      else none) "pod-1" _
    [ascii "\x7b\"result\":\x7b\"content\":\"h", ascii "i\",\"podName\":\"pod-1\"\x7d\x7d\n"]
    [ascii "\x7b\"result\":\x7b\"content\":\"hi\",\"podName\":\"pod-1\"\x7d\x7d\n"] rfl (by decide)
  have hlength := congrArg List.length heq
  rw [received_eq_flatMap, received_eq_flatMap] at hlength
  simp only [List.flatMap_cons, List.flatMap_nil, List.length_append, length_textEntries] at hlength
  exact absurd hlength (by decide)

end Chunking

end Workflows.GraphProxy
