import Workflows.GraphProxy.Logs
import Mathlib

/-!
# The prompt of the create command

The prompt reads lines until one is an answer. `read_line` appends to the string it is given, which
is never cleared, and at the end of the input it reads nothing and succeeds.
-/

namespace Workflows.Cli

open GraphProxy

/-- How `to_lowercase` writes a letter between what stands before and after it. -/
structure Lowercase where
  letter (before : List Char) (c : Char) (after : List Char) : List Char
  ascii (before : List Char) (c : Char) (after : List Char) : c.toNat < 128 →
    letter before c after = [c.toLower]
  space (before : List Char) (c : Char) (after : List Char) : 128 ≤ c.toNat →
    isWhitespace c = true → letter before c after = [c]
  other (before : List Char) (c : Char) (after : List Char) : 128 ≤ c.toNat →
    isWhitespace c = false → letter before c after ≠ [] ∧
      ∀ d ∈ letter before c after, isWhitespace d = false ∧ d ≠ 'y' ∧ d ≠ 'n'

def Lowercase.ofAscii : Lowercase where
  letter _ c _ := if c.toNat < 128 then [c.toLower] else [c]
  ascii _ _ _ h := if_pos h
  space _ _ _ h _ := if_neg (Nat.not_lt.mpr h)
  other _ c _ h hspace := by
    rw [if_neg (Nat.not_lt.mpr h)]
    refine ⟨List.cons_ne_nil _ _, List.forall_mem_singleton.mpr ⟨hspace, ?_, ?_⟩⟩
    · rintro rfl
      exact absurd h (by decide)
    · rintro rfl
      exact absurd h (by decide)

section Prompt

variable (lowercase : Lowercase)

def lowercaseFrom (before : List Char) : List Char → List Char
  | [] => []
  | c :: cs => lowercase.letter before c cs ++ lowercaseFrom (before ++ [c]) cs

def toLowercase (cs : List Char) : List Char := lowercaseFrom lowercase [] cs

/-- The answer that a selection is. -/
def answer (selection : List Char) : Option Bool :=
  if trim (toLowercase lowercase selection) = ['y'] then some true
  else if trim (toLowercase lowercase selection) = ['n'] then some false
  else none

/-- The lines that are still to be read, each with its line break. -/
abbrev Stdin := List (List Char)

def readLine : Stdin → List Char × Stdin
  | [] => ([], [])
  | line :: rest => (line, rest)

/-- The answer with what is left of the input, or `none` where the loop has not ended within the
fuel. -/
def promptFrom : Nat → List Char → Stdin → Option (Bool × Stdin)
  | 0, _, _ => none
  | fuel + 1, selection, stdin =>
    let (line, rest) := readLine stdin
    match answer lowercase (selection ++ line) with
    | some b => some (b, rest)
    | none => promptFrom fuel (selection ++ line) rest

def prompt (fuel : Nat) (stdin : Stdin) : Option (Bool × Stdin) :=
  promptFrom lowercase fuel [] stdin

def firstAnswer : Stdin → Option (Bool × Stdin)
  | [] => none
  | line :: rest =>
    match answer lowercase line with
    | some b => some (b, rest)
    | none => firstAnswer rest

/-- The prompt answers at the first line that is an answer, and ends where there is none. -/
def AnswersFirst (stdin : Stdin) : Prop :=
  match firstAnswer lowercase stdin with
  | some result => ∃ fuel, prompt lowercase fuel stdin = some result
  | none => ∃ fuel result, prompt lowercase fuel stdin = some result

/-- Only blank lines stand before a line that is an answer. -/
def Decisive (stdin : Stdin) : Prop :=
  ∃ blank line rest, stdin = blank ++ line :: rest ∧ (∀ l ∈ blank, trim l = []) ∧
    (answer lowercase line).isSome = true

end Prompt

section Visible

def visible (cs : List Char) : List Char := cs.filter (!isWhitespace ·)

theorem visible_append (cs ds : List Char) : visible (cs ++ ds) = visible cs ++ visible ds :=
  List.filter_append ..

theorem visible_dropWhile (cs : List Char) : visible (cs.dropWhile isWhitespace) = visible cs := by
  induction cs with
  | nil => rfl
  | cons c cs ih =>
    rw [List.dropWhile_cons]
    split_ifs with hspace
    · rw [ih, visible, visible, List.filter_cons_of_neg (by simp [hspace])]
    · rfl

theorem visible_reverse (cs : List Char) : visible cs.reverse = (visible cs).reverse :=
  List.filter_reverse ..

theorem visible_trim (cs : List Char) : visible (trim cs) = visible cs := by
  rw [trim, visible_reverse, visible_dropWhile, visible_reverse, visible_dropWhile,
    List.reverse_reverse]

theorem visible_eq_nil_iff {cs : List Char} :
    visible cs = [] ↔ ∀ c ∈ cs, isWhitespace c = true := by
  simp [visible, List.filter_eq_nil_iff]

theorem trim_eq_nil_iff {cs : List Char} : trim cs = [] ↔ visible cs = [] := by
  constructor
  · intro h
    rw [← visible_trim, h]
    rfl
  · intro h
    rw [trim, List.dropWhile_eq_nil_iff.mpr (visible_eq_nil_iff.mp h)]
    rfl

theorem trim_eq_singleton_iff {cs : List Char} {c : Char} (hc : isWhitespace c = false) :
    trim cs = [c] ↔ visible cs = [c] := by
  constructor
  · intro h
    rw [← visible_trim, h, visible, List.filter_cons_of_pos (by simp [hc])]
    rfl
  · intro h
    obtain ⟨front, back, rfl, hfront, -, hback⟩ := List.filter_eq_cons_iff.mp h
    have hblank : ∀ d ∈ front, isWhitespace d = true := fun d hd => by simpa using hfront d hd
    have hrest := visible_eq_nil_iff.mp hback
    rw [trim, List.dropWhile_append_of_pos hblank, List.dropWhile_cons_of_neg (by simp [hc]),
      List.reverse_cons, List.dropWhile_append_of_pos fun d hd => hrest d (List.mem_reverse.mp hd),
      List.dropWhile_cons_of_neg (by simp [hc])]
    rfl

end Visible

section Answer

variable {lowercase : Lowercase} {before after cs ds : List Char} {c : Char} {b : Bool}

theorem isWhitespace_toLower (h : c.toNat < 128) : isWhitespace c.toLower = isWhitespace c := by
  have hall : ∀ n : Fin 128, isWhitespace (Char.ofNat n).toLower = isWhitespace (Char.ofNat n) := by
    decide +kernel
  have hc := hall ⟨c.toNat, h⟩
  rwa [Char.ofNat_toNat] at hc

theorem visible_letter_of_space (h : isWhitespace c = true) :
    visible (lowercase.letter before c after) = [] := by
  rw [visible_eq_nil_iff]
  rcases Nat.lt_or_ge c.toNat 128 with hascii | hother
  · rw [lowercase.ascii before c after hascii, List.forall_mem_singleton,
      isWhitespace_toLower hascii, h]
  · rw [lowercase.space before c after hother h, List.forall_mem_singleton, h]

theorem visible_letter (h : isWhitespace c = false) :
    visible (lowercase.letter before c after) = lowercase.letter before c after ∧
      lowercase.letter before c after ≠ [] := by
  rcases Nat.lt_or_ge c.toNat 128 with hascii | hother
  · rw [lowercase.ascii before c after hascii]
    have hlower := (isWhitespace_toLower hascii).trans h
    exact ⟨List.filter_cons_of_pos (by simp [hlower]), List.cons_ne_nil _ _⟩
  · obtain ⟨hne, hall⟩ := lowercase.other before c after hother h
    refine ⟨List.filter_eq_self.mpr fun d hd => ?_, hne⟩
    simp [(hall d hd).1]

/-- The answers in small letters. -/
def answerLetter (b : Bool) : Char := if b then 'y' else 'n'

theorem isWhitespace_answerLetter (b : Bool) : isWhitespace (answerLetter b) = false := by
  cases b <;> decide

theorem letter_eq_answerLetter_iff (h : isWhitespace c = false) :
    lowercase.letter before c after = [answerLetter b] ↔
      c.toNat < 128 ∧ c.toLower = answerLetter b := by
  rcases Nat.lt_or_ge c.toNat 128 with hascii | hother
  · rw [lowercase.ascii before c after hascii, List.singleton_inj]
    exact (and_iff_right hascii).symm
  · refine iff_of_false (fun heq => ?_) fun hascii => absurd hascii.1 (Nat.not_lt.mpr hother)
    obtain ⟨-, hall⟩ := lowercase.other before c after hother h
    obtain ⟨-, hy, hn⟩ := hall (answerLetter b) (by rw [heq]; exact List.mem_singleton_self _)
    cases b with
    | true => exact hy rfl
    | false => exact hn rfl

theorem visible_cons_of_space (h : isWhitespace c = true) : visible (c :: cs) = visible cs :=
  List.filter_cons_of_neg (by simp [h])

theorem visible_cons (h : isWhitespace c = false) : visible (c :: cs) = c :: visible cs :=
  List.filter_cons_of_pos (by simp [h])

theorem visible_lowercaseFrom_eq_nil_iff :
    visible (lowercaseFrom lowercase before cs) = [] ↔ visible cs = [] := by
  induction cs generalizing before with
  | nil => rfl
  | cons c cs ih =>
    rw [lowercaseFrom, visible_append]
    cases hspace : isWhitespace c with
    | true => rw [visible_letter_of_space hspace, visible_cons_of_space hspace, List.nil_append, ih]
    | false =>
      obtain ⟨heq, hne⟩ := @visible_letter lowercase before cs c hspace
      rw [heq, visible_cons hspace]
      exact iff_of_false (fun h => hne (List.append_eq_nil_iff.mp h).1) (List.cons_ne_nil _ _)

/-- A letter that can be seen becomes one or more, and white space stays what it is. -/
theorem visible_lowercaseFrom_iff :
    visible (lowercaseFrom lowercase before cs) = [answerLetter b] ↔
      ∃ c, visible cs = [c] ∧ c.toNat < 128 ∧ c.toLower = answerLetter b := by
  induction cs generalizing before with
  | nil => simp [lowercaseFrom, visible]
  | cons c cs ih =>
    rw [lowercaseFrom, visible_append]
    cases hspace : isWhitespace c with
    | true => rw [visible_letter_of_space hspace, visible_cons_of_space hspace, List.nil_append, ih]
    | false =>
      obtain ⟨heq, hne⟩ := @visible_letter lowercase before cs c hspace
      rw [heq, visible_cons hspace, List.append_eq_singleton_iff,
        or_iff_right fun h => hne h.1, letter_eq_answerLetter_iff hspace,
        visible_lowercaseFrom_eq_nil_iff]
      simp [and_comm]

theorem answer_eq_some_iff_trim :
    answer lowercase cs = some b ↔ trim (toLowercase lowercase cs) = [answerLetter b] := by
  rw [answer]
  cases b with
  | true =>
    split_ifs with hyes hno
    · exact iff_of_true rfl hyes
    · exact iff_of_false nofun hyes
    · exact iff_of_false nofun hyes
  | false =>
    split_ifs with hyes hno
    · rw [hyes]
      decide
    · exact iff_of_true rfl hno
    · exact iff_of_false nofun hno

/-- The answer is in what can be seen. -/
theorem answer_eq_some_iff : answer lowercase cs = some b ↔
    ∃ c, visible cs = [c] ∧ c.toNat < 128 ∧ c.toLower = answerLetter b := by
  rw [answer_eq_some_iff_trim, trim_eq_singleton_iff (isWhitespace_answerLetter b), toLowercase,
    visible_lowercaseFrom_iff]

theorem answer_congr (h : visible cs = visible ds) :
    answer lowercase cs = answer lowercase ds := by
  apply Option.ext
  intro b
  rw [answer_eq_some_iff, answer_eq_some_iff, h]

theorem answer_blank_append (h : visible cs = []) :
    answer lowercase (cs ++ ds) = answer lowercase ds := by
  apply answer_congr
  rw [visible_append, h, List.nil_append]

theorem answer_blank (h : visible cs = []) : answer lowercase cs = none := by
  rw [Option.eq_none_iff_forall_ne_some]
  intro b hb
  obtain ⟨c, hc, -⟩ := answer_eq_some_iff.mp hb
  cases h.symm.trans hc

/-- What is no answer and not blank does not become one. -/
theorem answer_append (h : visible cs ≠ []) (hnone : answer lowercase cs = none) :
    answer lowercase (cs ++ ds) = none := by
  rw [Option.eq_none_iff_forall_ne_some]
  intro b hb
  obtain ⟨c, hc, hletter⟩ := answer_eq_some_iff.mp hb
  rw [visible_append, List.append_eq_singleton_iff, or_iff_right fun heq => h heq.1] at hc
  cases hnone.symm.trans (answer_eq_some_iff.mpr ⟨c, hc.1, hletter⟩)

end Answer

section Loop

variable {lowercase : Lowercase} {selection line : List Char} {rest stdin : Stdin}
  {result : Bool × Stdin}

theorem promptFrom_succ (fuel : Nat) (selection : List Char) (stdin : Stdin) :
    promptFrom lowercase (fuel + 1) selection stdin =
      match answer lowercase (selection ++ (readLine stdin).1) with
      | some b => some (b, (readLine stdin).2)
      | none =>
        promptFrom lowercase fuel (selection ++ (readLine stdin).1) (readLine stdin).2 := rfl

/-- After the end of the input nothing is read any more. -/
theorem promptFrom_nil (h : visible selection = []) (fuel : Nat) :
    promptFrom lowercase fuel selection [] = none := by
  induction fuel with
  | zero => rfl
  | succ fuel ih =>
    rw [promptFrom_succ, readLine, List.append_nil, answer_blank h]
    exact ih

/-- A line that is neither blank nor an answer is never forgotten. -/
theorem promptFrom_stuck (h : visible selection ≠ []) (hnone : answer lowercase selection = none)
    (fuel : Nat) (stdin : Stdin) : promptFrom lowercase fuel selection stdin = none := by
  induction fuel generalizing selection stdin with
  | zero => rfl
  | succ fuel ih =>
    have hnext : answer lowercase (selection ++ (readLine stdin).1) = none := answer_append h hnone
    rw [promptFrom_succ, hnext]
    apply ih ?_ hnext
    rw [visible_append]
    exact fun heq => h (List.append_eq_nil_iff.mp heq).1

theorem decisive_cons : Decisive lowercase (line :: rest) ↔
    (answer lowercase line).isSome = true ∨ trim line = [] ∧ Decisive lowercase rest := by
  constructor
  · rintro ⟨blank, first, back, heq, hblank, hanswer⟩
    cases blank with
    | nil =>
      obtain ⟨rfl, -⟩ := List.cons.inj heq
      exact .inl hanswer
    | cons l blank =>
      obtain ⟨rfl, rfl⟩ := List.cons.inj heq
      obtain ⟨hl, hblank⟩ := List.forall_mem_cons.mp hblank
      exact .inr ⟨hl, blank, first, back, rfl, hblank, hanswer⟩
  · rintro (hanswer | ⟨hl, blank, first, back, rfl, hblank, hanswer⟩)
    · exact ⟨[], line, rest, rfl, nofun, hanswer⟩
    · exact ⟨line :: blank, first, back, rfl, List.forall_mem_cons.mpr ⟨hl, hblank⟩, hanswer⟩

theorem exists_promptFrom_of_some {b : Bool} (h : answer lowercase (selection ++ line) = some b) :
    (∃ fuel, promptFrom lowercase fuel selection (line :: rest) = some result) ↔
      some (b, rest) = some result := by
  have hsucc : ∀ fuel, promptFrom lowercase (fuel + 1) selection (line :: rest) =
      some (b, rest) := by
    intro fuel
    rw [promptFrom_succ, readLine, h]
  constructor
  · rintro ⟨fuel, heq⟩
    cases fuel with
    | zero => cases heq
    | succ fuel => exact (hsucc fuel).symm.trans heq
  · intro heq
    exact ⟨1, (hsucc 0).trans heq⟩

theorem exists_promptFrom_of_none (h : answer lowercase (selection ++ line) = none) :
    (∃ fuel, promptFrom lowercase fuel selection (line :: rest) = some result) ↔
      ∃ fuel, promptFrom lowercase fuel (selection ++ line) rest = some result := by
  have hsucc : ∀ fuel, promptFrom lowercase (fuel + 1) selection (line :: rest) =
      promptFrom lowercase fuel (selection ++ line) rest := by
    intro fuel
    rw [promptFrom_succ, readLine, h]
  constructor
  · rintro ⟨fuel, heq⟩
    cases fuel with
    | zero => cases heq
    | succ fuel => exact ⟨fuel, (hsucc fuel).symm.trans heq⟩
  · rintro ⟨fuel, heq⟩
    exact ⟨fuel + 1, (hsucc fuel).trans heq⟩

/-- The induction is on the input, and as long as it goes on the selection is blank. -/
theorem exists_promptFrom_iff (h : visible selection = []) :
    (∃ fuel, promptFrom lowercase fuel selection stdin = some result) ↔
      Decisive lowercase stdin ∧ firstAnswer lowercase stdin = some result := by
  induction stdin generalizing selection with
  | nil =>
    refine iff_of_false ?_ fun hfirst => ?_
    · rintro ⟨fuel, heq⟩
      cases (promptFrom_nil h fuel).symm.trans heq
    · cases hfirst.2
  | cons line rest ih =>
    have hline : answer lowercase (selection ++ line) = answer lowercase line :=
      answer_blank_append h
    rw [decisive_cons, firstAnswer, trim_eq_nil_iff]
    cases hanswer : answer lowercase line with
    | some b =>
      rw [exists_promptFrom_of_some (hline.trans hanswer)]
      exact (and_iff_right (.inl rfl)).symm
    | none =>
      rw [exists_promptFrom_of_none (hline.trans hanswer)]
      by_cases hblank : visible line = []
      · rw [ih (by rw [visible_append, h, hblank]; rfl)]
        simp [hblank]
      · refine iff_of_false ?_ fun hfirst => ?_
        · rintro ⟨fuel, heq⟩
          have hseen : visible (selection ++ line) ≠ [] := by
            rw [visible_append, h]
            exact hblank
          cases (promptFrom_stuck hseen (hline.trans hanswer) fuel rest).symm.trans heq
        · simp [hblank] at hfirst

theorem exists_firstAnswer (h : Decisive lowercase stdin) :
    ∃ result, firstAnswer lowercase stdin = some result := by
  induction stdin with
  | nil =>
    obtain ⟨blank, line, rest, heq, -⟩ := h
    cases blank <;> cases heq
  | cons line rest ih =>
    rw [firstAnswer]
    cases hanswer : answer lowercase line with
    | some b => exact ⟨_, rfl⟩
    | none =>
      rw [decisive_cons, hanswer] at h
      exact ih (h.resolve_left Bool.false_ne_true).2

theorem answersFirst_iff (lowercase : Lowercase) (stdin : Stdin) :
    AnswersFirst lowercase stdin ↔ Decisive lowercase stdin := by
  have hprompt : ∀ result, (∃ fuel, prompt lowercase fuel stdin = some result) ↔
      Decisive lowercase stdin ∧ firstAnswer lowercase stdin = some result :=
    fun result => exists_promptFrom_iff rfl
  rw [AnswersFirst]
  constructor
  · intro h
    cases hfirst : firstAnswer lowercase stdin with
    | some result =>
      rw [hfirst] at h
      exact ((hprompt result).mp h).1
    | none =>
      rw [hfirst] at h
      obtain ⟨fuel, result, heq⟩ := h
      exact ((hprompt result).mp ⟨fuel, heq⟩).1
  · intro h
    obtain ⟨result, hfirst⟩ := exists_firstAnswer h
    rw [hfirst]
    exact (hprompt result).mpr ⟨h, hfirst⟩

/-- After another answer even `y` is not understood. -/
theorem maybe_not_answered :
    ¬∀ (lowercase : Lowercase) (stdin : Stdin), AnswersFirst lowercase stdin := by
  intro hclaim
  have hanswers := hclaim .ofAscii ["maybe\n".toList, "y\n".toList]
  have hfirst : firstAnswer .ofAscii ["maybe\n".toList, "y\n".toList] = some (true, []) := by
    decide +kernel
  rw [AnswersFirst, hfirst] at hanswers
  obtain ⟨hdecisive, -⟩ := (exists_promptFrom_iff rfl).mp hanswers
  have hnot : ¬((answer .ofAscii "maybe\n".toList).isSome = true ∨ trim "maybe\n".toList = []) := by
    decide +kernel
  exact hnot ((decisive_cons.mp hdecisive).imp_right And.left)

end Loop

end Workflows.Cli
