import Mathlib

/-!
# Label selectors

The syntax that Kubernetes documents for label selectors: requirements with commas between them,

    KEY | !KEY | KEY = VALUE | KEY == VALUE | KEY != VALUE | KEY > VALUE | KEY < VALUE
    KEY in (VALUE, ...) | KEY notin (VALUE, ...)

where a value may be empty, white space stands between words, and keys and values are checked. The
empty text selects everything. Requirements that are written in this syntax are read back, as long
as no key or value contains a separator.
-/

namespace Workflows.Selectors

inductive Token where
  | word (text : String)
  | bang | eq | doubleEq | ne | gt | lt | comma | openPar | closePar
  deriving DecidableEq

def isSpace (c : Char) : Bool := c = ' ' || c = '\t' || c = '\r' || c = '\n'

def punctuation? : Char → Option Token
  | '(' => some .openPar
  | ')' => some .closePar
  | ',' => some .comma
  | '>' => some .gt
  | '<' => some .lt
  | _ => none

/-- A letter that is not part of a word. -/
def isSeparator (c : Char) : Bool :=
  c = '=' || c = '!' || (punctuation? c).isSome || isSpace c

/-- What has been read of the next token. -/
inductive Pending where
  | none
  | word (text : List Char)
  | eq
  | bang

def Pending.tokens : Pending → List Token
  | .none => []
  | .word text => [.word (.ofList text)]
  | .eq => [.eq]
  | .bang => [.bang]

/-- The tokens that a letter completes, and what it begins. -/
def step (p : Pending) (c : Char) : List Token × Pending :=
  if c = '=' then
    match p with
    | .eq => ([.doubleEq], .none)
    | .bang => ([.ne], .none)
    | p => (p.tokens, .eq)
  else if c = '!' then (p.tokens, .bang)
  else
    match punctuation? c with
    | some t => (p.tokens ++ [t], .none)
    | none =>
      if isSpace c then (p.tokens, .none)
      else
        match p with
        | .word text => ([], .word (text ++ [c]))
        | p => (p.tokens, .word [c])

def lexFrom : Pending → List Char → List Token
  | p, [] => p.tokens
  | p, c :: cs => (step p c).1 ++ lexFrom (step p c).2 cs

inductive Operator where
  | eq | ne | gt | lt | isIn | notIn | exist | doesNotExist
  deriving DecidableEq

structure Requirement where
  key : String
  operator : Operator
  values : List String
  deriving DecidableEq

section Parse

def exactValue (operator : Operator) : List Token → Option (Operator × List String × List Token)
  | .word text :: rest => some (operator, [text], rest)
  | [] => some (operator, [""], [])
  | .comma :: rest => some (operator, [""], .comma :: rest)
  | _ => none

/-- The values up to the closing parenthesis. -/
def valueList : List Token → Option (List String × List Token)
  | .closePar :: rest => some ([""], rest)
  | .comma :: rest => (valueList rest).map fun found => ("" :: found.1, found.2)
  | .word text :: .closePar :: rest => some ([text], rest)
  | .word text :: .comma :: rest => (valueList rest).map fun found => (text :: found.1, found.2)
  | _ => none

def restriction : List Token → Option (Operator × List String × List Token)
  | [] => some (.exist, [], [])
  | .comma :: rest => some (.exist, [], .comma :: rest)
  | .eq :: rest => exactValue .eq rest
  | .doubleEq :: rest => exactValue .eq rest
  | .ne :: rest => exactValue .ne rest
  | .gt :: rest => exactValue .gt rest
  | .lt :: rest => exactValue .lt rest
  | .word text :: .openPar :: rest =>
    if text = "in" then (valueList rest).map fun found => (.isIn, found.1, found.2)
    else if text = "notin" then (valueList rest).map fun found => (.notIn, found.1, found.2)
    else none
  | _ => none

def requirement : List Token → Option (Requirement × List Token)
  | .bang :: .word key :: rest => some (⟨key, .doesNotExist, []⟩, rest)
  | .word key :: rest =>
    (restriction rest).map fun found => (⟨key, found.1, found.2.1⟩, found.2.2)
  | _ => none

def isNameLetter (c : Char) : Bool := c.isAlphanum || c = '-' || c = '_' || c = '.'

def isName (cs : List Char) : Bool :=
  cs.length ≤ 63 && cs.all isNameLetter && cs.head?.any Char.isAlphanum &&
    cs.getLast?.any Char.isAlphanum

/-- A label of a DNS name. -/
def isDnsLabel (cs : List Char) : Bool :=
  cs.all (fun c => c.isLower || c.isDigit || c = '-') &&
    cs.head?.any (fun c => c.isLower || c.isDigit) &&
    cs.getLast?.any fun c => c.isLower || c.isDigit

def isQualifiedName (key : String) : Bool :=
  match key.toList.splitOn '/' with
  | [name] => isName name
  | [domain, name] =>
    domain.length ≤ 253 && (domain.splitOn '.').all isDnsLabel && isName name
  | _ => false

def isLabelValue (value : String) : Bool := value.toList.isEmpty || isName value.toList

def integer? (value : String) : Option Nat :=
  let number := Nat.ofDigitChars 10 value.toList 0
  if value ≠ "" ∧ value.toList.all Char.isDigit ∧ number < 2 ^ 63 then some number else none

def Requirement.isValid (r : Requirement) : Bool :=
  isQualifiedName r.key && r.values.all isLabelValue &&
    match r.operator with
    | .gt | .lt => r.values.all fun value => (integer? value).isSome
    | _ => true

/-- Each requirement takes a token at least. -/
def requirements : Nat → List Token → Option (List Requirement)
  | 0, _ => none
  | n + 1, ts =>
    match requirement ts with
    | some (r, rest) =>
      if r.isValid then
        match rest with
        | [] => some [r]
        | .comma :: rest => (requirements n rest).map (r :: ·)
        | _ => none
      else none
    | none => none

def parse (text : String) : Option (List Requirement) :=
  match lexFrom .none text.toList with
  | [] => some []
  | ts => requirements ts.length ts

end Parse

/-- The labels of an object, whose keys and values are checked when it is stored. -/
structure Labels where
  get : String → Option String
  valid : ∀ key value, get key = some value → isQualifiedName key ∧ isLabelValue value

def Requirement.Matches (r : Requirement) (labels : Labels) : Prop :=
  match r.operator with
  | .eq | .isIn => ∃ value ∈ r.values, labels.get r.key = some value
  | .ne | .notIn => ∀ value ∈ r.values, labels.get r.key ≠ some value
  | .exist => labels.get r.key ≠ none
  | .doesNotExist => labels.get r.key = none
  | .gt => ∃ bound ∈ (r.values.filterMap integer?), ∃ n ∈ (labels.get r.key).bind integer?, bound < n
  | .lt => ∃ bound ∈ (r.values.filterMap integer?), ∃ n ∈ (labels.get r.key).bind integer?, n < bound

def Requirement.print (r : Requirement) : String :=
  match r.operator with
  | .eq => r.key ++ "=" ++ String.join r.values
  | .ne => r.key ++ "!=" ++ String.join r.values
  | .gt => r.key ++ ">" ++ String.join r.values
  | .lt => r.key ++ "<" ++ String.join r.values
  | .isIn => r.key ++ " in (" ++ ", ".intercalate r.values ++ ")"
  | .notIn => r.key ++ " notin (" ++ ", ".intercalate r.values ++ ")"
  | .exist => r.key
  | .doesNotExist => "!" ++ r.key

def Plain (text : String) : Prop := ∀ c ∈ text.toList, isSeparator c = false

/-- A requirement with a key, and with as many values as its operator takes, none of which contains
a separator. -/
structure Requirement.Plain (r : Requirement) : Prop where
  key_ne : r.key ≠ ""
  key : Selectors.Plain r.key
  values : ∀ value ∈ r.values, Selectors.Plain value
  count : match r.operator with
    | .eq | .ne | .gt | .lt => ∃ value, r.values = [value]
    | .isIn | .notIn => r.values ≠ []
    | .exist | .doesNotExist => r.values = []

section Lexer

variable {p : Pending} {v w : List Char} {cs rest : List Char} {c : Char}

theorem step_separator (h : isSeparator c) (hne : c ≠ '=') (p : Pending) :
    step p c = (p.tokens ++ (step .none c).1, (step .none c).2) := by
  simp only [isSeparator, Bool.or_eq_true, decide_eq_true_eq] at h
  unfold step
  rw [if_neg hne, if_neg hne]
  rcases eq_or_ne c '!' with rfl | hbang
  · simp [Pending.tokens]
  · rw [if_neg hbang, if_neg hbang]
    cases hpunctuation : punctuation? c with
    | some t => simp [Pending.tokens]
    | none =>
      have hspace : isSpace c := by simpa [hne, hbang, hpunctuation] using h
      simp [hspace, Pending.tokens]

theorem step_letter (h : isSeparator c = false) (p : Pending) :
    step p c = match p with
      | .word text => ([], .word (text ++ [c]))
      | p => (p.tokens, .word [c]) := by
  simp only [isSeparator, Bool.or_eq_false_iff, decide_eq_false_iff_not,
    Option.isSome_eq_false_iff, Option.isNone_iff_eq_none] at h
  obtain ⟨⟨⟨hne, hbang⟩, hpunctuation⟩, hspace⟩ := h
  unfold step
  rw [if_neg hne, if_neg hbang, hpunctuation, hspace]
  cases p <;> rfl

/-- What ends a word. -/
def Ends (rest : List Char) : Prop := ∀ c ∈ rest.head?, isSeparator c ∧ c ≠ '='

theorem lexFrom_ends (h : Ends rest) (p : Pending) :
    lexFrom p rest = p.tokens ++ lexFrom .none rest := by
  cases rest with
  | nil => simp [lexFrom, Pending.tokens]
  | cons c cs =>
    obtain ⟨hc, hne⟩ := h c rfl
    rw [lexFrom, lexFrom, step_separator hc hne, List.append_assoc]

theorem lexFrom_word (hv : ∀ c ∈ v, isSeparator c = false) (w rest : List Char) :
    lexFrom (.word w) (v ++ rest) = lexFrom (.word (w ++ v)) rest := by
  induction v generalizing w with
  | nil => simp
  | cons c v ih =>
    obtain ⟨hc, hv⟩ := List.forall_mem_cons.mp hv
    rw [List.cons_append, lexFrom, step_letter hc, List.nil_append, ih hv, List.append_assoc,
      List.singleton_append]

theorem lexFrom_letters (hv : ∀ c ∈ v, isSeparator c = false) (hne : v ≠ [])
    (hp : ∀ text, p ≠ .word text) (rest : List Char) :
    lexFrom p (v ++ rest) = p.tokens ++ lexFrom (.word v) rest := by
  obtain ⟨c, v, rfl⟩ := List.exists_cons_of_ne_nil hne
  obtain ⟨hc, hv⟩ := List.forall_mem_cons.mp hv
  rw [List.cons_append, lexFrom, step_letter hc]
  cases p with
  | word text => exact absurd rfl (hp text)
  | none => exact congrArg _ (lexFrom_word hv [c] rest)
  | eq => exact congrArg _ (lexFrom_word hv [c] rest)
  | bang => exact congrArg _ (lexFrom_word hv [c] rest)

/-- An empty word leaves no token. -/
def wordTokens (text : String) : List Token := if text = "" then [] else [.word text]

theorem lexFrom_key {key : String} (h : Plain key) (hne : key ≠ "")
    (hp : ∀ text, p ≠ .word text) (rest : List Char) :
    lexFrom p (key.toList ++ rest) = p.tokens ++ lexFrom (.word key.toList) rest :=
  lexFrom_letters h (mt String.toList_eq_nil_iff.mp hne) hp rest

theorem join_singleton (value : String) : String.join [value] = value := by simp

theorem tokens_word (text : String) : (Pending.word text.toList).tokens = [.word text] := by
  rw [Pending.tokens, String.ofList_toList]

theorem lexFrom_plain {text : String} (h : Plain text) (hrest : Ends rest)
    (hp : ∀ text, p ≠ .word text) :
    lexFrom p (text.toList ++ rest) = p.tokens ++ (wordTokens text ++ lexFrom .none rest) := by
  rcases eq_or_ne text "" with rfl | hne
  · rw [String.toList_empty, List.nil_append, lexFrom_ends hrest]
    rfl
  · rw [lexFrom_key h hne hp, lexFrom_ends hrest, tokens_word, wordTokens, if_neg hne]

def listTokens : List String → List Token
  | [] => [.closePar]
  | [value] => wordTokens value ++ [.closePar]
  | value :: values => wordTokens value ++ .comma :: listTokens values

theorem lexFrom_list {values : List String} (h : ∀ value ∈ values, Plain value)
    (rest : List Char) :
    lexFrom .none ((", ".intercalate values).toList ++ ')' :: rest) =
      listTokens values ++ lexFrom .none rest := by
  have hpending : ∀ text, Pending.none ≠ .word text := by
    intro text heq
    cases heq
  induction values with
  | nil => rfl
  | cons value values ih =>
    obtain ⟨hvalue, hvalues⟩ := List.forall_mem_cons.mp h
    cases values with
    | nil =>
      rw [String.intercalate_singleton,
        lexFrom_plain hvalue (by simp [Ends, isSeparator, punctuation?]) hpending, listTokens,
        List.append_assoc]
      rfl
    | cons other values =>
      rw [String.intercalate_cons_cons, String.toList_append, String.toList_append,
        List.append_assoc, List.append_assoc]
      have hcomma : ", ".toList ++ ((", ".intercalate (other :: values)).toList ++ ')' :: rest) =
          ',' :: ' ' :: ((", ".intercalate (other :: values)).toList ++ ')' :: rest) := rfl
      rw [hcomma, lexFrom_plain hvalue (by simp [Ends, isSeparator, punctuation?]) hpending,
        listTokens, List.append_assoc]
      · exact congrArg (fun ts => wordTokens value ++ .comma :: ts) (ih hvalues)
      · exact fun heq => by cases heq

def Requirement.tokens (r : Requirement) : List Token :=
  match r.operator with
  | .eq => .word r.key :: .eq :: wordTokens (String.join r.values)
  | .ne => .word r.key :: .ne :: wordTokens (String.join r.values)
  | .gt => .word r.key :: .gt :: wordTokens (String.join r.values)
  | .lt => .word r.key :: .lt :: wordTokens (String.join r.values)
  | .isIn => .word r.key :: .word "in" :: .openPar :: listTokens r.values
  | .notIn => .word r.key :: .word "notin" :: .openPar :: listTokens r.values
  | .exist => [.word r.key]
  | .doesNotExist => [.bang, .word r.key]

section Print

variable {key : String} (hkey : Plain key) (hne : key ≠ "")
include hkey hne

theorem lexFrom_first_key (rest : List Char) :
    lexFrom .none (key.toList ++ rest) = lexFrom (.word key.toList) rest :=
  lexFrom_key hkey hne (fun text heq => by cases heq) rest

/-- A key, an operator of one or two letters and a value. -/
theorem lexFrom_exact {symbol : String} {values : List String} {token : Token} (ts : List Token)
    {q : Pending} (hvalues : ∀ value ∈ values, Plain value) (hone : ∃ value, values = [value])
    (hrest : Ends rest) (hq : ∀ text, q ≠ .word text) (htoken : ts ++ q.tokens = [token])
    (hsymbol : ∀ cs, lexFrom (.word key.toList) (symbol.toList ++ cs) =
      (Pending.word key.toList).tokens ++ (ts ++ lexFrom q cs)) :
    lexFrom .none ((key ++ symbol ++ String.join values).toList ++ rest) =
      .word key :: token :: wordTokens (String.join values) ++ lexFrom .none rest := by
  obtain ⟨value, rfl⟩ := hone
  have hvalue : Plain (String.join [value]) := by
    rw [join_singleton]
    exact hvalues value (List.mem_singleton_self value)
  rw [String.toList_append, String.toList_append, List.append_assoc, List.append_assoc,
    lexFrom_first_key hkey hne, hsymbol, lexFrom_plain hvalue hrest hq, tokens_word,
    ← List.append_assoc ts, htoken]
  simp only [List.cons_append, List.nil_append]

/-- A key, a word and a list of values. -/
theorem lexFrom_set {symbol word : String} {values : List String}
    (hvalues : ∀ value ∈ values, Plain value)
    (hsymbol : ∀ cs, lexFrom (.word key.toList) (symbol.toList ++ cs) =
      (Pending.word key.toList).tokens ++ (.word word :: .openPar :: lexFrom .none cs)) :
    lexFrom .none ((key ++ symbol ++ ", ".intercalate values ++ ")").toList ++ rest) =
      .word key :: .word word :: .openPar :: listTokens values ++ lexFrom .none rest := by
  have hclose : ")".toList ++ rest = ')' :: rest := rfl
  simp only [String.toList_append, List.append_assoc, hclose]
  rw [lexFrom_first_key hkey hne, hsymbol, lexFrom_list hvalues, tokens_word]
  simp

end Print

theorem lexFrom_print {r : Requirement} (h : r.Plain) (hrest : Ends rest) :
    lexFrom .none (r.print.toList ++ rest) = r.tokens ++ lexFrom .none rest := by
  obtain ⟨key, operator, values⟩ := r
  have hnone : ∀ text, Pending.none ≠ .word text := fun text heq => by cases heq
  have heq : ∀ text, Pending.eq ≠ .word text := fun text heq => by cases heq
  have hcount := h.count
  cases operator with
  -- a second `=` may still follow the first
  | eq => exact lexFrom_exact h.key h.key_ne [] h.values hcount hrest heq rfl fun _ => rfl
  | ne => exact lexFrom_exact h.key h.key_ne [.ne] h.values hcount hrest hnone rfl fun _ => rfl
  | gt => exact lexFrom_exact h.key h.key_ne [.gt] h.values hcount hrest hnone rfl fun _ => rfl
  | lt => exact lexFrom_exact h.key h.key_ne [.lt] h.values hcount hrest hnone rfl fun _ => rfl
  | isIn => exact lexFrom_set h.key h.key_ne h.values fun _ => rfl
  | notIn => exact lexFrom_set h.key h.key_ne h.values fun _ => rfl
  | exist =>
    simp only [Requirement.print, Requirement.tokens]
    rw [lexFrom_first_key h.key h.key_ne, lexFrom_ends hrest, tokens_word]
  | doesNotExist =>
    simp only [Requirement.print, Requirement.tokens, String.toList_append, List.append_assoc]
    change lexFrom .bang (key.toList ++ rest) = _
    rw [lexFrom_key h.key h.key_ne (fun text heq => by cases heq), lexFrom_ends hrest, tokens_word]
    rfl

def selectorTokens : List Requirement → List Token
  | [] => []
  | [r] => r.tokens
  | r :: rs => r.tokens ++ .comma :: selectorTokens rs

theorem lexFrom_selector {rs : List Requirement} (h : ∀ r ∈ rs, r.Plain) :
    lexFrom .none (",".intercalate (rs.map (·.print))).toList = selectorTokens rs := by
  induction rs with
  | nil => rfl
  | cons r rs ih =>
    obtain ⟨hr, hrs⟩ := List.forall_mem_cons.mp h
    cases rs with
    | nil =>
      rw [List.map_singleton, String.intercalate_singleton, ← List.append_nil r.print.toList,
        lexFrom_print hr (by simp [Ends])]
      exact List.append_nil _
    | cons s rs =>
      rw [List.map_cons, List.map_cons, String.intercalate_cons_cons, ← List.map_cons,
        String.toList_append, String.toList_append, List.append_assoc]
      have hcomma : ",".toList ++ (",".intercalate ((s :: rs).map (·.print))).toList =
          ',' :: (",".intercalate ((s :: rs).map (·.print))).toList := rfl
      rw [hcomma, lexFrom_print hr (by simp [Ends, isSeparator, punctuation?])]
      exact congrArg (fun ts => r.tokens ++ .comma :: ts) (ih hrs)

end Lexer

section Parser

theorem valueList_listTokens {values : List String} (hne : values ≠ []) (rest : List Token) :
    valueList (listTokens values ++ rest) = some (values, rest) := by
  induction values with
  | nil => exact absurd rfl hne
  | cons value values ih =>
    cases values with
    | nil =>
      rcases eq_or_ne value "" with rfl | hvalue
      · rfl
      · rw [listTokens, wordTokens, if_neg hvalue]
        rfl
    | cons other values =>
      have hrest := ih (List.cons_ne_nil _ _)
      rcases eq_or_ne value "" with rfl | hvalue
      · change (valueList (listTokens (other :: values) ++ rest)).map _ = _
        rw [hrest]
        rfl
      · rw [listTokens, wordTokens, if_neg hvalue]
        · change (valueList (listTokens (other :: values) ++ rest)).map _ = _
          rw [hrest]
          rfl
        · exact fun heq => by cases heq

/-- What may follow a requirement. -/
def Follows (rest : List Token) : Prop := ∀ t ∈ rest.head?, t = .comma

theorem exactValue_wordTokens (operator : Operator) (value : String) {rest : List Token}
    (h : Follows rest) :
    exactValue operator (wordTokens value ++ rest) = some (operator, [value], rest) := by
  rcases eq_or_ne value "" with rfl | hvalue
  · cases rest with
    | nil => rfl
    | cons t rest =>
      cases h t rfl
      rfl
  · rw [wordTokens, if_neg hvalue]
    rfl

section Requirement

variable {key : String} {values : List String} {operator : Operator} {rest : List Token}

theorem requirement_exact {symbol : Token}
    (hsymbol : ∀ ts, restriction (symbol :: ts) = exactValue operator ts)
    (hone : ∃ value, values = [value]) (hrest : Follows rest) :
    requirement (.word key :: symbol :: wordTokens (String.join values) ++ rest) =
      some (⟨key, operator, values⟩, rest) := by
  obtain ⟨value, rfl⟩ := hone
  change (restriction (symbol :: (wordTokens (String.join [value]) ++ rest))).map _ = _
  rw [hsymbol, join_singleton, exactValue_wordTokens _ _ hrest]
  rfl

theorem requirement_set {word : String}
    (hword : ∀ ts, restriction (.word word :: .openPar :: ts) =
      (valueList ts).map fun found => (operator, found.1, found.2)) (hne : values ≠ []) :
    requirement (.word key :: .word word :: .openPar :: listTokens values ++ rest) =
      some (⟨key, operator, values⟩, rest) := by
  change (restriction (.word word :: .openPar :: (listTokens values ++ rest))).map _ = _
  rw [hword, valueList_listTokens hne]
  rfl

end Requirement

theorem requirement_tokens {r : Requirement} (h : r.Plain) {rest : List Token}
    (hrest : Follows rest) : requirement (r.tokens ++ rest) = some (r, rest) := by
  obtain ⟨key, operator, values⟩ := r
  have hcount := h.count
  cases operator with
  | eq => exact requirement_exact (fun _ => rfl) hcount hrest
  | ne => exact requirement_exact (fun _ => rfl) hcount hrest
  | gt => exact requirement_exact (fun _ => rfl) hcount hrest
  | lt => exact requirement_exact (fun _ => rfl) hcount hrest
  | isIn => exact requirement_set (fun _ => rfl) hcount
  | notIn => exact requirement_set (fun _ => rfl) hcount
  | exist =>
    obtain rfl : values = [] := hcount
    cases rest with
    | nil => rfl
    | cons t rest =>
      cases hrest t rfl
      rfl
  | doesNotExist =>
    obtain rfl : values = [] := hcount
    rfl

theorem requirements_selectorTokens {rs : List Requirement} (h : ∀ r ∈ rs, r.Plain) (hne : rs ≠ [])
    {n : Nat} (hn : rs.length ≤ n) :
    requirements n (selectorTokens rs) = if rs.all (·.isValid) then some rs else none := by
  induction rs generalizing n with
  | nil => exact absurd rfl hne
  | cons r rs ih =>
    obtain ⟨hr, hrs⟩ := List.forall_mem_cons.mp h
    obtain ⟨n, rfl⟩ : ∃ m, n = m + 1 := Nat.exists_eq_succ_of_ne_zero (by simp at hn; omega)
    cases rs with
    | nil =>
      have hread : requirement (r.tokens ++ []) = some (r, []) :=
        requirement_tokens hr (by simp [Follows])
      rw [List.append_nil] at hread
      rw [requirements, selectorTokens, hread]
      simp
    | cons s rs =>
      have hrest := ih hrs (List.cons_ne_nil s rs) (n := n) (by simpa using hn)
      have hread : requirement (r.tokens ++ .comma :: selectorTokens (s :: rs)) =
          some (r, .comma :: selectorTokens (s :: rs)) := requirement_tokens hr (by simp [Follows])
      rw [requirements, selectorTokens, hread]
      · simp only [hrest]
        by_cases hvalid : r.isValid
        · by_cases hothers : (s :: rs).all (·.isValid)
          · simp [hvalid, hothers]
          · simp [hothers]
        · simp [hvalid]
      · exact fun heq => by cases heq

theorem length_le_selectorTokens (rs : List Requirement) :
    rs.length ≤ (selectorTokens rs).length := by
  have hpos : ∀ r : Requirement, 0 < r.tokens.length := by
    rintro ⟨key, operator, values⟩
    cases operator <;> simp [Requirement.tokens]
  induction rs with
  | nil => simp
  | cons r rs ih =>
    cases rs with
    | nil => exact hpos r
    | cons s rs =>
      have hr := hpos r
      have hlength : (selectorTokens (r :: s :: rs)).length =
          r.tokens.length + ((selectorTokens (s :: rs)).length + 1) := List.length_append
      rw [hlength, List.length_cons]
      omega

/-- Requirements without separators are read back, if their keys and values are legal. -/
theorem parse_print {rs : List Requirement} (h : ∀ r ∈ rs, r.Plain) :
    parse (",".intercalate (rs.map (·.print))) =
      if rs.all (·.isValid) then some rs else none := by
  rcases eq_or_ne rs [] with rfl | hne
  · rfl
  · have hlength := length_le_selectorTokens rs
    have htokens : selectorTokens rs ≠ [] := by
      intro heq
      rw [heq, List.length_nil, Nat.le_zero, List.length_eq_zero_iff] at hlength
      exact hne hlength
    obtain ⟨t, ts, hts⟩ := List.exists_cons_of_ne_nil htokens
    rw [← requirements_selectorTokens h hne hlength, parse, lexFrom_selector h, hts]

end Parser

section Fuel

theorem length_valueList {ts : List Token} {found : List String × List Token}
    (h : valueList ts = some found) : found.2.length < ts.length := by
  fun_induction valueList ts generalizing found with
  | case1 rest =>
    cases h
    simp
  | case2 rest ih =>
    obtain ⟨inner, hinner, rfl⟩ := Option.map_eq_some_iff.mp h
    exact (ih hinner).trans (by simp)
  | case3 text rest =>
    cases h
    simp
  | case4 text rest ih =>
    obtain ⟨inner, hinner, rfl⟩ := Option.map_eq_some_iff.mp h
    exact (ih hinner).trans (by simp)
  | case5 => cases h

theorem length_exactValue {operator : Operator} {ts : List Token}
    {found : Operator × List String × List Token} (h : exactValue operator ts = some found) :
    found.2.2.length ≤ ts.length := by
  unfold exactValue at h
  split at h
  · cases h
    simp
  · cases h
    simp
  · cases h
    simp
  · cases h

theorem length_restriction {ts : List Token} {found : Operator × List String × List Token}
    (h : restriction ts = some found) : found.2.2.length ≤ ts.length := by
  unfold restriction at h
  split at h
  · cases h
    simp
  · cases h
    simp
  · exact (length_exactValue h).trans (by simp)
  · exact (length_exactValue h).trans (by simp)
  · exact (length_exactValue h).trans (by simp)
  · exact (length_exactValue h).trans (by simp)
  · exact (length_exactValue h).trans (by simp)
  · split_ifs at h
    · obtain ⟨inner, hinner, rfl⟩ := Option.map_eq_some_iff.mp h
      exact (length_valueList hinner).le.trans (Nat.le_add_right _ 2)
    · obtain ⟨inner, hinner, rfl⟩ := Option.map_eq_some_iff.mp h
      exact (length_valueList hinner).le.trans (Nat.le_add_right _ 2)
  · cases h

theorem length_requirement {ts rest : List Token} {r : Requirement}
    (h : requirement ts = some (r, rest)) : rest.length < ts.length := by
  unfold requirement at h
  split at h
  · cases h
    simp
  · obtain ⟨found, hfound, heq⟩ := Option.map_eq_some_iff.mp h
    cases heq
    exact Nat.lt_succ_of_le (length_restriction hfound)
  · cases h

theorem requirements_nil (n : Nat) : requirements n [] = none := by
  cases n <;> rfl

/-- There is always fuel enough. -/
theorem requirements_eq {n m : Nat} {ts : List Token} (hn : ts.length ≤ n) (hm : ts.length ≤ m) :
    requirements n ts = requirements m ts := by
  induction n generalizing m ts with
  | zero => rw [List.length_eq_zero_iff.mp (Nat.le_zero.mp hn), requirements_nil, requirements_nil]
  | succ n ih =>
    rcases eq_or_ne ts [] with rfl | hne
    · rw [requirements_nil, requirements_nil]
    · have hpos := List.length_pos_iff.mpr hne
      obtain ⟨m, rfl⟩ : ∃ k, m = k + 1 := Nat.exists_eq_succ_of_ne_zero (by omega)
      rw [requirements, requirements]
      cases hread : requirement ts with
      | none => rfl
      | some found =>
        obtain ⟨r, rest⟩ := found
        have hshorter := length_requirement hread
        cases rest with
        | nil => rfl
        | cons t rest =>
          rw [List.length_cons] at hshorter
          have hrest : requirements n rest = requirements m rest := ih (by omega) (by omega)
          cases t <;> simp only [hrest]

end Fuel

section Legal

variable {c : Char} {cs : List Char}

def separators : List Char := ['=', '!', '(', ')', ',', '>', '<', ' ', '\t', '\r', '\n']

theorem mem_separators (h : isSeparator c) : c ∈ separators := by
  rw [separators]
  simp only [isSeparator, isSpace, Bool.or_eq_true, decide_eq_true_eq] at h
  rcases h with ((h | h) | h) | h
  · simp [h]
  · simp [h]
  · unfold punctuation? at h
    split at h <;> simp at h ⊢
  · simp only [or_assoc] at h
    rcases h with h | h | h | h <;> simp [h]

theorem isSeparator_eq_false {p : Char → Bool} (hp : separators.all (!p ·)) (h : p c) :
    isSeparator c = false := by
  by_contra hseparator
  have hnot := List.all_eq_true.mp hp c (mem_separators (by simpa using hseparator))
  rw [h] at hnot
  cases hnot

theorem isSeparator_of_isName (h : isName cs) (hc : c ∈ cs) : isSeparator c = false := by
  simp only [isName, Bool.and_eq_true] at h
  exact isSeparator_eq_false (by decide +kernel) (List.all_eq_true.mp h.1.1.2 c hc)

theorem mem_intercalate {x : Char} {parts : List (List Char)} (h : c ∈ [x].intercalate parts) :
    c = x ∨ ∃ part ∈ parts, c ∈ part := by
  induction parts with
  | nil => simp at h
  | cons part parts ih =>
    cases parts with
    | nil => exact .inr ⟨part, by simp, by simpa using h⟩
    | cons other parts =>
      rw [List.intercalate_cons_cons, List.mem_append, List.mem_append, List.mem_singleton] at h
      rcases h with (h | h) | h
      · exact .inr ⟨part, by simp, h⟩
      · exact .inl h
      · rcases ih h with hx | ⟨found, hfound, hc⟩
        · exact .inl hx
        · exact .inr ⟨found, List.mem_cons_of_mem _ hfound, hc⟩

theorem plain_of_isLabelValue {value : String} (h : isLabelValue value) : Plain value := by
  intro c hc
  rw [isLabelValue, Bool.or_eq_true] at h
  rcases h with hempty | hname
  · rw [List.isEmpty_iff.mp hempty] at hc
    cases hc
  · exact isSeparator_of_isName hname hc

theorem isSeparator_of_isDomain (h : (cs.splitOn '.').all isDnsLabel) (hc : c ∈ cs) :
    isSeparator c = false := by
  have hwhole : ['.'].intercalate (cs.splitOn '.') = cs := List.intercalate_splitOn '.'
  rw [← hwhole] at hc
  rcases mem_intercalate hc with rfl | ⟨part, hpart, hc⟩
  · decide
  · have hlabel := List.all_eq_true.mp h part hpart
    simp only [isDnsLabel, Bool.and_eq_true] at hlabel
    have hletters : separators.all (!(fun c : Char => c.isLower || c.isDigit || c = '-') ·) := by
      decide +kernel
    exact isSeparator_eq_false hletters (List.all_eq_true.mp hlabel.1.1 c hc)

theorem plain_of_isQualifiedName {key : String} (h : isQualifiedName key) :
    key ≠ "" ∧ Plain key := by
  constructor
  · rintro rfl
    revert h
    decide +kernel
  · intro c hc
    have hwhole : ['/'].intercalate (key.toList.splitOn '/') = key.toList :=
      List.intercalate_splitOn '/'
    rw [← hwhole] at hc
    unfold isQualifiedName at h
    split at h
    · next name hparts =>
      rw [hparts] at hc
      rcases mem_intercalate hc with rfl | ⟨part, hpart, hc⟩
      · decide
      · rw [List.mem_singleton.mp hpart] at hc
        exact isSeparator_of_isName h hc
    · next domain name hparts =>
      simp only [Bool.and_eq_true] at h
      rw [hparts] at hc
      rcases mem_intercalate hc with rfl | ⟨part, hpart, hmem⟩
      · decide
      · rcases List.mem_pair.mp hpart with rfl | rfl
        · exact isSeparator_of_isDomain h.1.2 hmem
        · exact isSeparator_of_isName h.2 hmem
    · cases h

end Legal

end Workflows.Selectors
