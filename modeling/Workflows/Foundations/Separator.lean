import Mathlib.Data.List.Basic
import Mathlib.Data.List.TakeDrop
import Mathlib.Tactic.SplitIfs

/-!
# Separators

What stands before the first place of a separator, and behind its last one, can be read back from
the whole; so can words that runs of separators stand between. A separator of several letters is
looked for as a word.
-/

namespace Workflows.Separator

universe u

variable {α : Type u} {x : α} {as bs us vs : List α}

theorem append_inj (has : x ∉ as) (hbs : x ∉ bs) (h : as ++ x :: us = bs ++ x :: vs) :
    as = bs ∧ us = vs := by
  induction as generalizing bs with
  | nil =>
    cases bs with
    | nil => exact ⟨rfl, (List.cons.inj h).2⟩
    | cons b bs => exact absurd (List.mem_cons.mpr (.inl (List.cons.inj h).1)) hbs
  | cons a as ih =>
    cases bs with
    | nil => exact absurd (List.mem_cons.mpr (.inl (List.cons.inj h).1.symm)) has
    | cons b bs =>
      obtain ⟨hfirst, hrest⟩ := List.cons.inj h
      obtain ⟨hbefore, hafter⟩ := ih (fun hx => has (List.mem_cons_of_mem a hx))
        (fun hx => hbs (List.mem_cons_of_mem b hx)) hrest
      exact ⟨by rw [hfirst, hbefore], hafter⟩

theorem append_inj_last (hus : x ∉ us) (hvs : x ∉ vs) (h : as ++ x :: us = bs ++ x :: vs) :
    as = bs ∧ us = vs := by
  have hreverse : us.reverse ++ x :: as.reverse = vs.reverse ++ x :: bs.reverse := by
    simpa using congrArg List.reverse h
  obtain ⟨hafter, hbefore⟩ := append_inj (by simpa using hus) (by simpa using hvs) hreverse
  exact ⟨List.reverse_injective hbefore, List.reverse_injective hafter⟩

theorem span_append [DecidableEq α] (has : x ∉ as) :
    (as ++ x :: us).span (· ≠ x) = (as, x :: us) := by
  have hall : ∀ a ∈ as, decide (a ≠ x) = true := by
    intro a ha
    exact decide_eq_true (ne_of_mem_of_not_mem ha has)
  rw [List.span_eq_takeWhile_dropWhile, List.takeWhile_append_of_pos hall,
    List.dropWhile_append_of_pos hall]
  simp

section Runs

variable {p : α → Bool} {word run rest : List α}

/-- The pieces between runs of separators. -/
def splitRuns (p : α → Bool) : List α → List (List α)
  | [] => [[]]
  | a :: as =>
    if p a then
      if as.head?.any p then splitRuns p as else [] :: splitRuns p as
    else
      match splitRuns p as with
      | [] => [[a]]
      | piece :: pieces => (a :: piece) :: pieces

theorem not_of_mem_splitRuns {piece : List α} (h : piece ∈ splitRuns p as) :
    ∀ a ∈ piece, p a = false := by
  induction as generalizing piece with
  | nil =>
    obtain rfl := List.mem_singleton.mp h
    simp
  | cons a as ih =>
    rw [splitRuns] at h
    split_ifs at h with hsep hrun
    · exact ih h
    · obtain rfl | h := List.mem_cons.mp h
      · simp
      · exact ih h
    · have ha : p a = false := Bool.eq_false_iff.mpr hsep
      cases hpieces : splitRuns p as with
      | nil =>
        rw [hpieces] at h
        obtain rfl := List.mem_singleton.mp h
        simpa using ha
      | cons first pieces =>
        rw [hpieces] at h ih
        obtain rfl | h := List.mem_cons.mp h
        · exact List.forall_mem_cons.mpr ⟨ha, ih List.mem_cons_self⟩
        · exact ih (List.mem_cons_of_mem first h)

theorem mem_of_mem_splitRuns {piece : List α} (h : piece ∈ splitRuns p as) :
    ∀ a ∈ piece, a ∈ as := by
  induction as generalizing piece with
  | nil =>
    obtain rfl := List.mem_singleton.mp h
    simp
  | cons a as ih =>
    rw [splitRuns] at h
    split_ifs at h with hsep hrun
    · exact fun b hb => List.mem_cons_of_mem a (ih h b hb)
    · obtain rfl | h := List.mem_cons.mp h
      · simp
      · exact fun b hb => List.mem_cons_of_mem a (ih h b hb)
    · cases hpieces : splitRuns p as with
      | nil =>
        rw [hpieces] at h
        obtain rfl := List.mem_singleton.mp h
        simp
      | cons first pieces =>
        rw [hpieces] at h ih
        obtain rfl | h := List.mem_cons.mp h
        · exact List.forall_mem_cons.mpr ⟨List.mem_cons_self, fun b hb =>
            List.mem_cons_of_mem a (ih List.mem_cons_self b hb)⟩
        · exact fun b hb => List.mem_cons_of_mem a (ih (List.mem_cons_of_mem first h) b hb)

theorem splitRuns_of_not (hword : ∀ a ∈ word, p a = false) : splitRuns p word = [word] := by
  induction word with
  | nil => rfl
  | cons a word ih =>
    obtain ⟨ha, hword⟩ := List.forall_mem_cons.mp hword
    rw [splitRuns, ha, ih hword]
    rfl

theorem splitRuns_run (hne : run ≠ []) (hrun : ∀ a ∈ run, p a)
    (hrest : ∀ a ∈ rest.head?, p a = false) :
    splitRuns p (run ++ rest) = [] :: splitRuns p rest := by
  induction run with
  | nil => exact absurd rfl hne
  | cons a run ih =>
    obtain ⟨ha, hrun⟩ := List.forall_mem_cons.mp hrun
    rw [List.cons_append, splitRuns, if_pos ha]
    cases run with
    | nil =>
      have hnone : rest.head?.any p = false := by
        cases rest with
        | nil => rfl
        | cons b rest => exact hrest b rfl
      rw [List.nil_append, hnone, if_neg Bool.false_ne_true]
    | cons b run =>
      rw [if_pos (by simpa using hrun b List.mem_cons_self)]
      exact ih (by simp) hrun

theorem splitRuns_append (hword : ∀ a ∈ word, p a = false) (hne : run ≠ [])
    (hrun : ∀ a ∈ run, p a) (hrest : ∀ a ∈ rest.head?, p a = false) :
    splitRuns p (word ++ (run ++ rest)) = word :: splitRuns p rest := by
  induction word with
  | nil => exact splitRuns_run hne hrun hrest
  | cons a word ih =>
    obtain ⟨ha, hword⟩ := List.forall_mem_cons.mp hword
    rw [List.cons_append, splitRuns, ha, ih hword]
    rfl

theorem mem_of_mem_intercalate {words : List (List α)} {a : α} (h : a ∈ run.intercalate words) :
    a ∈ run ∨ ∃ word ∈ words, a ∈ word := by
  induction words with
  | nil => simp at h
  | cons word words ih =>
    cases words with
    | nil =>
      rw [List.intercalate_singleton] at h
      exact .inr ⟨word, List.mem_cons_self, h⟩
    | cons next words =>
      rw [List.intercalate_cons_cons, List.append_assoc, List.mem_append, List.mem_append] at h
      obtain h | h | h := h
      · exact .inr ⟨word, List.mem_cons_self, h⟩
      · exact .inl h
      · exact (ih h).imp id fun ⟨w, hw, ha⟩ => ⟨w, List.mem_cons_of_mem word hw, ha⟩

theorem splitRuns_intercalate {words : List (List α)} (hne : words ≠ [])
    (hwords : ∀ word ∈ words, word ≠ [] ∧ ∀ a ∈ word, p a = false) (hrun_ne : run ≠ [])
    (hrun : ∀ a ∈ run, p a) : splitRuns p (run.intercalate words) = words := by
  induction words with
  | nil => exact absurd rfl hne
  | cons word words ih =>
    obtain ⟨⟨-, hword⟩, hwords⟩ := List.forall_mem_cons.mp hwords
    cases words with
    | nil =>
      rw [List.intercalate_singleton]
      exact splitRuns_of_not hword
    | cons next words =>
      have hhead : ∀ a ∈ (run.intercalate (next :: words)).head?, p a = false := by
        obtain ⟨⟨hnext_ne, hnext⟩, -⟩ := List.forall_mem_cons.mp hwords
        obtain ⟨b, next, rfl⟩ := List.exists_cons_of_ne_nil hnext_ne
        rw [List.intercalate_cons_cons_left]
        rintro a ha
        obtain rfl := Option.some_inj.mp ha
        exact hnext b List.mem_cons_self
      rw [List.intercalate_cons_cons, List.append_assoc, splitRuns_append hword hrun_ne hrun hhead,
        ih (by simp) hwords]

end Runs

section Words

variable [DecidableEq α] {sep : List α} {k : Nat}

def splitFrom (sep : List α) : Nat → List α → List (List α)
  | _, [] => [[]]
  | k + 1, _ :: as => splitFrom sep k as
  | 0, a :: as =>
    if sep.isPrefixOf (a :: as) then [] :: splitFrom sep (sep.length - 1) as
    else (splitFrom sep 0 as).modifyHead (a :: ·)

/-- The pieces between the places of a word, each place looked for behind the one before. -/
def splitWord (sep as : List α) : List (List α) := splitFrom sep 0 as

theorem splitFrom_ne_nil (sep : List α) (k : Nat) (as : List α) : splitFrom sep k as ≠ [] := by
  induction as generalizing k with
  | nil => cases k <;> exact List.cons_ne_nil _ _
  | cons a as ih =>
    cases k with
    | succ k => exact ih k
    | zero =>
      rw [splitFrom]
      split_ifs
      · exact List.cons_ne_nil _ _
      · exact mt List.modifyHead_eq_nil_iff.mp (ih 0)

omit [DecidableEq α] in
theorem prefix_append_cons_iff (hx : x ∉ sep) : sep <+: as ++ x :: us ↔ sep <+: as := by
  refine ⟨fun h => ?_, fun h => h.trans (List.prefix_append as _)⟩
  obtain h | ⟨back, rfl⟩ := List.prefix_or_prefix_of_prefix h (List.prefix_append as (x :: us))
  · exact h
  · cases back with
    | nil => simp
    | cons b back =>
      obtain rfl : b = x := (List.cons_prefix_cons.mp ((List.prefix_append_right_inj as).mp h)).1
      exact absurd (List.mem_append_right as List.mem_cons_self) hx

omit [DecidableEq α] in
theorem infix_append_cons_iff (hx : x ∉ sep) :
    sep <:+: as ++ x :: us ↔ sep <:+: as ∨ sep <:+: us := by
  constructor
  · rintro ⟨front, back, heq⟩
    rw [List.append_assoc] at heq
    obtain ⟨mid, hfront, hback⟩ | ⟨mid, rfl, hmid⟩ := List.append_eq_append_iff.mp heq
    · have hprefix : sep <+: mid ++ x :: us := ⟨back, hback⟩
      obtain ⟨rest, rfl⟩ := (prefix_append_cons_iff hx).mp hprefix
      exact .inl ⟨front, rest, by rw [List.append_assoc, ← hfront]⟩
    · cases mid with
      | nil =>
        have hprefix : sep <+: [] ++ x :: us := ⟨back, by simpa using hmid.symm⟩
        obtain ⟨rest, hrest⟩ := (prefix_append_cons_iff hx).mp hprefix
        exact .inl ⟨as, [], by simp [(List.append_eq_nil_iff.mp hrest).1]⟩
      | cons y mid =>
        obtain ⟨-, rfl⟩ := List.cons.inj hmid
        exact .inr ⟨mid, back, List.append_assoc ..⟩
  · rintro (h | h)
    · exact h.trans (List.prefix_append as _).isInfix
    · exact h.trans ⟨as ++ [x], [], by simp⟩

theorem splitFrom_length_append (as us : List α) :
    splitFrom sep as.length (as ++ us) = splitFrom sep 0 us := by
  induction as with
  | nil => rfl
  | cons a as ih => exact ih

theorem splitWord_append (hsep : sep ≠ []) (as : List α) :
    splitWord sep (sep ++ as) = [] :: splitWord sep as := by
  obtain ⟨a, rest, rfl⟩ := List.exists_cons_of_ne_nil hsep
  rw [splitWord, List.cons_append, splitFrom, if_pos]
  · exact congrArg ([] :: ·) (splitFrom_length_append rest as)
  · exact List.isPrefixOf_iff_prefix.mpr (List.prefix_append (a :: rest) as)

theorem isPrefixOf_append_cons_iff (hx : x ∉ sep) :
    sep.isPrefixOf (as ++ x :: us) ↔ sep.isPrefixOf as := by
  rw [List.isPrefixOf_iff_prefix, List.isPrefixOf_iff_prefix, prefix_append_cons_iff hx]

theorem not_isPrefixOf_cons (hx : x ∉ sep) (hsep : sep ≠ []) (as : List α) :
    ¬sep.isPrefixOf (x :: as) := by
  intro h
  have hiff : sep.isPrefixOf ([] ++ x :: as) ↔ sep.isPrefixOf [] := isPrefixOf_append_cons_iff hx
  have hnil := hiff.mp h
  exact hsep (List.prefix_nil.mp (List.isPrefixOf_iff_prefix.mp hnil))

theorem splitFrom_append_cons (hx : x ∉ sep) (hsep : sep ≠ []) (hk : k ≤ us.length) :
    splitFrom sep k (us ++ x :: (sep ++ as)) = splitFrom sep k (us ++ [x]) ++ splitWord sep as := by
  induction us generalizing k with
  | nil =>
    obtain rfl := Nat.le_zero.mp hk
    have hword : splitFrom sep 0 (sep ++ as) = [] :: splitWord sep as := splitWord_append hsep as
    rw [List.nil_append, List.nil_append, splitFrom, if_neg (not_isPrefixOf_cons hx hsep _),
      splitFrom, if_neg (not_isPrefixOf_cons hx hsep _), hword]
    rfl
  | cons u us ih =>
    cases k with
    | succ k => exact ih (Nat.le_of_succ_le_succ hk)
    | zero =>
      have hiff : ∀ rest, sep.isPrefixOf ((u :: us) ++ x :: rest) ↔ sep.isPrefixOf (u :: us) :=
        fun rest => isPrefixOf_append_cons_iff hx
      simp only [List.cons_append] at hiff
      rw [List.cons_append, List.cons_append, splitFrom, splitFrom]
      simp only [hiff]
      split_ifs with h
      · have hlength : sep.length ≤ us.length + 1 := (List.isPrefixOf_iff_prefix.mp h).length_le
        rw [ih (Nat.sub_le_of_le_add hlength), List.cons_append]
      · rw [ih (Nat.zero_le _)]
        obtain ⟨piece, pieces, heq⟩ :=
          List.exists_cons_of_ne_nil (splitFrom_ne_nil sep 0 (us ++ [x]))
        rw [heq]
        rfl

theorem splitWord_eq_singleton (h : ¬sep <:+: as) : splitWord sep as = [as] := by
  induction as with
  | nil => rfl
  | cons a as ih =>
    have hprefix : ¬sep.isPrefixOf (a :: as) := fun hp =>
      h (List.isPrefixOf_iff_prefix.mp hp).isInfix
    have htail : ¬sep <:+: as := fun hi => h (hi.trans (List.suffix_cons a as).isInfix)
    have hrest : splitFrom sep 0 as = [as] := ih htail
    rw [splitWord, splitFrom, if_neg hprefix, hrest]
    rfl

theorem length_splitWord_of_infix (hsep : sep ≠ []) (h : sep <:+: as) :
    2 ≤ (splitWord sep as).length := by
  induction as with
  | nil => exact absurd (List.infix_nil.mp h) hsep
  | cons a as ih =>
    rw [splitWord, splitFrom]
    split_ifs with hprefix
    · have := List.length_pos_of_ne_nil (splitFrom_ne_nil sep (sep.length - 1) as)
      rw [List.length_cons]
      omega
    · have htail : sep <:+: as :=
        (List.infix_cons_iff.mp h).resolve_left (mt List.isPrefixOf_iff_prefix.mpr hprefix)
      rw [List.length_modifyHead]
      exact ih htail

theorem splitWord_cons (hx : x ∉ sep) (hsep : sep ≠ []) (as : List α) :
    splitWord sep (x :: as) = (splitWord sep as).modifyHead (x :: ·) := by
  rw [splitWord, splitFrom, if_neg (not_isPrefixOf_cons hx hsep as)]
  rfl

theorem exists_splitFrom_concat (hx : x ∉ sep) (hsep : sep ≠ []) (hk : k ≤ as.length) :
    ∃ front piece, splitFrom sep k as = front ++ [piece] ∧
      splitFrom sep k (as ++ [x]) = front ++ [piece ++ [x]] := by
  induction as generalizing k with
  | nil =>
    obtain rfl := Nat.le_zero.mp hk
    refine ⟨[], [], rfl, ?_⟩
    rw [List.nil_append, splitFrom, if_neg (not_isPrefixOf_cons hx hsep _)]
    rfl
  | cons a as ih =>
    cases k with
    | succ k => exact ih (Nat.le_of_succ_le_succ hk)
    | zero =>
      have hiff : sep.isPrefixOf ((a :: as) ++ [x]) ↔ sep.isPrefixOf (a :: as) :=
        isPrefixOf_append_cons_iff hx
      rw [List.cons_append] at hiff
      rw [List.cons_append, splitFrom, splitFrom]
      simp only [hiff]
      split_ifs with h
      · have hlength : sep.length ≤ as.length + 1 := (List.isPrefixOf_iff_prefix.mp h).length_le
        obtain ⟨front, piece, heq, hconcat⟩ := ih (Nat.sub_le_of_le_add hlength)
        exact ⟨[] :: front, piece, congrArg ([] :: ·) heq, congrArg ([] :: ·) hconcat⟩
      · obtain ⟨front, piece, heq, hconcat⟩ := ih (Nat.zero_le _)
        rw [heq, hconcat]
        cases front with
        | nil => exact ⟨[], a :: piece, rfl, rfl⟩
        | cons first front => exact ⟨(a :: first) :: front, piece, rfl, rfl⟩

/-- A word between two letters that it does not have leaves something on either side. -/
theorem two_le_length_filter_splitWord (hx : x ∉ sep) (hsep : sep ≠ []) (h : sep <:+: as) :
    2 ≤ ((splitWord sep (x :: (as ++ [x]))).filter (· ≠ [])).length := by
  obtain ⟨front, piece, heq, hconcat⟩ := exists_splitFrom_concat hx hsep (Nat.zero_le as.length)
  have hlength := length_splitWord_of_infix hsep h
  rw [splitWord, heq] at hlength
  rw [splitWord_cons hx hsep, splitWord, hconcat]
  cases front with
  | nil => simp at hlength
  | cons first front => simp

theorem not_isPrefixOf_append {bs : List α} {a : α}
    (h : ¬sep <:+: a :: (as ++ sep.dropLast)) : ¬sep.isPrefixOf (a :: (as ++ (sep ++ bs))) := by
  intro hprefix
  have hle : sep.length ≤ (a :: (as ++ sep.dropLast)).length := by
    simp only [List.length_cons, List.length_append, List.length_dropLast]
    omega
  have hfront : a :: (as ++ sep.dropLast) <+: a :: (as ++ (sep ++ bs)) := by
    refine List.cons_prefix_cons.mpr ⟨rfl, (List.prefix_append_right_inj as).mpr ?_⟩
    exact (List.dropLast_prefix sep).trans (List.prefix_append sep bs)
  have hsep := List.isPrefixOf_iff_prefix.mp hprefix
  exact h (List.prefix_of_prefix_length_le hsep hfront hle).isInfix

/-- A piece ends at the first place of the word. -/
theorem splitWord_append_word (hsep : sep ≠ []) {bs : List α} (h : ¬sep <:+: as ++ sep.dropLast) :
    splitWord sep (as ++ (sep ++ bs)) = as :: splitWord sep bs := by
  induction as with
  | nil => exact splitWord_append hsep bs
  | cons a as ih =>
    have htail : ¬sep <:+: as ++ sep.dropLast := fun hi => h (hi.trans (List.suffix_cons a _).isInfix)
    have hrest : splitFrom sep 0 (as ++ (sep ++ bs)) = as :: splitFrom sep 0 bs := ih htail
    rw [List.cons_append] at h
    rw [splitWord, List.cons_append, splitFrom, if_neg (not_isPrefixOf_append h), hrest]
    rfl

theorem splitWord_intercalate (hsep : sep ≠ []) {words : List (List α)} (hne : words ≠ [])
    (hwords : ∀ word ∈ words, ¬sep <:+: word ++ sep.dropLast) :
    splitWord sep (sep.intercalate words) = words := by
  induction words with
  | nil => exact absurd rfl hne
  | cons word words ih =>
    obtain ⟨hword, hwords⟩ := List.forall_mem_cons.mp hwords
    cases words with
    | nil =>
      rw [List.intercalate_singleton]
      exact splitWord_eq_singleton fun h => hword (h.trans (List.prefix_append _ _).isInfix)
    | cons next words =>
      rw [List.intercalate_cons_cons, List.append_assoc, splitWord_append_word hsep hword,
        ih (by simp) hwords]

theorem exists_splitFrom_zero (sep as : List α) :
    ∃ piece pieces, splitFrom sep 0 as = piece :: pieces ∧ piece <+: as := by
  induction as with
  | nil => exact ⟨[], [], rfl, List.prefix_rfl⟩
  | cons a as ih =>
    rw [splitFrom]
    split_ifs
    · exact ⟨[], _, rfl, List.nil_prefix⟩
    · obtain ⟨piece, pieces, heq, hprefix⟩ := ih
      exact ⟨a :: piece, pieces, by rw [heq]; rfl, List.cons_prefix_cons.mpr ⟨rfl, hprefix⟩⟩

theorem not_infix_of_mem_splitFrom (hsep : sep ≠ []) {piece : List α}
    (h : piece ∈ splitFrom sep k as) : ¬sep <:+: piece := by
  have hnil : ¬sep <:+: [] := mt List.infix_nil.mp hsep
  induction as generalizing k piece with
  | nil =>
    have hmem : piece ∈ [[]] := by
      cases k <;> exact h
    rw [List.mem_singleton.mp hmem]
    exact hnil
  | cons a as ih =>
    cases k with
    | succ k => exact ih h
    | zero =>
      rw [splitFrom] at h
      split_ifs at h with hprefix
      · obtain rfl | h := List.mem_cons.mp h
        · exact hnil
        · exact ih h
      · obtain ⟨first, pieces, heq, hfirst⟩ := exists_splitFrom_zero sep as
        rw [heq] at h
        obtain rfl | h := List.mem_cons.mp h
        · intro hinfix
          obtain hsep | hinfix := List.infix_cons_iff.mp hinfix
          · have hall := hsep.trans (List.cons_prefix_cons.mpr ⟨rfl, hfirst⟩)
            exact hprefix (List.isPrefixOf_iff_prefix.mpr hall)
          · exact ih (heq ▸ List.mem_cons_self) hinfix
        · exact ih (heq ▸ List.mem_cons_of_mem first h)

theorem not_infix_of_mem_splitWord (hsep : sep ≠ []) {piece : List α}
    (h : piece ∈ splitWord sep as) : ¬sep <:+: piece :=
  not_infix_of_mem_splitFrom hsep h

theorem mem_of_mem_splitFrom {piece : List α} (h : piece ∈ splitFrom sep k as) :
    ∀ a ∈ piece, a ∈ as := by
  induction as generalizing k piece with
  | nil =>
    have hmem : piece ∈ [[]] := by
      cases k <;> exact h
    rw [List.mem_singleton.mp hmem]
    simp
  | cons a as ih =>
    cases k with
    | succ k => exact fun b hb => List.mem_cons_of_mem a (ih h b hb)
    | zero =>
      rw [splitFrom] at h
      split_ifs at h
      · obtain rfl | h := List.mem_cons.mp h
        · simp
        · exact fun b hb => List.mem_cons_of_mem a (ih h b hb)
      · obtain ⟨first, pieces, heq, -⟩ := exists_splitFrom_zero sep as
        rw [heq] at h
        obtain rfl | h := List.mem_cons.mp h
        · refine List.forall_mem_cons.mpr ⟨List.mem_cons_self, fun b hb => ?_⟩
          exact List.mem_cons_of_mem a (ih (heq ▸ List.mem_cons_self) b hb)
        · exact fun b hb => List.mem_cons_of_mem a (ih (heq ▸ List.mem_cons_of_mem first h) b hb)

theorem mem_of_mem_splitWord {piece : List α} (h : piece ∈ splitWord sep as) :
    ∀ a ∈ piece, a ∈ as :=
  mem_of_mem_splitFrom h

end Words

end Workflows.Separator
