import Mathlib.Computability.Language
import Mathlib.Data.List.TakeWhile
import Mathlib.Tactic.Cases

/-!
# Regular expressions over classes of letters

A letter of an expression is a test, so that a class such as `\d` needs no list of its members. The
matcher takes derivatives; an expression anchored at the start and open at the end is looked for
among the prefixes of a word.
-/

namespace Workflows

open Computability

universe u

inductive Regex (α : Type u) where
  | eps
  | cls (p : α → Bool)
  | seq (r s : Regex α)
  | alt (r s : Regex α)
  | star (r : Regex α)

namespace Regex

variable {α : Type u}

def lang : Regex α → Language α
  | .eps => 1
  | .cls p => {w | ∃ a, p a ∧ w = [a]}
  | .seq r s => r.lang * s.lang
  | .alt r s => r.lang + s.lang
  | .star r => r.lang∗

def plus (r : Regex α) : Regex α := .seq r (.star r)

def opt (r : Regex α) : Regex α := .alt r .eps

def word [DecidableEq α] : List α → Regex α
  | [] => .eps
  | a :: w => .seq (.cls (· = a)) (word w)

@[simp] theorem mem_lang_eps {w : List α} : w ∈ (eps : Regex α).lang ↔ w = [] := Iff.rfl

@[simp] theorem mem_lang_cls {p : α → Bool} {w : List α} :
    w ∈ (cls p).lang ↔ ∃ a, p a ∧ w = [a] := Iff.rfl

@[simp] theorem mem_lang_seq {r s : Regex α} {w : List α} :
    w ∈ (seq r s).lang ↔ ∃ u ∈ r.lang, ∃ v ∈ s.lang, u ++ v = w :=
  Language.mem_mul

@[simp] theorem mem_lang_alt {r s : Regex α} {w : List α} :
    w ∈ (alt r s).lang ↔ w ∈ r.lang ∨ w ∈ s.lang := Iff.rfl

theorem mem_lang_star {r : Regex α} {w : List α} : w ∈ (star r).lang ↔ w ∈ r.lang∗ := Iff.rfl

@[simp] theorem mem_lang_opt {r : Regex α} {w : List α} :
    w ∈ (opt r).lang ↔ w ∈ r.lang ∨ w = [] := Iff.rfl

@[simp] theorem mem_lang_word [DecidableEq α] {v w : List α} : w ∈ (word v).lang ↔ w = v := by
  induction v generalizing w with
  | nil => rfl
  | cons a v ih =>
    rw [word, mem_lang_seq]
    constructor
    · rintro ⟨u, ⟨b, hb, rfl⟩, x, hx, rfl⟩
      rw [ih.mp hx, of_decide_eq_true hb]
      rfl
    · rintro rfl
      exact ⟨[a], ⟨a, by simp, rfl⟩, v, ih.mpr rfl, rfl⟩

theorem mem_lang_star_cls {p : α → Bool} {w : List α} :
    w ∈ (star (cls p)).lang ↔ ∀ a ∈ w, p a := by
  constructor
  · rintro ⟨blocks, rfl, hblocks⟩ a ha
    obtain ⟨block, hblock, hmem⟩ := List.mem_flatten.mp ha
    obtain ⟨b, hb, rfl⟩ := hblocks block hblock
    exact List.mem_singleton.mp hmem ▸ hb
  · intro hall
    refine ⟨w.map fun a => [a], ?_, fun block hblock => ?_⟩
    · rw [← List.flatMap_def, List.flatMap_singleton']
    · obtain ⟨a, ha, rfl⟩ := List.mem_map.mp hblock
      exact ⟨a, hall a ha, rfl⟩

/-- One or more letters of a class. -/
theorem mem_lang_plus_cls {p : α → Bool} {w : List α} :
    w ∈ (plus (cls p)).lang ↔ w ≠ [] ∧ ∀ a ∈ w, p a := by
  rw [plus, mem_lang_seq]
  constructor
  · rintro ⟨u, ⟨a, ha, rfl⟩, v, hv, rfl⟩
    refine ⟨by simp, ?_⟩
    exact List.forall_mem_cons.mpr ⟨ha, mem_lang_star_cls.mp hv⟩
  · rintro ⟨hne, hall⟩
    obtain ⟨a, v, rfl⟩ := List.exists_cons_of_ne_nil hne
    obtain ⟨ha, hv⟩ := List.forall_mem_cons.mp hall
    exact ⟨[a], ⟨a, ha, rfl⟩, v, mem_lang_star_cls.mpr hv, rfl⟩

section Derivative

def nullable : Regex α → Bool
  | .eps => true
  | .cls _ => false
  | .seq r s => r.nullable && s.nullable
  | .alt r s => r.nullable || s.nullable
  | .star _ => true

def deriv (a : α) : Regex α → Regex α
  | .eps => .cls fun _ => false
  | .cls p => if p a then .eps else .cls fun _ => false
  | .seq r s =>
    if r.nullable then .alt (.seq (r.deriv a) s) (s.deriv a) else .seq (r.deriv a) s
  | .alt r s => .alt (r.deriv a) (s.deriv a)
  | .star r => .seq (r.deriv a) (.star r)

theorem nullable_iff {r : Regex α} : r.nullable ↔ [] ∈ r.lang := by
  induction r with
  | eps => simp [nullable]
  | cls p => simp [nullable]
  | seq r s ihr ihs =>
    rw [nullable, Bool.and_eq_true, ihr, ihs, mem_lang_seq]
    constructor
    · rintro ⟨hr, hs⟩
      exact ⟨[], hr, [], hs, rfl⟩
    · rintro ⟨u, hu, v, hv, huv⟩
      obtain ⟨rfl, rfl⟩ := List.append_eq_nil_iff.mp huv
      exact ⟨hu, hv⟩
  | alt r s ihr ihs => rw [nullable, Bool.or_eq_true, ihr, ihs, mem_lang_alt]
  | star r ih => exact iff_of_true rfl (Language.nil_mem_kstar _)

theorem cons_mem_kstar_iff {l : Language α} {a : α} {w : List α} :
    a :: w ∈ l∗ ↔ ∃ u v, a :: u ∈ l ∧ v ∈ l∗ ∧ u ++ v = w := by
  constructor
  · intro h
    obtain ⟨blocks, hflatten, hblocks⟩ := Language.mem_kstar_iff_exists_nonempty.mp h
    cases blocks with
    | nil => cases hflatten
    | cons block blocks =>
      obtain ⟨⟨hblock, hne⟩, hrest⟩ := List.forall_mem_cons.mp hblocks
      obtain ⟨b, u, rfl⟩ := List.exists_cons_of_ne_nil hne
      obtain ⟨rfl, rfl⟩ := List.cons.inj hflatten
      exact ⟨u, blocks.flatten, hblock, Language.join_mem_kstar fun y hy => (hrest y hy).1, rfl⟩
  · rintro ⟨u, v, hu, ⟨blocks, rfl, hblocks⟩, rfl⟩
    exact ⟨(a :: u) :: blocks, rfl, List.forall_mem_cons.mpr ⟨hu, hblocks⟩⟩

theorem mem_lang_deriv {a : α} {r : Regex α} {w : List α} :
    w ∈ (r.deriv a).lang ↔ a :: w ∈ r.lang := by
  induction r generalizing w with
  | eps => simp [deriv]
  | cls p =>
    by_cases hp : p a
    · simp [deriv, hp]
    · simp [deriv, hp]
  | seq r s ihr ihs =>
    have hfirst : (∃ u ∈ (r.deriv a).lang, ∃ v ∈ s.lang, u ++ v = w) ↔
        ∃ u, a :: u ∈ r.lang ∧ ∃ v ∈ s.lang, u ++ v = w :=
      exists_congr fun u => and_congr_left fun _ => ihr
    have hsplit : a :: w ∈ (seq r s).lang ↔
        ([] ∈ r.lang ∧ a :: w ∈ s.lang) ∨ ∃ u, a :: u ∈ r.lang ∧ ∃ v ∈ s.lang, u ++ v = w := by
      rw [mem_lang_seq]
      constructor
      · rintro ⟨u, hu, v, hv, huv⟩
        cases u with
        | nil =>
          rw [List.nil_append] at huv
          exact .inl ⟨hu, huv ▸ hv⟩
        | cons b u =>
          obtain ⟨rfl, rfl⟩ := List.cons.inj huv
          exact .inr ⟨u, hu, v, hv, rfl⟩
      · rintro (⟨hr, hs⟩ | ⟨u, hu, v, hv, rfl⟩)
        · exact ⟨[], hr, a :: w, hs, rfl⟩
        · exact ⟨a :: u, hu, v, hv, rfl⟩
    rw [hsplit, deriv]
    split
    next hnull =>
      rw [mem_lang_alt, mem_lang_seq, hfirst, ihs, or_comm, ← nullable_iff]
      simp [hnull]
    next hnull =>
      rw [mem_lang_seq, hfirst, ← nullable_iff]
      simp [hnull]
  | alt r s ihr ihs => rw [deriv, mem_lang_alt, mem_lang_alt, ihr, ihs]
  | star r ih =>
    rw [deriv, mem_lang_seq, mem_lang_star, cons_mem_kstar_iff]
    constructor
    · rintro ⟨u, hu, v, hv, huv⟩
      exact ⟨u, v, ih.mp hu, hv, huv⟩
    · rintro ⟨u, v, hu, hv, huv⟩
      exact ⟨u, ih.mpr hu, v, hv, huv⟩

end Derivative

section Search

def accepts : Regex α → List α → Bool
  | r, [] => r.nullable
  | r, a :: w => (r.deriv a).accepts w

theorem accepts_iff {r : Regex α} {w : List α} : r.accepts w ↔ w ∈ r.lang := by
  induction w generalizing r with
  | nil => exact nullable_iff
  | cons a w ih => rw [accepts, ih, mem_lang_deriv]

/-- The expression with an anchor at its start only. -/
def matchesPrefix : Regex α → List α → Bool
  | r, [] => r.nullable
  | r, a :: w => r.nullable || (r.deriv a).matchesPrefix w

theorem matchesPrefix_iff {r : Regex α} {w : List α} :
    r.matchesPrefix w ↔ ∃ u ∈ r.lang, ∃ v, u ++ v = w := by
  induction w generalizing r with
  | nil =>
    rw [matchesPrefix, nullable_iff]
    constructor
    · intro h
      exact ⟨[], h, [], rfl⟩
    · rintro ⟨u, hu, v, huv⟩
      obtain ⟨rfl, -⟩ := List.append_eq_nil_iff.mp huv
      exact hu
  | cons a w ih =>
    rw [matchesPrefix, Bool.or_eq_true, nullable_iff, ih]
    constructor
    · rintro (h | ⟨u, hu, v, rfl⟩)
      · exact ⟨[], h, a :: w, rfl⟩
      · exact ⟨a :: u, mem_lang_deriv.mp hu, v, rfl⟩
    · rintro ⟨u, hu, v, huv⟩
      cases u with
      | nil => exact .inl hu
      | cons b u =>
        obtain ⟨rfl, rfl⟩ := List.cons.inj huv
        exact .inr ⟨u, mem_lang_deriv.mpr hu, v, rfl⟩

end Search

section Scan

/-- A greedy class takes what there is of it. -/
theorem span_eq_iff {p : α → Bool} {w u v : List α} :
    w.span p = (u, v) ↔ u ++ v = w ∧ (∀ a ∈ u, p a) ∧ ∀ a ∈ v.head?, p a = false := by
  rw [List.span_eq_takeWhile_dropWhile, Prod.mk.injEq]
  constructor
  · rintro ⟨rfl, rfl⟩
    refine ⟨List.takeWhile_append_dropWhile, fun a ha => List.mem_takeWhile_imp ha, ?_⟩
    intro a ha
    have h := List.head?_dropWhile_not p w
    rw [Option.mem_def.mp ha] at h
    simpa using h
  · rintro ⟨rfl, hall, hstop⟩
    rw [List.takeWhile_append_of_pos hall, List.dropWhile_append_of_pos hall]
    cases v with
    | nil => simp
    | cons a v => simp [hstop a rfl]

end Scan

end Regex

end Workflows
