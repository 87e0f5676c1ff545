import Workflows.Frontend.ListView

/-!
# The history of page cursors

What the hook for pages keeps in five pieces of state, seen over all the orders in which its three
operations are called. A page size that changes forgets the cursors and not the number of pages.
-/

namespace Workflows.Frontend

open Execution

namespace CursorHistory

variable {history : CursorHistory} {page : Nat} {cursor : String}

def pages (history : CursorHistory) : List Nat := history.map (·.1)

/-- The pages `1, …, n`, in this order. -/
def Contiguous (history : CursorHistory) : Prop :=
  history.pages = List.range' 1 history.length

instance : Decidable history.Contiguous := inferInstanceAs (Decidable (_ = _))

/-- Only the first page is recorded with null, and no page with the empty string. -/
structure Recorded (history : CursorHistory) : Prop where
  first : history.lookup 1 = some none
  later : ∀ page c, history.lookup page = some c → page ≠ 1 → ∃ cursor, c = some cursor ∧ cursor ≠ ""

theorem lookup_isSome_iff : (history.lookup page).isSome ↔ page ∈ history.pages := by
  induction history with
  | nil => simp [pages]
  | cons entry history ih =>
    obtain ⟨p, c⟩ := entry
    rw [List.lookup_cons]
    rcases eq_or_ne page p with rfl | hne
    · simp [pages]
    · rw [beq_false_of_ne hne, pages, List.map_cons, List.mem_cons, or_iff_right hne]
      exact ih

theorem Contiguous.mem_pages_iff (h : history.Contiguous) :
    page ∈ history.pages ↔ 1 ≤ page ∧ page ≤ history.length := by
  rw [h, List.mem_range'_1]
  omega

theorem pages_assign : (history.assign page cursor).pages =
    if page ∈ history.pages then history.pages else history.pages ++ [page] := by
  rw [assign]
  change (if page ∈ history.pages then _ else _ : CursorHistory).pages = _
  split_ifs with hmem
  · rw [pages, pages, List.map_map]
    apply List.map_congr_left
    intro entry _
    rw [Function.comp_apply]
    split_ifs with heq
    · exact heq.symm
    · rfl
  · rw [pages, List.map_append]
    rfl

theorem lookup_assign (q : Nat) : (history.assign page cursor).lookup q =
    if q = page then some (some cursor) else history.lookup q := by
  rw [assign]
  split_ifs with hmem heq heq
  · subst heq
    induction history with
    | nil => cases hmem
    | cons entry history ih =>
      obtain ⟨p, c⟩ := entry
      rcases eq_or_ne q p with rfl | hne
      · simp
      · have hrest : q ∈ history.map (·.1) := (List.mem_cons.mp hmem).resolve_left hne
        rw [List.map_cons, if_neg (Ne.symm hne), List.lookup_cons, beq_false_of_ne hne]
        exact ih hrest
  · clear hmem
    induction history with
    | nil => rfl
    | cons entry history ih =>
      obtain ⟨p, c⟩ := entry
      rw [List.map_cons, List.lookup_cons]
      split_ifs with hp
      · obtain rfl : p = page := hp
        rw [List.lookup_cons, beq_false_of_ne heq]
        exact ih
      · rw [List.lookup_cons, ih]
  · subst heq
    have hnone : history.lookup q = none :=
      Option.not_isSome_iff_eq_none.mp fun hsome => hmem (lookup_isSome_iff.mp hsome)
    rw [List.lookup_append, hnone]
    simp
  · rw [List.lookup_append, List.lookup_cons, beq_false_of_ne heq]
    simp

theorem Contiguous.assign_iff (h : history.Contiguous) (hpage : 1 ≤ page) :
    (history.assign page cursor).Contiguous ↔ page ≤ history.length + 1 := by
  have hlength : (history.assign page cursor).length = (history.assign page cursor).pages.length :=
    (List.length_map _).symm
  rw [Contiguous, hlength, pages_assign]
  split_ifs with hmem
  · have hle := (h.mem_pages_iff.mp hmem).2
    rw [h, List.length_range']
    exact iff_of_true rfl (by omega)
  · rw [h, List.length_append, List.length_range', List.length_singleton, List.range'_1_concat,
      List.append_cancel_left_eq, List.singleton_inj]
    have hnot := mt h.mem_pages_iff.mpr hmem
    omega

theorem Recorded.length_pos (h : history.Recorded) : 1 ≤ history.length := by
  cases history with
  | nil => cases h.first
  | cons entry history => exact Nat.le_add_left 1 _

theorem recorded_first : Recorded [(1, none)] := by
  refine ⟨rfl, fun page c hlookup hne => ?_⟩
  rw [List.lookup_cons, beq_false_of_ne hne] at hlookup
  cases hlookup

theorem Recorded.assign (h : history.Recorded) (hpage : page ≠ 1) (hcursor : cursor ≠ "") :
    (history.assign page cursor).Recorded := by
  refine ⟨by rw [lookup_assign, if_neg hpage.symm, h.first], fun q c hq hne => ?_⟩
  rw [lookup_assign] at hq
  split_ifs at hq
  · exact ⟨cursor, (Option.some.inj hq).symm, hcursor⟩
  · exact h.later q c hq hne

end CursorHistory

section Run

inductive Operation where
  | updatePageInfo
  | goToPage (page : Nat)
  | changeLimit (limit : Nat)
  deriving DecidableEq

/-- The hook, and the page that was left last with what its page info then was. -/
structure Browsing where
  hook : Pagination
  left : Option (Nat × PageInfo)

namespace Browsing

def initial (initialLimit : Nat) : Browsing where
  hook := .useServerSidePagination initialLimit
  left := none

/-- A call at a time when the page that the cursor and the limit select has the given page info.
The controls go to the pages that are counted. -/
def step (s : Browsing) : PageInfo × Operation → Option Browsing
  | (info, .updatePageInfo) => some { s with hook := s.hook.updatePageInfo info }
  | (info, .goToPage page) =>
    if 1 ≤ page ∧ page ≤ s.hook.totalPages then
      some { hook := s.hook.goToPage page info, left := some (s.hook.currentPage, info) }
    else none
  | (_, .changeLimit limit) => some { hook := s.hook.changeLimit limit, left := none }

/-- What is kept together in every state. -/
structure Consistent (s : Browsing) : Prop where
  contiguous : s.hook.cursorHistory.Contiguous
  current : 1 ≤ s.hook.currentPage ∧ s.hook.currentPage ≤ s.hook.totalPages
  cursor : s.hook.cursorHistory.lookup s.hook.currentPage = some s.hook.cursor ∨
    ∃ page info, s.left = some (page, info) ∧ s.hook.currentPage = page + 1 ∧
      s.hook.cursor = info.endCursor
  first : s.hook.cursor = none → s.hook.currentPage = 1

/-- The operation does not come to a page of which nothing is known, and no page info is taken in
on a page behind the recorded ones, but one that adds nothing on the first of these. -/
def Safe (s : Browsing) : PageInfo × Operation → Prop
  | (info, .updatePageInfo) =>
    s.hook.currentPage ≤ s.hook.cursorHistory.length ∨
      s.hook.currentPage = s.hook.cursorHistory.length + 1 ∧ info.hasNextPage = true ∧
        ∀ c ∈ info.next, c ∈ s.hook.cursorHistory.cursors
  | (info, .goToPage page) =>
    page ≤ s.hook.cursorHistory.length ∨
      page = s.hook.currentPage + 1 ∧ info.next.isSome = true
  | (_, .changeLimit _) => True

instance (s : Browsing) : DecidablePred s.Safe
  | (_, .updatePageInfo) => inferInstanceAs (Decidable (_ ∨ _ ∧ _ ∧ ∀ c ∈ _, _))
  | (_, .goToPage _) => inferInstanceAs (Decidable (_ ∨ _))
  | (_, .changeLimit _) => .isTrue trivial

variable {s t : Browsing} {info : PageInfo} {page : Nat}

theorem PageInfo.next_ne_empty {c : String} (h : info.next = some c) : c ≠ "" := by
  rw [PageInfo.next] at h
  split_ifs at h
  exact of_decide_eq_true (Option.filter_eq_some_iff.mp h).2

/-- The invariant of the runs. -/
structure Kept (s : Browsing) : Prop extends s.Consistent where
  recorded : s.hook.cursorHistory.Recorded

theorem Kept.at?_eq_none_iff (h : s.Kept) (hpage : 1 < page) :
    s.hook.cursorHistory.at? page = none ↔ s.hook.cursorHistory.length < page := by
  have hmem : (s.hook.cursorHistory.lookup page).isSome ↔ page ∈ s.hook.cursorHistory.pages :=
    CursorHistory.lookup_isSome_iff
  rw [h.contiguous.mem_pages_iff] at hmem
  rw [CursorHistory.at?]
  cases hlookup : s.hook.cursorHistory.lookup page with
  | none =>
    rw [hlookup] at hmem
    have hbehind : ¬(1 ≤ page ∧ page ≤ s.hook.cursorHistory.length) := fun hle => by
      cases hmem.mpr hle
    simp only [Option.join_none, Option.filter_none, true_iff]
    omega
  | some c =>
    rw [hlookup] at hmem
    obtain ⟨cursor, rfl, hne⟩ := h.recorded.later page c hlookup hpage.ne'
    have hle := (hmem.mp rfl).2
    simp [hne, hle]

/-- The end cursor that is written into the history. -/
def fresh (s : Browsing) (info : PageInfo) : Option String :=
  info.next.filter (· ∉ s.hook.cursorHistory.cursors)

theorem fresh_eq_none_iff :
    s.fresh info = none ↔ ∀ c ∈ info.next, c ∈ s.hook.cursorHistory.cursors := by
  rw [fresh, Option.filter_eq_none_iff]
  simp

theorem cursorHistory_updatePageInfo (s : Browsing) (info : PageInfo) :
    (s.hook.updatePageInfo info).cursorHistory =
      match s.fresh info with
      | none => s.hook.cursorHistory
      | some c => s.hook.cursorHistory.assign (s.hook.currentPage + 1) c := by
  rw [Pagination.updatePageInfo, fresh]
  cases info.next with
  | none => rfl
  | some c =>
    by_cases hmem : c ∈ s.hook.cursorHistory.cursors
    · simp [Option.filter, hmem]
    · simp [Option.filter, hmem]

theorem Kept.updatePageInfo (h : s.Kept) (info : PageInfo) :
    (Consistent { s with hook := s.hook.updatePageInfo info } ↔
      s.Safe (info, .updatePageInfo)) ∧
    (s.hook.updatePageInfo info).cursorHistory.Recorded := by
  have hpage := h.current.1
  have htotal : (s.hook.updatePageInfo info).totalPages =
      if info.hasNextPage = true ∧ s.hook.cursorHistory.length < s.hook.currentPage + 1 then
        s.hook.cursorHistory.length + 1
      else s.hook.cursorHistory.length := by
    simp only [Pagination.updatePageInfo, h.at?_eq_none_iff (Nat.lt_add_of_pos_left hpage)]
  have hcount : s.hook.currentPage ≤ (s.hook.updatePageInfo info).totalPages ↔
      s.hook.currentPage ≤ s.hook.cursorHistory.length ∨
        s.hook.currentPage = s.hook.cursorHistory.length + 1 ∧ info.hasNextPage = true := by
    rw [htotal]
    split_ifs with hnext
    · rw [and_iff_left hnext.1]
      omega
    · refine ⟨.inl, fun hle => hle.elim id fun hlast => absurd ⟨hlast.2, ?_⟩ hnext⟩
      omega
  have hcursor : (s.hook.updatePageInfo info).cursorHistory.lookup s.hook.currentPage =
      s.hook.cursorHistory.lookup s.hook.currentPage := by
    rw [cursorHistory_updatePageInfo]
    cases s.fresh info with
    | none => rfl
    | some c => exact (CursorHistory.lookup_assign _).trans (if_neg (Nat.ne_add_one _))
  have hcontiguous : (s.hook.updatePageInfo info).cursorHistory.Contiguous ↔
      s.fresh info = none ∨ s.hook.currentPage ≤ s.hook.cursorHistory.length := by
    rw [cursorHistory_updatePageInfo]
    cases s.fresh info with
    | none => exact iff_of_true h.contiguous (.inl rfl)
    | some c =>
      simp [h.contiguous.assign_iff (Nat.le_add_left 1 s.hook.currentPage)]
  constructor
  · rw [Safe, ← fresh_eq_none_iff]
    constructor
    · intro hconsistent
      have hpages := hcontiguous.mp hconsistent.contiguous
      have hcurrent := hcount.mp hconsistent.current.2
      tauto
    · intro hsafe
      refine ⟨hcontiguous.mpr ?_, ⟨hpage, hcount.mpr ?_⟩, ?_, h.first⟩
      · tauto
      · tauto
      · exact h.cursor.imp_left hcursor.trans
  · rw [cursorHistory_updatePageInfo]
    cases hfresh : s.fresh info with
    | none => exact h.recorded
    | some c =>
      have hnext : info.next = some c := (Option.filter_eq_some_iff.mp hfresh).1
      exact h.recorded.assign (by omega) (PageInfo.next_ne_empty hnext)

theorem goToPage_eq (p : Pagination) (page : Nat) (info : PageInfo) :
    p.goToPage page info =
      { p with
        currentPage := page
        cursor :=
          if p.cursorHistory.at? page = none ∧ page = p.currentPage + 1 ∧ info.next.isSome = true
          then info.next else (p.cursorHistory.lookup page).join } := by
  rw [Pagination.goToPage]
  cases info.next with
  | none => simp
  | some c =>
    dsimp only
    split_ifs <;> tauto

theorem Kept.lookup_of_le (h : s.Kept) (hpage : 1 ≤ page)
    (hle : page ≤ s.hook.cursorHistory.length) :
    ∃ c, s.hook.cursorHistory.lookup page = some c ∧ (c = none → page = 1) := by
  have hmem := h.contiguous.mem_pages_iff.mpr ⟨hpage, hle⟩
  obtain ⟨c, hc⟩ := Option.isSome_iff_exists.mp (CursorHistory.lookup_isSome_iff.mpr hmem)
  refine ⟨c, hc, fun hnull => ?_⟩
  by_contra hne
  obtain ⟨cursor, rfl, -⟩ := h.recorded.later page c hc hne
  cases hnull

theorem Kept.lookup_of_lt (h : s.Kept) (hlt : s.hook.cursorHistory.length < page) :
    s.hook.cursorHistory.lookup page = none := by
  apply Option.not_isSome_iff_eq_none.mp
  intro hsome
  have hle := (h.contiguous.mem_pages_iff.mp (CursorHistory.lookup_isSome_iff.mp hsome)).2
  omega

theorem Kept.goToPage (h : s.Kept) (info : PageInfo)
    (hpage : 1 ≤ page ∧ page ≤ s.hook.totalPages) :
    Consistent { hook := s.hook.goToPage page info, left := some (s.hook.currentPage, info) } ↔
      s.Safe (info, .goToPage page) := by
  have hcurrent := h.current.1
  rw [goToPage_eq, Safe]
  rcases Nat.lt_or_ge s.hook.cursorHistory.length page with hbehind | hrecorded
  · have hfirst := h.recorded.length_pos
    have hnone := (h.at?_eq_none_iff (lt_of_le_of_lt hfirst hbehind)).mpr hbehind
    have hlookup := h.lookup_of_lt hbehind
    rw [or_iff_right (Nat.not_le_of_lt hbehind)]
    simp only [hnone, hlookup, true_and, Option.join_none]
    constructor
    · intro hconsistent
      by_contra hunsafe
      have hone : page = 1 := hconsistent.first (if_neg hunsafe)
      omega
    · intro hsafe
      obtain ⟨c, hnext⟩ := Option.isSome_iff_exists.mp hsafe.2
      have hc : info.endCursor = some c := info.endCursor_of_next hnext
      rw [if_pos hsafe, hnext]
      exact ⟨h.contiguous, hpage, .inr ⟨_, info, rfl, hsafe.1, hc.symm⟩, nofun⟩
  · obtain ⟨c, hlookup, hnull⟩ := h.lookup_of_le hpage.1 hrecorded
    have hkeep : ¬(s.hook.cursorHistory.at? page = none ∧ page = s.hook.currentPage + 1 ∧
        info.next.isSome = true) := by
      rintro ⟨hnone, hnext, -⟩
      have hlt := (h.at?_eq_none_iff (by omega)).mp hnone
      omega
    rw [if_neg hkeep, hlookup]
    exact iff_of_true ⟨h.contiguous, hpage, .inl hlookup, hnull⟩ (.inl hrecorded)

theorem Kept.changeLimit (h : s.Kept) (limit : Nat) :
    Kept { hook := s.hook.changeLimit limit, left := none } where
  contiguous := rfl
  current := ⟨le_rfl, h.current.1.trans h.current.2⟩
  cursor := .inl rfl
  first _ := rfl
  recorded := CursorHistory.recorded_first

theorem kept_initial (initialLimit : Nat) : (initial initialLimit).Kept where
  contiguous := rfl
  current := ⟨le_rfl, le_rfl⟩
  cursor := .inl rfl
  first _ := rfl
  recorded := CursorHistory.recorded_first

/-- A step leaves the state consistent exactly when it is safe, and then keeps the invariant. -/
theorem Kept.step (h : s.Kept) {a : PageInfo × Operation} (hstep : s.step a = some t) :
    (s.Safe a ↔ t.Consistent) ∧ (s.Safe a → t.Kept) := by
  obtain ⟨info, operation⟩ := a
  cases operation with
  | updatePageInfo =>
    cases hstep
    obtain ⟨hiff, hrecorded⟩ := h.updatePageInfo info
    exact ⟨hiff.symm, fun hsafe => ⟨hiff.mpr hsafe, hrecorded⟩⟩
  | goToPage page =>
    rw [Browsing.step] at hstep
    split_ifs at hstep with hpage
    cases hstep
    have hiff := h.goToPage info hpage
    refine ⟨hiff.symm, fun hsafe => ⟨hiff.mpr hsafe, ?_⟩⟩
    exact Pagination.cursorHistory_goToPage (p := s.hook) page ▸ h.recorded
  | changeLimit limit =>
    cases hstep
    have hkept := h.changeLimit limit
    exact ⟨iff_of_true trivial hkept.toConsistent, fun _ => hkept⟩

/-- A run is consistent in every state it reaches exactly when all its steps are safe. -/
theorem consistent_iff_safe (initialLimit : Nat) {as : List (PageInfo × Operation)}
    (hrun : exec step (initial initialLimit) as = some t) :
    (∀ front, front <+: as → ∀ s, exec step (initial initialLimit) front = some s →
      s.Consistent) ↔ AllSteps step Safe (initial initialLimit) as :=
  (allSteps_iff_forall_front (fun _ h => Kept.toConsistent h)
    (fun _ _ _ h hstep => h.step hstep) (kept_initial initialLimit) hrun).symm

def threePages : List (PageInfo × Operation) :=
  [(⟨true, some "10"⟩, .updatePageInfo), (⟨true, some "10"⟩, .goToPage 2),
    (⟨true, some "20"⟩, .updatePageInfo), (⟨true, some "20"⟩, .goToPage 3),
    (⟨false, some "25"⟩, .updatePageInfo), (⟨false, some "25"⟩, .goToPage 2)]

/-- Three pages, the last but one of which is gone back to. -/
theorem three_pages_consistent :
    ∃ s, exec step (initial 10) threePages = some s ∧ s.Consistent := by
  obtain ⟨s, hrun⟩ : ∃ s, exec step (initial 10) threePages = some s := ⟨_, rfl⟩
  exact ⟨s, hrun, (consistent_iff_safe 10 hrun).mpr (by decide) _ List.prefix_rfl _ hrun⟩

/-- With larger pages all rows are on the first, and the second is still there to go to: it has no
cursor and shows the rows of the first. -/
theorem changeLimit_not_consistent :
    ¬∀ (initialLimit : Nat) (as : List (PageInfo × Operation)) (s : Browsing),
      exec step (initial initialLimit) as = some s → s.Consistent := by
  intro hclaim
  have hconsistent := hclaim 10 [(⟨true, some "10"⟩, .updatePageInfo),
    (⟨true, some "10"⟩, .goToPage 2), (⟨false, some "15"⟩, .updatePageInfo),
    (⟨false, some "15"⟩, .changeLimit 20), (⟨false, some "15"⟩, .goToPage 2)] _ rfl
  have hpage : 2 = 1 := hconsistent.first rfl
  cases hpage

end Browsing

end Run

end Workflows.Frontend
