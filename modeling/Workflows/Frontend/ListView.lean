import Workflows.Foundations.Execution
import Mathlib

/-!
# The list of workflows and its pages

The hook `useServerSidePagination` keeps the cursor, the page, the page size and the cursors of the
pages seen so far; the view keeps the visit and the filter. Responses come in any order, and the
page info of the last one is given to the hook again whenever its callback changes.
-/

namespace Workflows.Frontend

universe u v

open Execution

structure PageInfo where
  hasNextPage : Bool
  endCursor : Option String
  deriving DecidableEq

/-- The end cursor where the hook makes use of it: on a page that is not the last, not empty. -/
def PageInfo.next (info : PageInfo) : Option String :=
  if info.hasNextPage then info.endCursor.filter (· ≠ "") else none

theorem PageInfo.endCursor_of_next {info : PageInfo} {c : String} (h : info.next = some c) :
    info.endCursor = some c := by
  rw [next] at h
  split_ifs at h
  exact (Option.filter_eq_some_iff.mp h).1

/-- The cursors of pages, one for each key; the cursor of the first page is null. -/
abbrev CursorHistory := List (Nat × Option String)

namespace CursorHistory

/-- The entry under a page, where it counts as true. -/
def at? (history : CursorHistory) (page : Nat) : Option String :=
  (history.lookup page).join.filter (· ≠ "")

def assign (history : CursorHistory) (page : Nat) (cursor : String) : CursorHistory :=
  if page ∈ history.map (·.1) then
    history.map fun entry => if entry.1 = page then (page, some cursor) else entry
  else history ++ [(page, some cursor)]

def cursors (history : CursorHistory) : List String := history.filterMap (·.2)

theorem mem_cursors_of_lookup {history : CursorHistory} {page : Nat} {c : String}
    (h : (history.lookup page).join = some c) : c ∈ history.cursors := by
  obtain ⟨front, back, hsplit, -⟩ := List.lookup_eq_some_iff.mp (Option.join_eq_some_iff.mp h)
  exact List.mem_filterMap.mpr ⟨(page, some c), by simp [hsplit], rfl⟩

theorem mem_cursors_assign {history : CursorHistory} {page : Nat} {c cursor : String}
    (h : c ∈ (history.assign page cursor).cursors) : c ∈ history.cursors ∨ c = cursor := by
  rw [assign] at h
  obtain ⟨entry, hentry, hc⟩ := List.mem_filterMap.mp h
  split_ifs at hentry
  · obtain ⟨entry', hentry', rfl⟩ := List.mem_map.mp hentry
    split_ifs at hc
    · exact .inr (Option.some_inj.mp hc).symm
    · exact .inl (List.mem_filterMap.mpr ⟨entry', hentry', hc⟩)
  · obtain hentry | hentry := List.mem_append.mp hentry
    · exact .inl (List.mem_filterMap.mpr ⟨entry, hentry, hc⟩)
    · obtain rfl := List.mem_singleton.mp hentry
      exact .inr (Option.some_inj.mp hc).symm

theorem mem_cursors_assign_self (history : CursorHistory) (page : Nat) (cursor : String) :
    cursor ∈ (history.assign page cursor).cursors := by
  refine List.mem_filterMap.mpr ⟨(page, some cursor), ?_, rfl⟩
  rw [assign]
  split_ifs with h
  · obtain ⟨entry, hentry, rfl⟩ := List.mem_map.mp h
    exact List.mem_map.mpr ⟨entry, hentry, if_pos rfl⟩
  · exact List.mem_append_right _ (List.mem_singleton.mpr rfl)

end CursorHistory

section Hook

structure Pagination where
  cursor : Option String
  cursorHistory : CursorHistory
  currentPage : Nat
  totalPages : Nat
  selectedLimit : Nat
  deriving DecidableEq

namespace Pagination

def useServerSidePagination (initialLimit : Nat) : Pagination where
  cursor := none
  cursorHistory := [(1, none)]
  currentPage := 1
  totalPages := 1
  selectedLimit := initialLimit

def updatePageInfo (p : Pagination) (info : PageInfo) : Pagination :=
  let currentPageCount := p.cursorHistory.length
  { p with
    totalPages :=
      if info.hasNextPage ∧ p.cursorHistory.at? (p.currentPage + 1) = none then currentPageCount + 1
      else currentPageCount
    cursorHistory :=
      match info.next with
      | some endCursor =>
        if endCursor ∈ p.cursorHistory.cursors then p.cursorHistory
        else p.cursorHistory.assign (p.currentPage + 1) endCursor
      | none => p.cursorHistory }

def goToPage (p : Pagination) (page : Nat) (info : PageInfo) : Pagination :=
  let targetCursor := (p.cursorHistory.lookup page).join
  match info.next with
  | some endCursor =>
    if p.cursorHistory.at? page = none ∧ page = p.currentPage + 1 then
      { p with cursor := some endCursor, currentPage := page }
    else { p with cursor := targetCursor, currentPage := page }
  | none => { p with cursor := targetCursor, currentPage := page }

def changeLimit (p : Pagination) (limit : Nat) : Pagination :=
  { p with selectedLimit := limit, cursorHistory := [(1, none)], currentPage := 1, cursor := none }

/-- The effect of the list's content, until the callback stays the same. -/
def settle (p : Pagination) : Option PageInfo → Pagination
  | none => p
  | some info => (p.updatePageInfo info).updatePageInfo info

variable {p : Pagination} {info : PageInfo} {c : String}

theorem mem_cursors_updatePageInfo (h : c ∈ (p.updatePageInfo info).cursorHistory.cursors) :
    c ∈ p.cursorHistory.cursors ∨ info.next = some c := by
  rw [updatePageInfo] at h
  cases hnext : info.next with
  | none =>
    rw [hnext] at h
    exact .inl h
  | some endCursor =>
    simp only [hnext] at h
    split_ifs at h
    · exact .inl h
    · exact (CursorHistory.mem_cursors_assign h).imp_right fun heq => congrArg some heq.symm

theorem mem_cursors_settle {shown : Option PageInfo}
    (h : c ∈ (p.settle shown).cursorHistory.cursors) :
    c ∈ p.cursorHistory.cursors ∨ shown.bind PageInfo.next = some c := by
  cases shown with
  | none => exact .inl h
  | some info =>
    obtain h | h := mem_cursors_updatePageInfo h
    · exact mem_cursors_updatePageInfo h
    · exact .inr h

theorem mem_cursors_updatePageInfo_self (h : info.next = some c) :
    c ∈ (p.updatePageInfo info).cursorHistory.cursors := by
  simp only [updatePageInfo, h]
  split_ifs with hmem
  · exact hmem
  · exact CursorHistory.mem_cursors_assign_self _ _ _

theorem cursorHistory_updatePageInfo_twice (p : Pagination) (info : PageInfo) :
    ((p.updatePageInfo info).updatePageInfo info).cursorHistory =
      (p.updatePageInfo info).cursorHistory := by
  cases hnext : info.next with
  | none => simp only [updatePageInfo, hnext]
  | some endCursor =>
    have hmem := mem_cursors_updatePageInfo_self (p := p) hnext
    generalize p.updatePageInfo info = p' at hmem ⊢
    simp only [updatePageInfo, hnext, if_pos hmem]

/-- The second run of the effect leaves nothing for a third one. -/
theorem updatePageInfo_settle (p : Pagination) (info : PageInfo) :
    (p.settle (some info)).updatePageInfo info = p.settle (some info) := by
  have hhistory := cursorHistory_updatePageInfo_twice p info
  change ((p.updatePageInfo info).updatePageInfo info).updatePageInfo info =
    (p.updatePageInfo info).updatePageInfo info
  generalize p.updatePageInfo info = r at hhistory ⊢
  have heq : r.updatePageInfo info =
      { r with totalPages := (r.updatePageInfo info).totalPages } := by
    change { r with
      cursorHistory := (r.updatePageInfo info).cursorHistory
      totalPages := (r.updatePageInfo info).totalPages } = _
    rw [hhistory]
  calc
    (r.updatePageInfo info).updatePageInfo info =
        ({ r with totalPages := (r.updatePageInfo info).totalPages } :
          Pagination).updatePageInfo info := congrArg (·.updatePageInfo info) heq
    _ = r.updatePageInfo info := rfl

@[simp] theorem cursor_settle (p : Pagination) (shown : Option PageInfo) :
    (p.settle shown).cursor = p.cursor := by
  cases shown <;> rfl

@[simp] theorem selectedLimit_settle (p : Pagination) (shown : Option PageInfo) :
    (p.settle shown).selectedLimit = p.selectedLimit := by
  cases shown <;> rfl

theorem cursorHistory_goToPage (page : Nat) :
    (p.goToPage page info).cursorHistory = p.cursorHistory := by
  rw [goToPage]
  cases info.next with
  | none => rfl
  | some endCursor => dsimp only; split_ifs <;> rfl

theorem selectedLimit_goToPage (page : Nat) :
    (p.goToPage page info).selectedLimit = p.selectedLimit := by
  rw [goToPage]
  cases info.next with
  | none => rfl
  | some endCursor => dsimp only; split_ifs <;> rfl

theorem cursor_goToPage {page : Nat} (h : (p.goToPage page info).cursor = some c) :
    c ∈ p.cursorHistory.cursors ∨ info.next = some c := by
  rw [goToPage] at h
  cases hnext : info.next with
  | none =>
    rw [hnext] at h
    exact .inl (CursorHistory.mem_cursors_of_lookup h)
  | some endCursor =>
    simp only [hnext] at h
    split_ifs at h
    · exact .inr h
    · exact .inl (CursorHistory.mem_cursors_of_lookup h)

end Pagination

end Hook

section View

/-- What a query asks for, its page apart. -/
structure Params (V : Type u) (F : Type v) where
  visit : Option V
  filter : Option F
  limit : Nat
  deriving DecidableEq

structure Query (V : Type u) (F : Type v) where
  visit : V
  limit : Nat
  cursor : Option String
  filter : Option F
  deriving DecidableEq

inductive Event (V : Type u) (F : Type v) where
  | changed
  | sent (query : Query V F)
  | returned (query : Query V F) (info : PageInfo)
  deriving DecidableEq

inductive Action (V : Type u) (F : Type v) where
  | goToPage (page : Nat)
  | changeLimit (limit : Nat)
  | applyFilter (filter : F)
  | changeVisit (visit : V)
  | poll
  | respond (query : Query V F) (info : PageInfo)
  deriving DecidableEq

/-- The view, the page info it shows, and what has happened, the latest event first. -/
structure ListView (V : Type u) (F : Type v) where
  visit : Option V
  filter : Option F
  pagination : Pagination
  displayed : Option PageInfo
  log : List (Event V F)
  deriving DecidableEq

variable {V : Type u} {F : Type v}

def Query.params (query : Query V F) : Params V F where
  visit := some query.visit
  filter := query.filter
  limit := query.limit

namespace ListView

def params (view : ListView V F) : Params V F where
  visit := view.visit
  filter := view.filter
  limit := view.pagination.selectedLimit

def load (view : ListView V F) : ListView V F :=
  match view.visit with
  | none => view
  | some visit =>
    { view with
      log := .sent
        { visit
          limit := view.pagination.selectedLimit
          cursor := view.pagination.cursor
          filter := view.filter } :: view.log }

def initial (visit : Option V) : ListView V F :=
  load
    { visit
      filter := none
      pagination := .useServerSidePagination 10
      displayed := none
      log := [] }

/-- A change of the hook's state: the content's effect runs, and the query is sent again where the
cursor or the page size is another. -/
def paginate (view : ListView V F) (pagination : Pagination) : ListView V F :=
  let view' := { view with pagination := pagination.settle view.displayed }
  if pagination.cursor = view.pagination.cursor ∧
      pagination.selectedLimit = view.pagination.selectedLimit then view'
  else view'.load

def handleApplyFilters (view : ListView V F) (newFilters : F) : ListView V F :=
  load { view with filter := some newFilters, log := .changed :: view.log }

def handleVisitSubmit (view : ListView V F) (visit : V) : ListView V F :=
  load { view with visit := some visit, log := .changed :: view.log }

def respond (view : ListView V F) (query : Query V F) (info : PageInfo) : ListView V F :=
  { view with
    pagination := view.pagination.settle (some info)
    displayed := some info
    log := .returned query info :: view.log }

variable [DecidableEq V] [DecidableEq F]

/-- The controls stand below the content: no page and no page size without a response. -/
def step (view : ListView V F) : Action V F → Option (ListView V F)
  | .goToPage page =>
    match view.displayed with
    | some info =>
      if 1 ≤ page ∧ page ≤ view.pagination.totalPages then
        some (view.paginate (view.pagination.goToPage page info))
      else none
    | none => none
  | .changeLimit limit =>
    match view.displayed with
    | some _ => some (view.paginate (view.pagination.changeLimit limit))
    | none => none
  | .applyFilter filter => some (view.handleApplyFilters filter)
  | .changeVisit visit => some (view.handleVisitSubmit visit)
  | .poll => some view.load
  | .respond query info =>
    if .sent query ∈ view.log then some (view.respond query info) else none

end ListView

end View

section Coherence

variable {V : Type u} {F : Type v}

def Event.Issues (params : Params V F) (c : String) : Event V F → Prop
  | .returned query info => query.params = params ∧ info.endCursor = some c
  | _ => False

/-- A query with these parameters has been answered with this end cursor. -/
def Issued (log : List (Event V F)) (params : Params V F) (c : String) : Prop :=
  ∃ event ∈ log, event.Issues params c

/-- A filter has been applied or a visit chosen since the last query. -/
def Restarts : List (Event V F) → Prop
  | .changed :: _ => True
  | .returned _ _ :: earlier => Restarts earlier
  | _ => False

/-- Every query has, in view of what came before it, a cursor that it may have. -/
def Coherent : List (Event V F) → Prop
  | [] => True
  | .sent query :: earlier =>
    (∀ c, query.cursor = some c → Issued earlier query.params c) ∧
      (Restarts earlier → query.cursor = none) ∧ Coherent earlier
  | _ :: earlier => Coherent earlier

/-- The cursors that a page of the view may be asked for with. -/
def ListView.remembered (view : ListView V F) : List String :=
  view.pagination.cursorHistory.cursors ++ (view.displayed.bind PageInfo.next).toList

/-- Nothing of other queries is taken along: where the visit, the filter or the page size changes
or a response comes in, what is remembered was issued for what is asked from then on. -/
def CarriesNothing (view : ListView V F) : Action V F → Prop
  | .applyFilter filter =>
    view.pagination.cursor = none ∧
      ∀ c ∈ view.remembered, Issued view.log { view.params with filter := some filter } c
  | .changeVisit visit =>
    view.pagination.cursor = none ∧
      ∀ c ∈ view.remembered, Issued view.log { view.params with visit := some visit } c
  | .changeLimit limit =>
    ∀ c ∈ view.displayed.bind PageInfo.next, Issued view.log { view.params with limit } c
  | .respond query info =>
    ∀ c ∈ info.next, query.params = view.params ∨ Issued view.log view.params c
  | _ => True

section Decidable

variable [DecidableEq V] [DecidableEq F]

instance (params : Params V F) (c : String) : DecidablePred (Event.Issues params c)
  | .returned _ _ => inferInstanceAs (Decidable (_ = _ ∧ _ = some c))
  | .sent _ | .changed => .isFalse nofun

instance (log : List (Event V F)) (params : Params V F) (c : String) :
    Decidable (Issued log params c) := inferInstanceAs (Decidable (∃ event ∈ log, _))

instance (view : ListView V F) : DecidablePred (CarriesNothing view)
  | .applyFilter _ => inferInstanceAs (Decidable (_ ∧ _))
  | .changeVisit _ => inferInstanceAs (Decidable (_ ∧ _))
  | .changeLimit _ => inferInstanceAs (Decidable (∀ c ∈ _, _))
  | .respond _ _ => inferInstanceAs (Decidable (∀ c ∈ _, _))
  | .goToPage _ | .poll => .isTrue trivial

end Decidable

variable {log : List (Event V F)} {params : Params V F} {c : String} {limit : Nat}

theorem Issued.cons (h : Issued log params c) (event : Event V F) :
    Issued (event :: log) params c :=
  h.imp fun _ hevent => ⟨List.mem_cons_of_mem _ hevent.1, hevent.2⟩

theorem issued_of_next {query : Query V F} {info : PageInfo} (h : info.next = some c) :
    Issued (.returned query info :: log) query.params c :=
  ⟨_, List.mem_cons_self, rfl, info.endCursor_of_next h⟩

namespace ListView

variable {view : ListView V F}

/-- What the view keeps: its log is coherent and its cursors come from what it asks for. -/
structure Sound (view : ListView V F) : Prop where
  coherent : Coherent view.log
  cursor : ∀ c, view.pagination.cursor = some c → Issued view.log view.params c
  remembered : ∀ c ∈ view.remembered, Issued view.log view.params c

/-- A change is followed by a query, once there is a visit to ask for. -/
def Asked (view : ListView V F) : Prop := view.visit.isSome → ¬Restarts view.log

theorem Sound.load (h : view.Sound)
    (hrestart : view.visit.isSome → Restarts view.log → view.pagination.cursor = none) :
    view.load.Sound ∧ view.load.Asked := by
  obtain ⟨_ | visit, filter, pagination, displayed, log⟩ := view
  · exact ⟨h, fun hsome => by cases hsome⟩
  · refine ⟨⟨⟨h.cursor, hrestart rfl, h.coherent⟩, ?_, ?_⟩, fun _ hfalse => hfalse⟩
    · intro c hc
      exact (h.cursor c hc).cons _
    · intro c hc
      exact (h.remembered c hc).cons _

theorem mem_remembered {c : String} : c ∈ view.remembered ↔
    c ∈ view.pagination.cursorHistory.cursors ∨ view.displayed.bind PageInfo.next = some c := by
  rw [remembered, List.mem_append, Option.mem_toList]

/-- A change of the hook's state is sound where its cursors are among the remembered ones and what
the content shows was issued for the page size from then on. -/
theorem Sound.paginate (h : view.Sound) (hasked : view.Asked) {pagination : Pagination}
    (hlimit : pagination.selectedLimit = limit)
    (hcursor : ∀ c, pagination.cursor = some c → Issued view.log { view.params with limit } c)
    (hhistory : ∀ c ∈ pagination.cursorHistory.cursors,
      Issued view.log { view.params with limit } c)
    (hshown : ∀ c ∈ view.displayed.bind PageInfo.next,
      Issued view.log { view.params with limit } c) :
    (view.paginate pagination).Sound ∧ (view.paginate pagination).Asked := by
  have hsettled : ∀ c ∈ (pagination.settle view.displayed).cursorHistory.cursors,
      Issued view.log { view.params with limit } c := fun c hc =>
    (Pagination.mem_cursors_settle hc).elim (hhistory c) (hshown c)
  have hparams : { view.params with limit } =
      params { view with pagination := pagination.settle view.displayed } := by
    rw [← hlimit]
    simp only [params, Pagination.selectedLimit_settle]
  rw [hparams] at hcursor hsettled hshown
  have hsound : Sound { view with pagination := pagination.settle view.displayed } :=
    { coherent := h.coherent
      cursor c hc := hcursor c (by rwa [Pagination.cursor_settle] at hc)
      remembered c hc := (mem_remembered.mp hc).elim (hsettled c) (hshown c) }
  rw [ListView.paginate]
  split_ifs
  · exact ⟨hsound, hasked⟩
  · exact hsound.load fun hvisit hrestarts => absurd hrestarts (hasked hvisit)

/-- A change of the visit or the filter is sound where what is remembered was issued for them. -/
theorem Sound.change (h : view.Sound) (visit : Option V) (filter : Option F)
    (hcursor : view.pagination.cursor = none)
    (hremembered : ∀ c ∈ view.remembered, Issued view.log { view.params with visit, filter } c) :
    (ListView.load { view with visit, filter, log := .changed :: view.log }).Sound ∧
      (ListView.load { view with visit, filter, log := .changed :: view.log }).Asked := by
  refine Sound.load ⟨h.coherent, ?_, ?_⟩ fun _ _ => hcursor
  · intro c hc
    cases hcursor.symm.trans hc
  · intro c hc
    exact (hremembered c hc).cons _

theorem Sound.respond (h : view.Sound) (query : Query V F) (info : PageInfo)
    (hnext : ∀ c ∈ info.next, query.params = view.params ∨ Issued view.log view.params c) :
    (view.respond query info).Sound := by
  have hshown : ∀ c, info.next = some c →
      Issued (.returned query info :: view.log) view.params c := by
    intro c hc
    obtain heq | hissued := hnext c hc
    · exact heq ▸ issued_of_next hc
    · exact hissued.cons _
  have hparams : (view.respond query info).params = view.params := by
    simp only [ListView.respond, params, Pagination.selectedLimit_settle]
  refine ⟨h.coherent, ?_, ?_⟩ <;> rw [hparams]
  · intro c hc
    rw [ListView.respond, Pagination.cursor_settle] at hc
    exact (h.cursor c hc).cons _
  · intro c hc
    obtain hc | hc := mem_remembered.mp hc
    · obtain hc | hc := Pagination.mem_cursors_settle hc
      · exact (h.remembered c (mem_remembered.mpr (.inl hc))).cons _
      · exact hshown c hc
    · exact hshown c hc

variable [DecidableEq V] [DecidableEq F]

/-- One step keeps the view sound, as long as it carries nothing over. -/
theorem Sound.step {view' : ListView V F} {action : Action V F} (h : view.Sound ∧ view.Asked)
    (hcarries : CarriesNothing view action) (hstep : view.step action = some view') :
    view'.Sound ∧ view'.Asked := by
  obtain ⟨hsound, hasked⟩ := h
  cases action with
  | goToPage page =>
    cases hshown : view.displayed with
    | none => simp [ListView.step, hshown] at hstep
    | some info =>
      simp only [ListView.step, hshown, Option.ite_none_right_eq_some, Option.some.injEq] at hstep
      obtain ⟨-, rfl⟩ := hstep
      have hremembered : ∀ c, c ∈ view.pagination.cursorHistory.cursors ∨ info.next = some c →
          Issued view.log view.params c := fun c hc =>
        hsound.remembered c (mem_remembered.mpr (by rwa [hshown]))
      refine hsound.paginate hasked (Pagination.selectedLimit_goToPage page) ?_ ?_ ?_
      · intro c hc
        exact hremembered c (Pagination.cursor_goToPage hc)
      · intro c hc
        rw [Pagination.cursorHistory_goToPage] at hc
        exact hremembered c (.inl hc)
      · intro c hc
        rw [hshown] at hc
        exact hremembered c (.inr hc)
  | changeLimit limit =>
    cases hshown : view.displayed with
    | none => simp [ListView.step, hshown] at hstep
    | some info =>
      simp only [ListView.step, hshown, Option.some.injEq] at hstep
      subst hstep
      refine hsound.paginate hasked rfl (fun c hc => ?_) (fun c hc => ?_) hcarries
      · cases hc
      · cases hc
  | applyFilter filter =>
    obtain rfl := Option.some_inj.mp hstep
    exact hsound.change view.visit (some filter) hcarries.1 hcarries.2
  | changeVisit visit =>
    obtain rfl := Option.some_inj.mp hstep
    exact hsound.change (some visit) view.filter hcarries.1 hcarries.2
  | poll =>
    obtain rfl := Option.some_inj.mp hstep
    exact hsound.load fun hvisit hrestarts => absurd hrestarts (hasked hvisit)
  | respond query info =>
    simp only [ListView.step, Option.ite_none_right_eq_some, Option.some.injEq] at hstep
    obtain ⟨-, rfl⟩ := hstep
    exact ⟨hsound.respond query info hcarries, hasked⟩

omit [DecidableEq V] [DecidableEq F] in
theorem sound_initial (visit : Option V) :
    (initial visit : ListView V F).Sound ∧ (initial visit : ListView V F).Asked := by
  refine Sound.load ⟨trivial, ?_, ?_⟩ ?_
  · intro c hc
    cases hc
  · intro c hc
    cases hc
  · intro _ hrestarts
    cases hrestarts

end ListView

end Coherence

section Runs

variable {V : Type u} {F : Type v} [DecidableEq V] [DecidableEq F]

/-- In a run whose steps carry nothing over the view only sends cursors of what it asks for, and
none with the first query after a change. -/
theorem coherent_of_exec {visit : Option V} {actions : List (Action V F)} {view : ListView V F}
    (hcarries : AllSteps ListView.step CarriesNothing (.initial visit) actions)
    (h : exec ListView.step (.initial visit) actions = some view) : Coherent view.log :=
  (invariant_of_allSteps (fun _ _ _ => ListView.Sound.step) (ListView.sound_initial visit)
    hcarries h).1.coherent

def exampleQuery (filter : Option Nat) (cursor : Option String) : Query String Nat where
  visit := "mg36964-1"
  limit := 10
  cursor := cursor
  filter := filter

def exampleNext : PageInfo where
  hasNextPage := true
  endCursor := some "10"

def exampleLast : PageInfo where
  hasNextPage := false
  endCursor := some "3"

def exampleActions : List (Action String Nat) :=
  [.respond (exampleQuery none none) exampleLast, .applyFilter 1,
    .respond (exampleQuery (some 1) none) exampleNext, .goToPage 2]

theorem coherent_of_exec_example :
    ∃ view, exec ListView.step (.initial (some "mg36964-1")) exampleActions = some view ∧
      Coherent view.log := by
  have hcarries : AllSteps ListView.step CarriesNothing (.initial (some "mg36964-1"))
      exampleActions := by decide
  exact ⟨_, rfl, coherent_of_exec hcarries rfl⟩

/-- A filter applied on the second page is asked for from the second page on. -/
theorem not_coherent_of_exec :
    ¬ ∀ (actions : List (Action String Nat)) (view : ListView String Nat),
      exec ListView.step (.initial (some "mg36964-1")) actions = some view →
        Coherent view.log := by
  intro h
  have hcoherent := h
    [.respond (exampleQuery none none) exampleNext, .goToPage 2, .applyFilter 1] _ rfl
  cases hcoherent.2.1 trivial

end Runs

end Workflows.Frontend
