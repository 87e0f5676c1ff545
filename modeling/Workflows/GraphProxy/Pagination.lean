import Workflows.Foundations.Decimal
import Mathlib

/-!
# Listings by cursor

The resolvers `workflows` and `workflow_templates` ask the Argo server for a part of its list. The
cursor of an edge is the number of items up to and with it, which the server takes as an offset.
-/

namespace Workflows.GraphProxy

universe u v w

/-- The text of a cursor and the value in it, or why there is none. -/
structure OpaqueCursor (β : Type u) where
  encode : β → String
  decode : String → Except String β
  decode_encode : ∀ b, decode (encode b) = .ok b

structure Edge (α : Type u) where
  cursor : String
  node : α
  deriving DecidableEq

structure Connection (α : Type u) where
  hasPreviousPage : Bool
  hasNextPage : Bool
  edges : List (Edge α)
  deriving DecidableEq

namespace Connection

variable {α : Type u}

def nodes (page : Connection α) : List α := page.edges.map (·.node)

def endCursor (page : Connection α) : Option String := page.edges.getLast?.map (·.cursor)

end Connection

structure ListOptions where
  limit : Nat
  continueAt : Option Nat
  deriving DecidableEq

structure ItemList (μ : Type u) where
  items : List μ
  continueToken : Option String

/-- An answer of the Argo server: a list, an error with its message, or none that can be read. -/
inductive Answer (μ : Type u) where
  | listed (list : ItemList μ)
  | refused (message : Option String)
  | failed

inductive QueryError where
  | invalidLimit
  | invalidCursor (message : String)
  | unauthorized
  | failed
  deriving DecidableEq

/-- What a resolver takes where no limit is given, and the most that its validator lets through. -/
structure Limits where
  default : Nat
  maximum : Nat
  default_pos : 1 ≤ default

namespace Limits

def Accepts (limits : Limits) (limit : Option Nat) : Prop :=
  ∀ n ∈ limit, 1 ≤ n ∧ n ≤ limits.maximum

instance (limits : Limits) (limit : Option Nat) : Decidable (limits.Accepts limit) := by
  unfold Accepts
  infer_instance

def effective (limits : Limits) (limit : Option Nat) : Nat := limit.getD limits.default

theorem effective_pos {limits : Limits} {limit : Option Nat} (h : limits.Accepts limit) :
    1 ≤ limits.effective limit := by
  cases limit with
  | none => exact limits.default_pos
  | some n => exact (h n rfl).1

end Limits

section Resolve

variable {α : Type u} {μ : Type v} (codec : OpaqueCursor Nat) (convert : μ → α)
  (server : ListOptions → Answer μ)

def decodeCursor (invalidCursor : String → String) :
    Option String → Except QueryError (Option Nat)
  | none => .ok none
  | some cursor =>
    match codec.decode cursor with
    | .ok n => .ok (some n)
    | .error err => .error (.invalidCursor (invalidCursor err))

def edgesFrom (cursorIndex : Nat) (items : List μ) : List (Edge α) :=
  items.mapIdx fun idx item =>
    { cursor := codec.encode (cursorIndex + idx + 1), node := convert item }

def resolvePage (limits : Limits) (invalidCursor : String → String) (cursor : Option String)
    (limit : Option Nat) : Except QueryError (Connection α) :=
  if limits.Accepts limit then
    match decodeCursor codec invalidCursor cursor with
    | .error e => .error e
    | .ok continueAt =>
      match server { limit := limits.effective limit, continueAt } with
      | .listed list =>
        .ok
          { hasPreviousPage := 0 < continueAt.getD 0
            hasNextPage := list.continueToken.isSome
            edges := edgesFrom codec convert (continueAt.getD 0) list.items }
      | .refused message =>
        if message = some "Unauthorized" then .error .unauthorized
        else .ok { hasPreviousPage := false, hasNextPage := false, edges := [] }
      | .failed => .error .failed
  else .error .invalidLimit

def workflowsLimits : Limits where
  default := 10
  maximum := 30
  default_pos := by decide

def workflowTemplatesLimits : Limits where
  default := 100
  maximum := 100
  default_pos := by decide

def workflows : Option String → Option Nat → Except QueryError (Connection α) :=
  resolvePage codec convert server workflowsLimits fun _ => "Cursor not valid"

def workflowTemplates : Option String → Option Nat → Except QueryError (Connection α) :=
  resolvePage codec convert server workflowTemplatesLimits ("Invalid Cursor: " ++ ·)

end Resolve

/-- The server takes its token as an offset and gives one exactly when items remain. -/
def ServesByOffset {μ : Type v} (server : ListOptions → Answer μ) (items : List μ) : Prop :=
  ∀ options, ∃ list, server options = .listed list ∧
    list.items = (items.drop (options.continueAt.getD 0)).take options.limit ∧
    (list.continueToken.isSome ↔ options.continueAt.getD 0 + options.limit < items.length)

section Pages

variable {α : Type u} {μ : Type v} {codec : OpaqueCursor Nat} {convert : μ → α}
  {server : ListOptions → Answer μ} {items : List μ} {limits : Limits}
  {invalidCursor : String → String} {limit : Option Nat}

theorem nodes_edgesFrom (k : Nat) (xs : List μ) :
    (edgesFrom codec convert k xs).map (·.node) = xs.map convert := by
  refine List.ext_getElem? fun i => ?_
  simp only [edgesFrom, List.getElem?_map, List.getElem?_mapIdx]
  cases xs[i]? <;> rfl

/-- The cursor that asks for what comes after the first `k` items. -/
def CursorAt (codec : OpaqueCursor Nat) (k : Nat) (cursor : Option String) : Prop :=
  cursor = some (codec.encode k) ∨ k = 0 ∧ cursor = none

/-- One page of a list is the part behind the cursor. -/
theorem resolvePage_eq_ok (hserver : ServesByOffset server items) (hlimit : limits.Accepts limit)
    {k : Nat} {cursor : Option String} (hcursor : CursorAt codec k cursor) :
    resolvePage codec convert server limits invalidCursor cursor limit = .ok
      { hasPreviousPage := 0 < k
        hasNextPage := k + limits.effective limit < items.length
        edges := edgesFrom codec convert k ((items.drop k).take (limits.effective limit)) } := by
  have hdecode : ∃ continueAt, decodeCursor codec invalidCursor cursor = .ok continueAt ∧
      continueAt.getD 0 = k := by
    obtain rfl | ⟨rfl, rfl⟩ := hcursor
    · exact ⟨some k, by rw [decodeCursor, codec.decode_encode], rfl⟩
    · exact ⟨none, rfl, rfl⟩
  obtain ⟨continueAt, hdecode, rfl⟩ := hdecode
  obtain ⟨list, hlist, hitems, htoken⟩ :=
    hserver { limit := limits.effective limit, continueAt }
  have hnext : list.continueToken.isSome =
      decide (continueAt.getD 0 + limits.effective limit < items.length) :=
    Bool.eq_iff_iff.mpr (htoken.trans decide_eq_true_iff.symm)
  rw [resolvePage, if_pos hlimit, hdecode]
  simp only [hlist, hitems, hnext]

theorem getElem?_edgesFrom (k i : Nat) (xs : List μ) :
    (edgesFrom codec convert k xs)[i]? =
      xs[i]?.map fun item => { cursor := codec.encode (k + i + 1), node := convert item } := by
  rw [edgesFrom, List.getElem?_mapIdx]

theorem endCursor_edgesFrom (k : Nat) {xs : List μ} (h : xs ≠ []) :
    (edgesFrom codec convert k xs).getLast?.map (·.cursor) =
      some (codec.encode (k + xs.length)) := by
  have hlength : (edgesFrom codec convert k xs).length = xs.length := by
    rw [edgesFrom, List.length_mapIdx]
  have hpos : 0 < xs.length := List.length_pos_iff.mpr h
  rw [List.getLast?_eq_getElem?, getElem?_edgesFrom, hlength, List.getElem?_eq_getElem (by omega)]
  simp only [Option.map_some, Option.some.injEq]
  exact congrArg codec.encode (by omega)

end Pages

section Listing

variable {α : Type u}

/-- Asks for page after page, each with the end cursor of the one before, until there is none. -/
def collect (query : Option String → Except QueryError (Connection α)) :
    Nat → Option String → Option (List α)
  | 0, _ => none
  | fuel + 1, cursor =>
    match query cursor with
    | .error _ => none
    | .ok page =>
      if page.hasNextPage then (collect query fuel page.endCursor).map (page.nodes ++ ·)
      else some page.nodes

/-- A page that a client has got, by no cursor or by that of an edge of such a page, and the number
of items that come before it. -/
inductive Returned (query : Option String → Option Nat → Except QueryError (Connection α)) :
    Nat → Connection α → Prop
  | first {limit : Option Nat} {page : Connection α} (h : query none limit = .ok page) :
    Returned query 0 page
  | next {start i : Nat} {limit : Option Nat} {page page' : Connection α} {edge : Edge α}
    (h : Returned query start page) (hedge : page.edges[i]? = some edge)
    (h' : query (some edge.cursor) limit = .ok page') : Returned query (start + i + 1) page'

/-- The listing loses and repeats no item, whichever of these limits are asked for. -/
structure ListsItems (query : Option String → Option Nat → Except QueryError (Connection α))
    (limits : Limits) (Admits : Option Nat → Prop) (items : List α) : Prop where
  all : ∀ limit, Admits limit → ∀ fuel, items.length < fuel →
    collect (query · limit) fuel none = some items
  edge : ∀ start page, Returned query start page → ∀ (i : Nat) (edge : Edge α),
    page.edges[i]? = some edge → items[start + i]? = some edge.node
  resume : ∀ start page, Returned query start page → ∀ (i : Nat) (edge : Edge α),
    page.edges[i]? = some edge → ∀ limit, Admits limit →
      ∃ next, query (some edge.cursor) limit = .ok next ∧
        next.nodes = (items.drop (start + i + 1)).take (limits.effective limit)
  previous : ∀ start page, Returned query start page → (page.hasPreviousPage ↔ 0 < start)

end Listing

section Listing

variable {α : Type u} {μ : Type v} {codec : OpaqueCursor Nat} {convert : μ → α}
  {items : List μ} {limits : Limits} {invalidCursor : String → String}
  {server : ListOptions → Answer μ}

theorem collect_resolvePage (hserver : ServesByOffset server items) {limit : Option Nat}
    (hlimit : limits.Accepts limit) (fuel : Nat) {k : Nat} {cursor : Option String}
    (hcursor : CursorAt codec k cursor) (hfuel : items.length < k + fuel) (hk : k ≤ items.length) :
    collect (resolvePage codec convert server limits invalidCursor · limit) fuel cursor =
      some ((items.drop k).map convert) := by
  induction fuel generalizing k cursor with
  | zero => omega
  | succ fuel ih =>
    have hpos := Limits.effective_pos hlimit
    rw [collect, resolvePage_eq_ok hserver hlimit hcursor]
    simp only [Connection.nodes, Connection.endCursor, nodes_edgesFrom, decide_eq_true_eq]
    split_ifs with hnext
    · have hlength : ((items.drop k).take (limits.effective limit)).length =
          limits.effective limit := by
        rw [List.length_take, List.length_drop]
        omega
      have hne : (items.drop k).take (limits.effective limit) ≠ [] := by
        apply List.ne_nil_of_length_pos
        omega
      rw [endCursor_edgesFrom k hne, hlength, ih (.inl rfl) (by omega) (by omega), Option.map_some,
        ← List.map_append, ← List.drop_drop, List.take_append_drop]
    · rw [List.take_of_length_le]
      rw [List.length_drop]
      omega

theorem accepts_of_resolvePage_eq_ok {cursor : Option String} {limit : Option Nat}
    {page : Connection α}
    (h : resolvePage codec convert server limits invalidCursor cursor limit = .ok page) :
    limits.Accepts limit := by
  by_contra hlimit
  rw [resolvePage, if_neg hlimit] at h
  cases h

/-- A page that a client has got is the part of the list behind the items before it. -/
theorem eq_of_returned (hserver : ServesByOffset server items) {start : Nat} {page : Connection α}
    (h : Returned (resolvePage codec convert server limits invalidCursor) start page) :
    ∃ count, page =
      { hasPreviousPage := 0 < start
        hasNextPage := start + count < items.length
        edges := edgesFrom codec convert start ((items.drop start).take count) } := by
  suffices ∃ limit cursor, CursorAt codec start cursor ∧
      resolvePage codec convert server limits invalidCursor cursor limit = .ok page by
    obtain ⟨limit, cursor, hcursor, hpage⟩ := this
    have heq : resolvePage codec convert server limits invalidCursor cursor limit = .ok _ :=
      resolvePage_eq_ok hserver (accepts_of_resolvePage_eq_ok hpage) hcursor
    exact ⟨_, Except.ok.inj (hpage.symm.trans heq)⟩
  induction h with
  | first hpage => exact ⟨_, _, .inr ⟨rfl, rfl⟩, hpage⟩
  | next _ hedge hpage ih =>
    obtain ⟨limit, cursor, hcursor, hprevious⟩ := ih
    rw [resolvePage_eq_ok hserver (accepts_of_resolvePage_eq_ok hprevious) hcursor] at hprevious
    obtain rfl := Except.ok.inj hprevious
    rw [getElem?_edgesFrom] at hedge
    obtain ⟨item, -, rfl⟩ := Option.map_eq_some_iff.mp hedge
    exact ⟨_, _, .inl rfl, hpage⟩

/-- An edge of such a page has the item of its place and the cursor for what comes after it. -/
theorem edge_of_returned (hserver : ServesByOffset server items) {start i : Nat}
    {page : Connection α} {edge : Edge α}
    (h : Returned (resolvePage codec convert server limits invalidCursor) start page)
    (hedge : page.edges[i]? = some edge) :
    (items.map convert)[start + i]? = some edge.node ∧
      edge.cursor = codec.encode (start + i + 1) := by
  obtain ⟨count, rfl⟩ := eq_of_returned hserver h
  rw [getElem?_edgesFrom] at hedge
  obtain ⟨item, hitem, rfl⟩ := Option.map_eq_some_iff.mp hedge
  have hi : i < count := by
    have := (List.getElem?_eq_some_iff.mp hitem).1
    rw [List.length_take] at this
    omega
  rw [List.getElem?_take_of_lt hi, List.getElem?_drop] at hitem
  rw [List.getElem?_map, hitem]
  exact ⟨rfl, rfl⟩

theorem listsItems_resolvePage (hserver : ServesByOffset server items) :
    ListsItems (resolvePage codec convert server limits invalidCursor) limits limits.Accepts
      (items.map convert) where
  all limit hlimit fuel hfuel := by
    rw [List.length_map] at hfuel
    exact collect_resolvePage hserver hlimit fuel (.inr ⟨rfl, rfl⟩) (by omega) (Nat.zero_le _)
  edge start page hpage i edge hedge := (edge_of_returned hserver hpage hedge).1
  resume start page hpage i edge hedge limit hlimit := by
    rw [(edge_of_returned hserver hpage hedge).2]
    refine ⟨_, resolvePage_eq_ok hserver hlimit (.inl rfl), ?_⟩
    rw [Connection.nodes, nodes_edgesFrom, List.map_take, List.map_drop]
  previous start page hpage := by
    obtain ⟨count, rfl⟩ := eq_of_returned hserver hpage
    exact decide_eq_true_iff

end Listing

/-- An Argo server that lists these items. -/
structure OffsetServer {μ : Type v} (items : List μ) where
  answer : ListOptions → Answer μ
  serves : ServesByOffset answer items

def OffsetServer.ofItems {μ : Type v} (items : List μ) : OffsetServer items where
  answer options := .listed
    { items := (items.drop (options.continueAt.getD 0)).take options.limit
      continueToken :=
        if options.continueAt.getD 0 + options.limit < items.length then
          some (toString (options.continueAt.getD 0 + options.limit))
        else none }
  serves options := by
    refine ⟨_, rfl, rfl, ?_⟩
    split_ifs with h <;> simp [h]

/-- Both listings lose and repeat nothing, with every limit that their validators let through. -/
theorem listsItems_workflows_and_workflowTemplates {α : Type u} {β : Type v} {μ : Type w}
    {ν : Type w} (codec : OpaqueCursor Nat) (convert : μ → α) (convertTemplate : ν → β)
    {items : List μ} {templates : List ν} (server : OffsetServer items)
    (templateServer : OffsetServer templates) :
    ListsItems (workflows codec convert server.answer) workflowsLimits workflowsLimits.Accepts
        (items.map convert) ∧
      ListsItems (workflowTemplates codec convertTemplate templateServer.answer)
        workflowTemplatesLimits workflowTemplatesLimits.Accepts (templates.map convertTemplate) :=
  ⟨listsItems_resolvePage server.serves, listsItems_resolvePage templateServer.serves⟩

def decimalCursor : OpaqueCursor Nat where
  encode := toString
  decode s :=
    match s.toNat? with
    | some n => .ok n
    | none => .error "invalid digit found in string"
  decode_encode n := by simp [Nat.toString_eq_repr]

/-- A limit above the maximum is turned down, so not every limit of at least 1 lists the items. -/
theorem not_listsItems_workflows :
    ¬ ∀ items : List Nat,
      ListsItems (workflows decimalCursor id (OffsetServer.ofItems items).answer)
        workflowsLimits (∀ n ∈ ·, 1 ≤ n) items := by
  intro h
  have hall := (h []).all (some 31) (by simp) 1 (by simp)
  simp [collect, workflows, resolvePage, Limits.Accepts, workflowsLimits] at hall

end Workflows.GraphProxy
