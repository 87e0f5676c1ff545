import Workflows.Foundations.Json
import Workflows.GraphProxy.Pagination

/-!
# The listing of Triggers

The resolver `triggers` gives every edge of a page the continue token that Kubernetes sent with the
page, which stands behind the last item of the page and is missing from the last page.
-/

namespace Workflows.GraphProxy

structure Trigger where
  name : Option String
  labels : Option (List (String × String))
  templateRef : Option String
  deriving DecidableEq

structure TriggerGQL where
  name : Option String
  templateRef : Option String
  beamline : Option String
  deriving DecidableEq

def TriggerGQL.ofTrigger (t : Trigger) : TriggerGQL where
  name := t.name
  templateRef := t.templateRef
  beamline := t.labels.bind (·.lookup "workflows.diamond.ac.uk/beamline")

inductive TriggerError where
  | tokenDecodeError
  | missingPosixUid
  | missingToken
  | configInferError
  | clientCreationError
  deriving DecidableEq

namespace TriggerError

def message : TriggerError → String
  | tokenDecodeError => "Unable to decode JWT"
  | missingPosixUid => "Posix UID missing from token claims"
  | missingToken => "Token not found"
  | configInferError => "Unable to infer Kubernetes config"
  | clientCreationError => "Unable to create Kubernetes config"

end TriggerError

structure ListParams where
  labels : String
  limit : Nat
  continueToken : Option String
  deriving DecidableEq

inductive TriggersError where
  | trigger (e : TriggerError)
  | cursorNotValid
  | api (message : String)
  deriving DecidableEq

def TriggersError.message : TriggersError → String
  | trigger e => e.message
  | cursorNotValid => "Cursor not valid"
  | api message => message

abbrev TriggerApi := ListParams → Except String (ItemList Trigger)

/-- What a request brings along: the client for Kubernetes and the claims of the caller's token. -/
structure TriggerContext where
  client : Except TriggerError TriggerApi
  claims : Except TriggerError Json

def getPosixFromCtx (ctx : TriggerContext) : Except TriggerError String :=
  match ctx.claims with
  | .error e => .error e
  | .ok claims =>
    match claims.child "posix_uid" with
    | some (.string uid) => .ok uid
    | _ => .error .missingPosixUid

def posixUidLabel (posixUid : String) : String := "workflows.diamond.ac.uk/posixuid=" ++ posixUid

section Resolver

variable (codec : OpaqueCursor String) (ctx : TriggerContext)

def decodeContinueToken : Option String → Except TriggersError (Option String)
  | none => .ok none
  | some cursor =>
    match codec.decode cursor with
    | .ok token => .ok (some token)
    | .error _ => .error .cursorNotValid

def triggersLimit (limit : Option Nat) : Nat := limit.getD 10

def triggerPage (continueToken : Option String) (response : ItemList Trigger) :
    Connection TriggerGQL where
  hasPreviousPage := continueToken.isSome
  hasNextPage := response.continueToken.isSome
  edges := response.items.map fun trigger =>
    { cursor := codec.encode (response.continueToken.getD "")
      node := .ofTrigger trigger }

def triggers (cursor : Option String) (limit : Option Nat) :
    Except TriggersError (Connection TriggerGQL) :=
  match ctx.client with
  | .error e => .error (.trigger e)
  | .ok api =>
    match getPosixFromCtx ctx with
    | .error e => .error (.trigger e)
    | .ok posixUid =>
      match decodeContinueToken codec cursor with
      | .error e => .error e
      | .ok continueToken =>
        let params : ListParams :=
          { labels := posixUidLabel posixUid, limit := triggersLimit limit, continueToken }
        match api params with
        | .error message => .error (.api message)
        | .ok response => .ok (triggerPage codec continueToken response)

end Resolver

/-- A list that Kubernetes gives out in parts. A token stands for the number of items before the
place at which it continues; the empty one lists from the start. -/
structure ListServer (labels : String) (items : List Trigger) where
  answer : TriggerApi
  position : String → Option Nat
  position_empty : position "" = some 0
  lists : ∀ params : ListParams, params.labels = labels → 1 ≤ params.limit →
    ∀ k, position (params.continueToken.getD "") = some k →
      ∃ response, answer params = .ok response ∧
        response.items = (items.drop k).take params.limit ∧
        if k + params.limit < items.length then
          ∃ token, response.continueToken = some token ∧ position token = some (k + params.limit)
        else response.continueToken.getD "" = ""

/-- A context in which the caller's Triggers are listed. -/
structure TriggerListing (items : List Trigger) where
  posixUid : String
  server : ListServer (posixUidLabel posixUid) items
  claims : Json
  claims_posixUid : claims.child "posix_uid" = some (.string posixUid)

namespace TriggerListing

variable {items : List Trigger} (listing : TriggerListing items)

def ctx : TriggerContext where
  client := .ok listing.server.answer
  claims := .ok listing.claims

theorem client_ctx : listing.ctx.client = .ok listing.server.answer := rfl

theorem getPosixFromCtx_ctx : getPosixFromCtx listing.ctx = .ok listing.posixUid := by
  simp only [getPosixFromCtx, ctx, listing.claims_posixUid]

end TriggerListing

section Pages

variable {codec : OpaqueCursor String} {items : List Trigger} {listing : TriggerListing items}

/-- The place in the list that a cursor stands for, none or one of a page. -/
def CursorPosition (codec : OpaqueCursor String) (listing : TriggerListing items) (k : Nat)
    (cursor : Option String) : Prop :=
  ∃ continueToken, decodeContinueToken codec cursor = .ok continueToken ∧
    listing.server.position (continueToken.getD "") = some k

theorem cursorPosition_none : CursorPosition codec listing 0 none :=
  ⟨none, rfl, listing.server.position_empty⟩

theorem cursorPosition_encode {token : String} {k : Nat} :
    CursorPosition codec listing k (some (codec.encode token)) ↔
      listing.server.position token = some k := by
  simp [CursorPosition, decodeContinueToken, codec.decode_encode]

/-- The place at which the cursor of every edge of a page continues. -/
def nextPosition (items : List Trigger) (stop : Nat) : Nat :=
  if stop < items.length then stop else 0

theorem nextPosition_le (items : List Trigger) (stop : Nat) :
    nextPosition items stop ≤ items.length := by
  rw [nextPosition]
  split_ifs <;> omega

theorem nextPosition_eq_succ_iff {items : List Trigger} {stop k : Nat} :
    nextPosition items stop = k + 1 ↔ stop = k + 1 ∧ k + 1 < items.length := by
  constructor
  · intro h
    rw [nextPosition] at h
    split_ifs at h with hstop
    omega
  · rintro ⟨rfl, hk⟩
    exact if_pos hk

theorem triggers_eq_ok {k : Nat} {cursor : Option String} {limit : Option Nat}
    (hcursor : CursorPosition codec listing k cursor) (hlimit : 1 ≤ triggersLimit limit) :
    ∃ page, triggers codec listing.ctx cursor limit = .ok page ∧
      page.nodes = ((items.drop k).take (triggersLimit limit)).map .ofTrigger ∧
      ∀ edge ∈ page.edges, CursorPosition codec listing
        (nextPosition items (k + triggersLimit limit)) (some edge.cursor) := by
  obtain ⟨continueToken, hdecode, hposition⟩ := hcursor
  obtain ⟨response, hanswer, hitems, htoken⟩ := listing.server.lists
    { labels := posixUidLabel listing.posixUid, limit := triggersLimit limit, continueToken }
    rfl hlimit k hposition
  refine ⟨triggerPage codec continueToken response, ?_, ?_, fun edge hedge => ?_⟩
  · simp only [triggers, listing.client_ctx, listing.getPosixFromCtx_ctx, hdecode, hanswer]
  · rw [← hitems, Connection.nodes, triggerPage, List.map_map]
    rfl
  · obtain ⟨trigger, -, rfl⟩ := List.mem_map.mp hedge
    rw [cursorPosition_encode, nextPosition]
    split_ifs at htoken ⊢ with hremain
    · obtain ⟨token, htoken, hposition⟩ := htoken
      rw [htoken]
      exact hposition
    · rw [htoken]
      exact listing.server.position_empty

/-- A page that a client has got, by no cursor or by that of an edge of such a page, the number of
items that come before it and the limit that was asked for. -/
inductive TriggerPage (codec : OpaqueCursor String) (listing : TriggerListing items) :
    Nat → Option Nat → Connection TriggerGQL → Prop
  | first {limit : Option Nat} {page : Connection TriggerGQL} (hlimit : 1 ≤ triggersLimit limit)
    (h : triggers codec listing.ctx none limit = .ok page) : TriggerPage codec listing 0 limit page
  | next {start k : Nat} {limit limit' : Option Nat} {page page' : Connection TriggerGQL}
    {edge : Edge TriggerGQL} (h : TriggerPage codec listing start limit page)
    (hedge : edge ∈ page.edges) (hk : CursorPosition codec listing k (some edge.cursor))
    (hlimit : 1 ≤ triggersLimit limit')
    (h' : triggers codec listing.ctx (some edge.cursor) limit' = .ok page') :
    TriggerPage codec listing k limit' page'

/-- The cursor brings what comes after the first `k` items, whatever limit is asked for. -/
def ResumesAfter (codec : OpaqueCursor String) (listing : TriggerListing items) (k : Nat)
    (cursor : String) : Prop :=
  ∀ limit, 1 ≤ triggersLimit limit →
    ∃ next, triggers codec listing.ctx (some cursor) limit = .ok next ∧
      next.nodes = ((items.drop k).take (triggersLimit limit)).map .ofTrigger

theorem resumesAfter_iff {k stop : Nat} {cursor : String} (hk : k ≤ items.length)
    (hstop : stop ≤ items.length) (hcursor : CursorPosition codec listing stop (some cursor)) :
    ResumesAfter codec listing k cursor ↔ stop = k := by
  refine ⟨fun h => ?_, ?_⟩
  · have hlimit : 1 ≤ triggersLimit (some (items.length + 1)) := Nat.le_add_left 1 items.length
    obtain ⟨next, hnext, hnodes⟩ := h _ hlimit
    obtain ⟨page, hpage, hnodes', -⟩ := triggers_eq_ok hcursor hlimit
    obtain rfl := Except.ok.inj (hpage.symm.trans hnext)
    have hlength := congrArg List.length (hnodes'.symm.trans hnodes)
    simp only [triggersLimit, Option.getD_some, List.length_map, List.length_take,
      List.length_drop] at hlength
    omega
  · rintro rfl limit hlimit
    obtain ⟨page, hpage, hnodes, -⟩ := triggers_eq_ok hcursor hlimit
    exact ⟨page, hpage, hnodes⟩

theorem TriggerPage.eq_ok {start : Nat} {limit : Option Nat} {page : Connection TriggerGQL}
    (h : TriggerPage codec listing start limit page) :
    1 ≤ triggersLimit limit ∧
      ∃ cursor, CursorPosition codec listing start cursor ∧
        triggers codec listing.ctx cursor limit = .ok page := by
  cases h with
  | first hlimit h => exact ⟨hlimit, none, cursorPosition_none, h⟩
  | next _ _ hk hlimit h => exact ⟨hlimit, _, hk, h⟩

/-- An edge resumes exactly when its page is full, it is the last of it and items remain. -/
theorem resumesAfter_edge_iff {start i : Nat} {limit : Option Nat} {page : Connection TriggerGQL}
    {edge : Edge TriggerGQL} (h : TriggerPage codec listing start limit page)
    (hedge : page.edges[i]? = some edge) :
    ResumesAfter codec listing (start + i + 1) edge.cursor ↔
      i + 1 = triggersLimit limit ∧ start + i + 1 < items.length := by
  obtain ⟨hlimit, cursor, hcursor, hpage⟩ := h.eq_ok
  obtain ⟨page', hpage', hnodes, hnext⟩ := triggers_eq_ok hcursor hlimit
  obtain rfl := Except.ok.inj (hpage'.symm.trans hpage)
  have hi : i < page'.nodes.length := by
    rw [Connection.nodes, List.length_map]
    exact (List.getElem?_eq_some_iff.mp hedge).1
  rw [hnodes, List.length_map, List.length_take, List.length_drop] at hi
  rw [resumesAfter_iff (by omega) (nextPosition_le _ _) (hnext edge (List.mem_of_getElem? hedge)),
    nextPosition_eq_succ_iff]
  omega

end Pages

section Examples

def plainCursor : OpaqueCursor String where
  encode := id
  decode := .ok
  decode_encode _ := rfl

/-- A server whose token is a text of the decimals of the position. -/
def ListServer.decimal (labels : String) (items : List Trigger) : ListServer labels items where
  answer params :=
    match (if params.continueToken.getD "" = "" then some 0
      else (params.continueToken.getD "").toNat?) with
    | none => .error "Gone"
    | some k => .ok
      { items := (items.drop k).take params.limit
        continueToken :=
          if k + params.limit < items.length then some (toString (k + params.limit)) else none }
  position token := if token = "" then some 0 else token.toNat?
  position_empty := rfl
  lists params _ hlimit k hk := by
    rw [hk]
    refine ⟨_, rfl, rfl, ?_⟩
    split_ifs with hremain
    · refine ⟨_, rfl, ?_⟩
      have hne : toString (k + params.limit) ≠ "" := by
        simp [Nat.toString_eq_repr]
      rw [if_neg hne, Nat.toString_eq_repr, Nat.toNat?_repr]
    · rfl

def TriggerListing.decimal (items : List Trigger) : TriggerListing items where
  posixUid := "7357"
  server := .decimal _ items
  claims := .object [("posix_uid", .string "7357")]
  claims_posixUid := rfl

def exampleTriggers : List Trigger :=
  ["example-trigger-bv597", "example-trigger-cht7k"].map fun name =>
    { name := some name, labels := none, templateRef := some "test-trigger" }

theorem resumesAfter_edge_example :
    ResumesAfter plainCursor (TriggerListing.decimal exampleTriggers) 1 "1" := by
  have hlimit : 1 ≤ triggersLimit (some 1) := by decide
  have hpage : TriggerPage plainCursor (TriggerListing.decimal exampleTriggers) 0 (some 1) _ :=
    .first hlimit rfl
  exact (resumesAfter_edge_iff hpage (rfl : _[0]? = _)).mpr (by decide)

/-- The first edge of a page that shows the whole list resumes at the start of it. -/
theorem not_resumesAfter_edge :
    ¬ ∀ (start i : Nat) (limit : Option Nat) (page : Connection TriggerGQL)
      (edge : Edge TriggerGQL),
      TriggerPage plainCursor (TriggerListing.decimal exampleTriggers) start limit page →
        page.edges[i]? = some edge →
          ResumesAfter plainCursor (TriggerListing.decimal exampleTriggers) (start + i + 1)
            edge.cursor := by
  intro h
  have hlimit : 1 ≤ triggersLimit none := by decide
  have hresumes : ResumesAfter plainCursor (TriggerListing.decimal exampleTriggers) 1 "" :=
    h 0 0 none _ _ (.first hlimit rfl) rfl
  have hcursor : CursorPosition plainCursor (TriggerListing.decimal exampleTriggers) 0 (some "") :=
    ⟨some "", rfl, rfl⟩
  rw [resumesAfter_iff (by decide) (by decide) hcursor] at hresumes
  cases hresumes

end Examples

end Workflows.GraphProxy
