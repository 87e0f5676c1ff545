import Workflows.Events.EventSourceConfig
import Workflows.Events.StompServer

/-!
# The streams of the event server

Each request to start an event source gets a connection to its broker, a listener and a queue of
its own. The listener puts messages into the queue while frames arrive, and the stream of the
request takes them out, in any interleaving of the requests.
-/

namespace Workflows.Events.Stomp

variable {P : Packages} {ints : IntReader}

section Servicer

structure GenericEvent where
  name : String
  payload : List UInt8
  deriving DecidableEq

def buildEvent (payload : String) : GenericEvent where
  name := "workflow-trigger"
  payload := payload.toList.flatMap String.utf8EncodeChar

/-- How a request goes on: without a connection where there is no configuration, and not at all
where the broker cannot be connected to. -/
inductive Connection where
  | missing
  | refused
  | connected (config : EventSourceConfig)
  deriving DecidableEq

structure Request where
  config : List UInt8
  connects : Bool

def createConnection (ints : IntReader) (request : Request) : Connection :=
  match parseConfig ints request.config with
  | none => .missing
  | some config => if request.connects then .connected config else .refused

/-- A call of `StartEventSource`. -/
structure Call (P : Packages) where
  connection : Connection
  listener : StartMessages P
  queue : List String
  yielded : List GenericEvent

def Call.start (P : Packages) (connection : Connection) : Call P where
  connection := connection
  listener := P.expiringDict.new 100 maxAge
  queue := []
  yielded := []

def Connection.isOpen : Connection → Bool
  | .connected _ => true
  | _ => false

def Call.onFrame (call : Call P) (frame : Frame) : Call P :=
  if call.connection.isOpen then
    let handled := handle call.listener frame
    { call with listener := handled.2, queue := call.queue ++ handled.1 }
  else call

/-- One turn of the loop: an empty queue is asked again. -/
def Call.get (call : Call P) : Call P :=
  if call.connection = .refused then call
  else
    match call.queue with
    | [] => call
    | message :: queue => { call with queue, yielded := call.yielded ++ [buildEvent message] }

inductive ServerStep where
  | startEventSource (request : Request)
  | receive (call : Nat) (frame : Frame)
  | get (call : Nat)

def ServerStep.run (ints : IntReader) (calls : List (Call P)) : ServerStep → List (Call P)
  | .startEventSource request => calls ++ [.start P (createConnection ints request)]
  | .receive call frame => calls.modify call fun c => c.onFrame frame
  | .get call => calls.modify call Call.get

def serve (P : Packages) (ints : IntReader) (steps : List ServerStep) : List (Call P) :=
  steps.foldl (ServerStep.run ints) []

end Servicer

section Listener

/-- What a listener puts into its queue while it receives the frames. -/
def emittedFrom (startMessages : StartMessages P) : List Frame → List String
  | [] => []
  | frame :: frames =>
    (handle startMessages frame).1 ++ emittedFrom (handle startMessages frame).2 frames

variable (P) in
def emitted (frames : List Frame) : List String :=
  emittedFrom (P.expiringDict.new 100 maxAge) frames

theorem emittedFrom_append_singleton (s : StartMessages P) (frames : List Frame) (frame : Frame) :
    emittedFrom s (frames ++ [frame]) = emittedFrom s frames ++
      (handle (frames.foldl (fun s frame => (handle s frame).2) s) frame).1 := by
  induction frames generalizing s with
  | nil => simp [emittedFrom]
  | cons first frames ih =>
    rw [List.cons_append, emittedFrom, emittedFrom, ih, List.append_assoc, List.foldl_cons]

theorem emitted_append_singleton (frames : List Frame) (frame : Frame) :
    emitted P (frames ++ [frame]) = emitted P frames ++ (handle (after P frames) frame).1 :=
  emittedFrom_append_singleton _ frames frame

variable (P) in
/-- The body of a frame with a start message whose uid can be remembered. -/
def startBody (frame : Frame) : Option String :=
  match frame.body with
  | .bytes => none
  | .str body =>
    if ∃ m ∈ message P "start" frame, uidOf m "uid" ≠ none then some body else none

theorem handle_of_startBody {s : StartMessages P} {frame : Frame} {body : String}
    (h : startBody P frame = some body) : (handle s frame).1 = [body] := by
  rw [startBody] at h
  split at h
  next => cases h
  next text htext =>
    split_ifs at h with hstart
    obtain rfl := Option.some_inj.mp h
    obtain ⟨m, hm, huid⟩ := hstart
    obtain ⟨put, hput, hhandle⟩ := put_of_start (s := s) hm huid
    rw [htext] at hput
    rw [hhandle, Body.str.inj hput]

theorem length_handle_le (s : StartMessages P) (frame : Frame) :
    (handle s frame).1.length ≤ 1 := by
  rw [handle, onMessage]
  cases frame.body with
  | bytes => exact Nat.zero_le 1
  | str body =>
    cases hloads : P.loads body with
    | none => simp [hloads]
    | some m =>
      cases htype : messageType m with
      | none => simp [hloads, htype]
      | some type =>
        simp only [hloads, htype, Option.bind_eq_bind, Option.bind_some]
        split_ifs
        · cases addStartMessage s frame.time m <;> simp
        · cases mergeStopWithStart s frame.time m with
          | none => simp
          | some result =>
            dsimp only [Option.bind_some, Option.getD_some]
            split_ifs
            · exact le_rfl
            · exact Nat.zero_le 1
        · exact Nat.zero_le 1

/-- Each start message is passed on as it is, in its place, and no frame gives two messages. -/
theorem emitted_starts (frames : List Frame) :
    (frames.filterMap (startBody P)).Sublist (emitted P frames) ∧
      (emitted P frames).length ≤ frames.length := by
  induction frames using List.reverseRecOn with
  | nil => exact ⟨List.Sublist.refl [], le_rfl⟩
  | append_singleton frames frame ih =>
    have hle := length_handle_le (after P frames) frame
    rw [emitted_append_singleton, List.filterMap_append]
    constructor
    · refine ih.1.append ?_
      cases hbody : startBody P frame with
      | none => simp [hbody]
      | some body =>
        rw [handle_of_startBody hbody]
        simp [hbody]
    · simp only [List.length_append, List.length_singleton]
      omega

end Listener

section Streams

/-- A request and the frames that have reached it. -/
structure Served where
  request : Request
  frames : List Frame

def ServerStep.serve (served : List Served) : ServerStep → List Served
  | .startEventSource request => served ++ [⟨request, []⟩]
  | .receive call frame => served.modify call fun s => { s with frames := s.frames ++ [frame] }
  | .get _ => served

/-- What each call is given, without the queues. -/
def history (steps : List ServerStep) : List Served :=
  steps.foldl ServerStep.serve []

variable (ints) in
def Served.heard (served : Served) : List Frame :=
  if (createConnection ints served.request).isOpen then served.frames else []

variable (ints) in
/-- The stream and the queue behind it hold what the frames of this request alone give. -/
structure Follows (served : Served) (call : Call P) : Prop where
  connection : call.connection = createConnection ints served.request
  listener : call.listener = after P (served.heard ints)
  delivered : call.yielded ++ call.queue.map buildEvent =
    (emitted P (served.heard ints)).map buildEvent

theorem follows_start (request : Request) :
    Follows ints ⟨request, []⟩ (Call.start P (createConnection ints request)) := by
  have hheard : Served.heard ints ⟨request, []⟩ = [] := by
    rw [Served.heard]
    split_ifs <;> rfl
  refine ⟨rfl, ?_, ?_⟩
  · rw [hheard]
    rfl
  · rw [hheard]
    rfl

theorem Follows.onFrame {served : Served} {call : Call P} (h : Follows ints served call)
    (frame : Frame) :
    Follows ints { served with frames := served.frames ++ [frame] } (call.onFrame frame) := by
  obtain ⟨hconnection, hlistener, hdelivered⟩ := h
  rw [Call.onFrame]
  split_ifs with hopen
  · rw [hconnection] at hopen
    rw [Served.heard, if_pos hopen] at hlistener hdelivered
    refine ⟨hconnection, ?_, ?_⟩
    · rw [Served.heard, if_pos hopen, after_append_singleton, ← hlistener]
    · rw [Served.heard, if_pos hopen, emitted_append_singleton, ← hlistener, List.map_append,
        List.map_append, ← hdelivered, List.append_assoc]
  · rw [hconnection] at hopen
    rw [Served.heard, if_neg hopen] at hlistener hdelivered
    refine ⟨hconnection, ?_, ?_⟩
    · rw [Served.heard, if_neg hopen, hlistener]
    · rw [Served.heard, if_neg hopen, hdelivered]

theorem Follows.get {served : Served} {call : Call P} (h : Follows ints served call) :
    Follows ints served call.get := by
  rw [Call.get]
  split_ifs
  · exact h
  · split
    next => exact h
    next message queue hqueue =>
      refine ⟨h.connection, h.listener, ?_⟩
      rw [← h.delivered, hqueue]
      simp

theorem forall₂_modify {α β : Type} {R : α → β → Prop} {f : α → α} {g : β → β} {xs : List α}
    {ys : List β} (h : List.Forall₂ R xs ys) (hstep : ∀ x y, R x y → R (f x) (g y)) (i : Nat) :
    List.Forall₂ R (xs.modify i f) (ys.modify i g) := by
  induction h generalizing i with
  | nil => simp
  | cons hxy hrest ih =>
    cases i with
    | zero => exact .cons (hstep _ _ hxy) hrest
    | succ i => exact .cons hxy (ih i)

/-- One step keeps the calls in line with what they are given. -/
theorem forall₂_run {served : List Served} {calls : List (Call P)}
    (h : List.Forall₂ (Follows ints) served calls) (step : ServerStep) :
    List.Forall₂ (Follows ints) (step.serve served) (step.run ints calls) := by
  cases step with
  | startEventSource request => exact List.rel_append h (.cons (follows_start request) .nil)
  | receive call frame => exact forall₂_modify h (fun _ _ hfollows => hfollows.onFrame frame) call
  | get call =>
    have hid : served = served.modify call id := (List.modify_id call served).symm
    rw [ServerStep.serve, hid]
    exact forall₂_modify h (fun _ _ hfollows => hfollows.get) call

theorem follows_serve (steps : List ServerStep) :
    List.Forall₂ (Follows ints) (history steps) (serve P ints steps) := by
  induction steps using List.reverseRecOn with
  | nil => exact .nil
  | append_singleton steps step ih =>
    rw [history, serve, List.foldl_append, List.foldl_append]
    exact forall₂_run ih step

theorem iterate_get (call : Call P) (hopen : call.connection.isOpen) :
    Call.get^[call.queue.length] call =
      { call with queue := [], yielded := call.yielded ++ call.queue.map buildEvent } := by
  obtain ⟨connection, listener, queue, yielded⟩ := call
  have hne : connection ≠ .refused := by
    rintro rfl
    cases hopen
  induction queue generalizing yielded with
  | nil => simp
  | cons message queue ih =>
    have hget : (Call.mk connection listener (message :: queue) yielded).get =
        ⟨connection, listener, queue, yielded ++ [buildEvent message]⟩ := if_neg hne
    dsimp only [List.length_cons]
    rw [Function.iterate_succ_apply, hget, ih _ hopen]
    simp

theorem serve_gets (steps : List ServerStep) (i n : Nat) :
    serve P ints (steps ++ List.replicate n (.get i)) =
      (serve P ints steps).modify i Call.get^[n] := by
  induction n with
  | zero => simp
  | succ n ih =>
    rw [List.replicate_succ', ← List.append_assoc, serve, List.foldl_append, ← serve, ih,
      Function.iterate_succ', ← List.modify_modify_eq]
    rfl

end Streams

end Workflows.Events.Stomp
