import Workflows.Foundations.ExpiringDict
import Workflows.Foundations.JsonMerge

/-!
# The event source for messages of scans

The listener of the broker passes on every start message and remembers it, and a stop message is
passed on merged with the start of its run. The starts are remembered for twelve seconds: the `^`
of the intended day is not a power.
-/

namespace Workflows.Events.Stomp

open ExpiringDict (Entry)

section Values

/-- `message.get(key, default)`, which only a dict has. -/
def dictGet (message : Json) (key : String) (default : Json) : Option Json :=
  if message.isObject then some ((message.field key).getD default) else none

/-- The text of a number is its `repr`. -/
def truthy : Json → Bool
  | .null => false
  | .bool b => b
  | .number text => text ∉ ["0", "0.0", "-0.0"]
  | .string s => s ≠ ""
  | .array items => !items.isEmpty
  | .object entries => !entries.isEmpty

/-- What a value is as a key of a dict. Lists and dicts are not hashable. A uid is a string: that
`1` and `1.0` are one key is not seen here. -/
def hash : Json → Option Json.Head
  | .array _ | .object _ => none
  | value => some value.head

/-- `None` where the document has no such uid. -/
def uidOf (message : Json) (key : String) : Option (Option Json.Head) := do
  let doc ← dictGet message "doc" (.object [])
  let uid ← dictGet doc key .null
  if truthy uid then (hash uid).map some else some none

def messageType (message : Json) : Option Json.Head := (dictGet message "name" .null).map Json.head

theorem isObject_of_messageType {message : Json} {type : Json.Head}
    (h : messageType message = some type) : message.isObject = true := by
  rw [messageType, dictGet] at h
  split_ifs at h with hobject
  · exact hobject
  · cases h

theorem field_of_messageType {message : Json} {name : String}
    (h : messageType message = some (.string name)) :
    message.field "name" = some (.string name) := by
  rw [messageType, dictGet, if_pos (isObject_of_messageType h), Option.map_some,
    Option.some_inj] at h
  cases hfield : message.field "name" with
  | none =>
    rw [hfield] at h
    cases h
  | some value =>
    rw [hfield] at h
    cases value with
    | string text => exact congrArg some (congrArg Json.string (Json.Head.string.inj h))
    | _ => cases h

theorem messageType_of_field {message : Json} {name : String}
    (h : message.field "name" = some (.string name)) :
    messageType message = some (.string name) := by
  rw [messageType, dictGet, if_pos (Json.isObject_of_field h), h]
  rfl

theorem truthy_of_messageType {message : Json} {name : String}
    (h : messageType message = some (.string name)) : truthy message = true := by
  obtain ⟨entries, rfl⟩ := Json.exists_object (isObject_of_messageType h)
  cases entries with
  | nil => cases h
  | cons entry entries => rfl

end Values

inductive Body where
  | str (text : String)
  | bytes

/-- A frame and when it is received. -/
structure Frame where
  time : ℚ
  body : Body

/-- The packages of the listener: `json`, `expiringdict` and the `conservative_merger`. A text that
is no JSON has no value. -/
structure Packages where
  loads : String → Option Json
  dumps : Json → String
  expiringDict : ExpiringDict Json.Head Json
  merger : ConservativeMerger

variable (P : Packages)

def maxAge : Nat := 60 ^^^ 2 * 24

abbrev StartMessages := P.expiringDict.Dict 100 maxAge

variable {P}

section Listener

/-- `none` where an exception is raised. -/
def addStartMessage (startMessages : StartMessages P) (now : ℚ) (message : Json) :
    Option (StartMessages P) :=
  (uidOf message "uid").map fun
    | some uid => P.expiringDict.setItem startMessages now uid message
    | none => startMessages

def mergeStopWithStart (startMessages : StartMessages P) (now : ℚ) (stopMessage : Json) :
    Option (Json × StartMessages P) :=
  (uidOf stopMessage "run_start").map fun
    | some uid =>
      let (startMessage, startMessages) := P.expiringDict.pop startMessages now uid
      match startMessage.filter truthy with
      | some startMessage => (P.merger.merge stopMessage startMessage, startMessages)
      | none => (stopMessage, startMessages)
    | none => (stopMessage, startMessages)

def onMessage (startMessages : StartMessages P) (frame : Frame) :
    Option (List String × StartMessages P) :=
  match frame.body with
  | .bytes => some ([], startMessages)
  | .str body => do
    let messageJson ← P.loads body
    let type ← messageType messageJson
    if type = .string "start" then
      let startMessages ← addStartMessage startMessages frame.time messageJson
      some ([body], startMessages)
    else if type = .string "stop" then
      let (matched, startMessages) ← mergeStopWithStart startMessages frame.time messageJson
      some (if truthy matched then [P.dumps matched] else [], startMessages)
    else some ([], startMessages)

/-- A frame that raises an exception puts nothing into the queue. -/
def handle (startMessages : StartMessages P) (frame : Frame) : List String × StartMessages P :=
  (onMessage startMessages frame).getD ([], startMessages)

variable (P) in
/-- The start messages that are remembered after the frames. -/
def after (frames : List Frame) : StartMessages P :=
  frames.foldl (fun startMessages frame => (handle startMessages frame).2)
    (P.expiringDict.new 100 maxAge)

theorem after_append_singleton (frames : List Frame) (frame : Frame) :
    after P (frames ++ [frame]) = (handle (after P frames) frame).2 := by
  rw [after, List.foldl_append]
  rfl

end Listener

section Messages

variable (P) in
/-- The JSON value of a frame, if it is a message of this type. -/
def message (type : String) (frame : Frame) : Option Json :=
  match frame.body with
  | .bytes => none
  | .str body => (P.loads body).filter fun m => messageType m = some (.string type)

variable (P) in
/-- The entry for the start message of a run. -/
def started (frame : Frame) : Option (Entry Json.Head Json) := do
  let m ← message P "start" frame
  let uid ← (uidOf m "uid").join
  some ⟨uid, m, frame.time⟩

variable (P) in
/-- The run that a stop message is for. -/
def stopped (frame : Frame) : Option Json.Head :=
  (message P "stop" frame).bind fun m => (uidOf m "run_start").join

/-- The start message that a stop message finds. -/
def startOf (startMessages : StartMessages P) (frame : Frame) : Option Json :=
  (stopped P frame).bind fun uid => (P.expiringDict.pop startMessages frame.time uid).1

variable {s : StartMessages P} {frame : Frame} {e : Entry Json.Head Json} {uid : Json.Head}
  {m : Json} {type : String}

theorem message_eq_some : message P type frame = some m ↔
    ∃ body, frame.body = .str body ∧ P.loads body = some m ∧
      messageType m = some (.string type) := by
  rw [message]
  cases frame.body with
  | bytes => simp
  | str body => simp [Option.filter_eq_some_iff]

theorem started_eq_some : started P frame = some e ↔
    message P "start" frame = some e.value ∧ uidOf e.value "uid" = some (some e.key) ∧
      e.since = frame.time := by
  obtain ⟨key, value, since⟩ := e
  simp only [started, Option.bind_eq_bind, Option.bind_eq_some_iff, Option.some.injEq,
    Entry.mk.injEq, Option.join_eq_some_iff]
  constructor
  · rintro ⟨m, hm, uid, huid, rfl, rfl, rfl⟩
    exact ⟨hm, huid, rfl⟩
  · rintro ⟨hm, huid, rfl⟩
    exact ⟨value, hm, key, huid, rfl, rfl, rfl⟩

theorem stopped_eq_some : stopped P frame = some uid ↔
    ∃ m, message P "stop" frame = some m ∧ uidOf m "run_start" = some (some uid) := by
  simp [stopped, Option.bind_eq_some_iff, Option.join_eq_some_iff]

theorem onMessage_of_start (h : message P "start" frame = some m) :
    ∃ body, frame.body = .str body ∧ onMessage s frame =
      (addStartMessage s frame.time m).map ([body], ·) := by
  obtain ⟨body, hbody, hloads, htype⟩ := message_eq_some.mp h
  refine ⟨body, hbody, ?_⟩
  simp only [onMessage, hbody, hloads, htype, Option.bind_eq_bind, Option.bind_some, if_true]
  cases addStartMessage s frame.time m <;> rfl

theorem onMessage_of_stop (h : message P "stop" frame = some m) :
    onMessage s frame = (mergeStopWithStart s frame.time m).map fun (matched, s) =>
      (if truthy matched then [P.dumps matched] else [], s) := by
  obtain ⟨body, hbody, hloads, htype⟩ := message_eq_some.mp h
  have hne : (Json.Head.string "stop" = .string "start") = False := by simp
  simp only [onMessage, hbody, hloads, htype, Option.bind_eq_bind, Option.bind_some, hne,
    if_false, if_true]
  cases mergeStopWithStart s frame.time m <;> rfl

theorem handle_start (h : message P "start" frame = some m) :
    (handle s frame).2 =
      match (uidOf m "uid").join with
      | some uid => P.expiringDict.setItem s frame.time uid m
      | none => s := by
  obtain ⟨body, -, heq⟩ := onMessage_of_start (s := s) h
  rw [handle, heq, addStartMessage]
  cases uidOf m "uid" with
  | none => rfl
  | some uid => cases uid <;> rfl

theorem handle_stop (h : message P "stop" frame = some m) :
    (handle s frame).2 =
      match (uidOf m "run_start").join with
      | some uid => (P.expiringDict.pop s frame.time uid).2
      | none => s := by
  rw [handle, onMessage_of_stop h, mergeStopWithStart]
  cases uidOf m "run_start" with
  | none => rfl
  | some uid =>
    cases uid with
    | none => rfl
    | some uid =>
      dsimp only [Option.map_some, Option.getD_some, Option.join_some]
      cases (P.expiringDict.pop s frame.time uid).1.filter truthy <;> rfl

/-- Other frames, also those that raise an exception, change nothing. -/
theorem handle_other (hstart : message P "start" frame = none)
    (hstop : message P "stop" frame = none) : (handle s frame).2 = s := by
  rw [handle, onMessage]
  rw [message] at hstart hstop
  cases hbody : frame.body with
  | bytes => rfl
  | str body =>
    rw [hbody] at hstart hstop
    cases hloads : P.loads body with
    | none => simp [hloads]
    | some m =>
      simp only [hloads, Option.filter_some, ite_eq_right_iff, reduceCtorEq, imp_false,
        decide_eq_true_eq] at hstart hstop
      cases htype : messageType m with
      | none => simp [hloads, htype]
      | some type =>
        rw [htype, Option.some_inj] at hstart hstop
        simp [hloads, htype, hstart, hstop]

/-- What the start of a run does. -/
theorem handle_of_started (h : started P frame = some e) :
    (handle s frame).2 = P.expiringDict.setItem s e.since e.key e.value := by
  obtain ⟨hm, huid, hsince⟩ := started_eq_some.mp h
  rw [handle_start hm, huid, hsince]
  rfl

/-- What the stop of a run does. -/
theorem handle_of_stopped (h : stopped P frame = some uid) :
    (handle s frame).2 = (P.expiringDict.pop s frame.time uid).2 := by
  obtain ⟨m, hm, huid⟩ := stopped_eq_some.mp h
  rw [handle_stop hm, huid]
  rfl

theorem handle_of_neither (hstart : started P frame = none) (hstop : stopped P frame = none) :
    (handle s frame).2 = s := by
  cases hm : message P "start" frame with
  | some m =>
    have hmissing : (uidOf m "uid").join = none := by
      rw [started, hm] at hstart
      rw [Option.eq_none_iff_forall_ne_some]
      simpa using hstart
    rw [handle_start hm, hmissing]
  | none =>
    cases hm' : message P "stop" frame with
    | some m =>
      have hmissing : (uidOf m "run_start").join = none := by
        rw [stopped, hm'] at hstop
        exact hstop
      rw [handle_stop hm', hmissing]
    | none => exact handle_other hm hm'

theorem put_of_start (h : message P "start" frame = some m) (huid : uidOf m "uid" ≠ none) :
    ∃ body, frame.body = .str body ∧ (handle s frame).1 = [body] := by
  obtain ⟨body, hbody, heq⟩ := onMessage_of_start (s := s) h
  obtain ⟨uid, hsome⟩ := Option.ne_none_iff_exists'.mp huid
  refine ⟨body, hbody, ?_⟩
  rw [handle, heq, addStartMessage, hsome]
  rfl

/-- The stop message finds this start, and what is put into the queue is the two merged. -/
structure MergedWith (s : StartMessages P) (frame : Frame) (start : Json) : Prop where
  found : startOf s frame = some start
  put : ∃ m merged, message P "stop" frame = some m ∧ (handle s frame).1 = [P.dumps merged] ∧
    m.Fills start merged

theorem mergedWith_of_startOf {start : Json}
    (htype : messageType start = some (.string "start")) (h : startOf s frame = some start) :
    MergedWith s frame start := by
  refine ⟨h, ?_⟩
  obtain ⟨uid, huid, hpop⟩ := Option.bind_eq_some_iff.mp h
  obtain ⟨m, hm, hrun⟩ := stopped_eq_some.mp huid
  obtain ⟨body, -, -, hstop⟩ := message_eq_some.mp hm
  refine ⟨m, P.merger.merge m start, hm, ?_, P.merger.fills_merge m start⟩
  have hname := field_of_messageType hstop
  rw [← Json.fieldAt_singleton] at hname
  have hmerged := (P.merger.fills_merge m start).kept ["name"] _ hname rfl nofun
  rw [Json.fieldAt_singleton] at hmerged
  have htruthy := truthy_of_messageType (messageType_of_field hmerged)
  rw [handle, onMessage_of_stop hm, mergeStopWithStart, hrun]
  simp only [Option.map_some, Option.getD_some, hpop, Option.filter_some,
    truthy_of_messageType htype, if_true, htruthy]

end Messages

section Runs

variable {frames front middle back : List Frame} {start stop : Frame} {e : Entry Json.Head Json}

variable (P) in
def starts (frames : List Frame) : List (Entry Json.Head Json) := frames.filterMap (started P)

variable (P) in
/-- No run is started twice. -/
def Distinct (frames : List Frame) : Prop := ((starts P frames).map (·.key)).Nodup

theorem starts_append (frames frames' : List Frame) :
    starts P (frames ++ frames') = starts P frames ++ starts P frames' :=
  List.filterMap_append

theorem starts_singleton_of_some (h : started P start = some e) : starts P [start] = [e] :=
  List.filterMap_cons_some h

theorem starts_singleton_of_none (h : started P start = none) : starts P [start] = [] :=
  List.filterMap_cons_none h

theorem Distinct.of_append (h : Distinct P (front ++ back)) : Distinct P front := by
  rw [Distinct, starts_append, List.map_append] at h
  exact h.of_append_left

theorem Distinct.eq_of_key (h : Distinct P frames) {e e' : Entry Json.Head Json}
    (he : e ∈ starts P frames) (he' : e' ∈ starts P frames) (hkey : e.key = e'.key) : e = e' :=
  List.inj_on_of_nodup_map h he he' hkey

theorem Distinct.ne_of_started (h : Distinct P (frames ++ [start]))
    (hstart : started P start = some e) {e' : Entry Json.Head Json} (he' : e' ∈ starts P frames) :
    e'.key ≠ e.key := by
  rw [Distinct, starts_append, starts_singleton_of_some hstart, List.map_append] at h
  intro heq
  have hmem : e'.key ∈ (starts P frames).map (·.key) := List.mem_map_of_mem he'
  exact (List.disjoint_of_nodup_append h) hmem (List.mem_singleton.mpr heq)

/-- A frame adds nothing but the start that it is. -/
theorem mem_held_handle {s : StartMessages P} {frame : Frame}
    (hfresh : ∀ e', started P frame = some e' → ∀ e ∈ P.expiringDict.held s, e.key ≠ e'.key)
    (he : e ∈ P.expiringDict.held (handle s frame).2) :
    e ∈ P.expiringDict.held s ∨ started P frame = some e := by
  cases hstart : started P frame with
  | some e' =>
    rw [handle_of_started hstart] at he
    apply (ExpiringDict.mem_of_mem_setItem (hfresh e' hstart) he).imp_right
    rintro rfl
    rfl
  | none =>
    apply Or.inl
    cases hstop : stopped P frame with
    | some uid =>
      rw [handle_of_stopped hstop, ExpiringDict.mem_held_pop] at he
      exact he.1
    | none =>
      rw [handle_of_neither hstart hstop] at he
      exact he

/-- Only what was started is remembered. -/
theorem mem_starts_of_mem_held (h : Distinct P frames)
    (he : e ∈ P.expiringDict.held (after P frames)) : e ∈ starts P frames := by
  induction frames using List.reverseRecOn generalizing e with
  | nil =>
    rw [after, List.foldl_nil, P.expiringDict.held_new] at he
    cases he
  | append_singleton frames frame ih =>
    have hfresh : ∀ e', started P frame = some e' →
        ∀ e ∈ P.expiringDict.held (after P frames), e.key ≠ e'.key :=
      fun e' hstart e he => h.ne_of_started hstart (ih h.of_append he)
    rw [after_append_singleton] at he
    rw [starts_append, List.mem_append]
    apply (mem_held_handle hfresh he).imp (ih h.of_append)
    intro hstart
    rw [starts_singleton_of_some hstart]
    exact List.mem_singleton_self _

theorem fresh_of_started (h : Distinct P (frames ++ [start])) (hstart : started P start = some e)
    {e' : Entry Json.Head Json} (he' : e' ∈ P.expiringDict.held (after P frames)) :
    e'.key ≠ e.key :=
  h.ne_of_started hstart (mem_starts_of_mem_held h.of_append he')

/-- The start of a run is remembered while its run is not stopped and the others leave it room. -/
theorem keeps_after (h : Distinct P (front ++ start :: middle))
    (hstart : started P start = some e) (hroom : (starts P middle).length < 100)
    (hstop : ∀ frame ∈ middle, stopped P frame ≠ some e.key) :
    P.expiringDict.Keeps (after P (front ++ start :: middle)) e (starts P middle).length := by
  induction middle using List.reverseRecOn with
  | nil =>
    rw [after_append_singleton, handle_of_started hstart]
    exact ExpiringDict.keeps_setItem fun e' he' => fresh_of_started h hstart he'
  | append_singleton middle frame ih =>
    rw [← List.cons_append, ← List.append_assoc] at h ⊢
    rw [starts_append, List.length_append] at hroom ⊢
    have hkeeps := ih h.of_append (by omega) fun f hf => hstop f (List.mem_append_left _ hf)
    rw [after_append_singleton]
    cases hframe : started P frame with
    | some e' =>
      rw [starts_singleton_of_some hframe, List.length_singleton] at hroom ⊢
      rw [handle_of_started hframe]
      exact hkeeps.setItem hroom fun e'' he'' => fresh_of_started h hframe he''
    | none =>
      rw [starts_singleton_of_none hframe, List.length_nil, Nat.add_zero]
      cases hrun : stopped P frame with
      | some uid =>
        rw [handle_of_stopped hrun]
        apply hkeeps.pop
        rintro rfl
        exact hstop frame (List.mem_append_right _ (List.mem_singleton_self _)) hrun
      | none =>
        rw [handle_of_neither hframe hrun]
        exact hkeeps

variable (P) in
/-- The stop of a run that is to be merged with its start: it is the first, comes within a day and
before a hundred other runs have started. -/
structure Promised (front : List Frame) (start : Frame) (middle : List Frame) (stop : Frame)
    (e : Entry Json.Head Json) : Prop where
  started : started P start = some e
  stopped : stopped P stop = some e.key
  recent : stop.time - start.time < 24 * 60 ^ 2
  room : (starts P middle).length < 100
  first : ∀ frame ∈ front ++ start :: middle, Stomp.stopped P frame ≠ some e.key

variable (P) in
structure Paired (frames : List Frame) : Prop where
  starts : ∀ front start back m, frames = front ++ start :: back →
    message P "start" start = some m → uidOf m "uid" ≠ none →
    ∃ body, start.body = .str body ∧ (handle (after P front) start).1 = [body]
  stops : ∀ front start middle stop back e, frames = front ++ start :: middle ++ stop :: back →
    Promised P front start middle stop e →
    MergedWith (after P (front ++ start :: middle)) stop e.value
  once : ∀ front stop middle stop' back m m', frames = front ++ stop :: middle ++ stop' :: back →
    startOf (after P front) stop = some m →
    startOf (after P (front ++ stop :: middle)) stop' = some m' → m ≠ m'

variable (P) in
/-- The stops that are to be merged with their starts follow them in less than twelve seconds. -/
def Prompt (frames : List Frame) : Prop :=
  ∀ front start middle stop back e, frames = front ++ start :: middle ++ stop :: back →
    Promised P front start middle stop e → stop.time - start.time < 12

theorem Promised.startOf_iff (h : Promised P front start middle stop e)
    (hdistinct : Distinct P (front ++ start :: middle)) :
    startOf (after P (front ++ start :: middle)) stop = some e.value ↔
      stop.time - start.time < 12 := by
  have hsince : e.since = start.time := (started_eq_some.mp h.started).2.2
  have hkeeps := keeps_after hdistinct h.started h.room fun frame hframe =>
    h.first frame (List.mem_append_right _ (List.mem_cons_of_mem _ hframe))
  have hunique : ∀ e' ∈ P.expiringDict.held (after P (front ++ start :: middle)),
      e'.key = e.key → e' = e := by
    intro e' he' hkey
    have hmem := mem_starts_of_mem_held hdistinct hkeeps.mem
    exact hdistinct.eq_of_key (mem_starts_of_mem_held hdistinct he') hmem hkey
  rw [startOf, h.stopped, Option.bind_some]
  constructor
  · intro hfound
    by_contra hlate
    have hnone : (P.expiringDict.pop (after P (front ++ start :: middle)) stop.time e.key).1 =
        none := by
      apply ExpiringDict.pop_eq_none
      intro e' he' hkey
      rw [hunique e' he' hkey, hsince]
      exact not_lt.mp hlate
    cases hnone.symm.trans hfound
  · intro hyoung
    rw [← hsince] at hyoung
    exact ExpiringDict.pop_eq_some hkeeps.mem rfl hyoung hunique

/-- A start whose run has been stopped is gone for good. -/
theorem notMem_held_after (h : Distinct P (front ++ stop :: middle))
    (hstop : stopped P stop = some e.key) (he : e ∈ starts P front) :
    e ∉ P.expiringDict.held (after P (front ++ stop :: middle)) := by
  induction middle using List.reverseRecOn with
  | nil =>
    rw [after_append_singleton, handle_of_stopped hstop, ExpiringDict.mem_held_pop]
    exact fun hmem => hmem.2 rfl
  | append_singleton middle frame ih =>
    rw [← List.cons_append, ← List.append_assoc] at h ⊢
    rw [after_append_singleton]
    intro hmem
    rcases mem_held_handle (fun _ hstart _ => fresh_of_started h hstart) hmem with hheld | hagain
    · exact ih h.of_append hheld
    · have hbefore : e ∈ starts P (front ++ stop :: middle) := by
        rw [starts_append]
        exact List.mem_append_left _ he
      exact h.ne_of_started hagain hbefore rfl

theorem exists_started_of_startOf (h : Distinct P frames) {m : Json}
    (hm : startOf (after P frames) stop = some m) :
    ∃ e ∈ P.expiringDict.held (after P frames), e ∈ starts P frames ∧
      stopped P stop = some e.key ∧ e.value = m ∧ uidOf m "uid" = some (some e.key) := by
  obtain ⟨uid, hstop, hpop⟩ := Option.bind_eq_some_iff.mp hm
  obtain ⟨e, hmem, rfl, rfl⟩ := ExpiringDict.mem_of_pop_eq_some hpop
  have hstarts := mem_starts_of_mem_held h hmem
  obtain ⟨start, -, hstart⟩ := List.mem_filterMap.mp hstarts
  exact ⟨e, hmem, hstarts, hstop, rfl, (started_eq_some.mp hstart).2.1⟩

/-- Another stop of the run finds nothing, and a stop of another run no message with this uid. -/
theorem startOf_ne (h : Distinct P (front ++ stop :: middle)) {stop' : Frame} {m m' : Json}
    (hm : startOf (after P front) stop = some m)
    (hm' : startOf (after P (front ++ stop :: middle)) stop' = some m') : m ≠ m' := by
  obtain ⟨e, -, he, hstop, -, huid⟩ := exists_started_of_startOf h.of_append hm
  obtain ⟨e', hheld, he', -, -, huid'⟩ := exists_started_of_startOf h hm'
  rintro rfl
  have hkey : e.key = e'.key := by
    rw [huid] at huid'
    simpa using huid'
  have hmem : e ∈ starts P (front ++ stop :: middle) := by
    rw [starts_append]
    exact List.mem_append_left _ he
  obtain rfl := h.eq_of_key hmem he' hkey
  exact notMem_held_after h hstop he hheld

section Scan

mutual

def dumps : Json → List Char
  | .array items => '[' :: ([',', ' '].intercalate (dumpsItems items) ++ [']'])
  | .object entries => '{' :: ([',', ' '].intercalate (dumpsEntries entries) ++ ['}'])
  | value => value.text

def dumpsItems : List Json → List (List Char)
  | [] => []
  | item :: items => dumps item :: dumpsItems items

def dumpsEntries : List (String × Json) → List (List Char)
  | [] => []
  | (key, value) :: entries =>
    (Json.quoted key ++ ':' :: ' ' :: dumps value) :: dumpsEntries entries

end

/-- The packages on documents in ASCII. -/
def packages : Packages where
  loads body := Json.parse .verbatim 900 body.toList
  dumps value := String.ofList (dumps value)
  expiringDict := .ofList Json.Head Json
  merger := .ofJson

def scanStart : Frame where
  time := 0
  body := .str "\x7b\"doc\": \x7b\"uid\": \"a\", \"session\": 1\x7d, \"name\": \"start\"\x7d"

def scanStop (time : ℚ) : Frame where
  time := time
  body := .str "\x7b\"doc\": \x7b\"run_start\": \"a\"\x7d, \"name\": \"stop\"\x7d"

instance (frames : List Frame) : Decidable (Distinct P frames) :=
  inferInstanceAs (Decidable (List.Nodup _))

end Scan

end Runs

end Workflows.Events.Stomp
