import Workflows.Sessionspaces.Memory
import Workflows.Sessionspaces.StaticSessions
import Workflows.Foundations.Execution

/-!
# The requests of a whole run

All requests that the controller makes to Kubernetes, tick after tick. Those for one namespace follow
a small protocol, whatever fails and whatever is fetched: a namespace is asked to be deleted only
after the controller has itself created it with its ConfigMap. Once a tick has passed without a
failure the controller is silent until the sessions change.
-/

namespace Workflows.Sessionspaces

open Execution

section Requests

variable (crates : Crates) (staticSessions : Option StaticSessions)

def Controller.loop (s : Controller) (fetched : Sessions) : Loop where
  current := s.current
  new := mergedSessions staticSessions fetched
  world := { cluster := s.cluster, calls := [] }

def tickRequests (s : Controller) (t : Tick) : List Answered :=
  match t.fetched with
  | some fetched => tickAnswers crates t.fails (s.loop staticSessions fetched)
  | none => []

/-- The requests of a run with their answers, in the order in which they are made. -/
def requests (s : Controller) : List Tick → List Answered
  | [] => []
  | t :: ts => tickRequests crates staticSessions s t ++
      requests (tick crates staticSessions s t) ts

/-- What the controller and Kubernetes have agreed on for one namespace. -/
inductive Stage where
  | absent
  | creating
  | present
  | deleting
  deriving DecidableEq

def Stage.next : Stage → Answered → Option Stage
  | .absent, (⟨.patchNamespace, _⟩, .ok _) => some .creating
  | .absent, (⟨.patchNamespace, _⟩, .error _) => some .absent
  | .creating, (⟨.patchConfigMap, _⟩, .ok _) => some .present
  | .creating, (⟨.patchConfigMap, _⟩, .error _) => some .absent
  | .present, (⟨.patchConfigMap, _⟩, _) => some .present
  | .present, (⟨.getNamespace, _⟩, .ok _) => some .deleting
  | .present, (⟨.getNamespace, _⟩, .error .notFound) => some .absent
  | .present, (⟨.getNamespace, _⟩, .error .other) => some .present
  | .deleting, (⟨.deleteNamespace, _⟩, .ok _) => some .absent
  | .deleting, (⟨.deleteNamespace, _⟩, .error _) => some .present
  | _, _ => none

def Stage.ofSession : Option Session → Stage
  | some _ => .present
  | none => .absent

/-- A request that has removed its namespace. -/
def Answered.removes : Answered → Bool
  | (call, .ok _) => call.verb = .deleteNamespace
  | (_, .error _) => false

/-- The two requests with which a namespace and its ConfigMap come about. -/
def created (n : String) : List Answered :=
  [(⟨.patchNamespace, n⟩, .ok ()), (⟨.patchConfigMap, n⟩, .ok ())]

end Requests

section Protocol

variable {crates : Crates} {fails : Call → Bool} {staticSessions : Option StaticSessions}

theorem current_tick (s : Controller) {t : Tick} {fetched : Sessions}
    (hfetched : t.fetched = some fetched) (n : String) :
    (tick crates staticSessions s t).current[n]? =
      if (answers crates t.fails n (s.loop staticSessions fetched)).all Answered.succeeded
      then (mergedSessions staticSessions fetched)[n]? else s.current[n]? := by
  simp only [tick, hfetched]
  exact current_updateSessionspaces (s.loop staticSessions fetched) n

theorem follows_delete (n : String) (w : World) :
    exec Stage.next .present (deleteAnswers fails n w) =
      some (if (deleteNamespace fails n w).1.isOk then .absent else .present) := by
  rw [deleteAnswers, deleteNamespace]
  rcases getNamespace fails n w with ⟨result, after⟩
  rcases result with e | u
  · cases e <;> rfl
  · rcases hdelete : apiDelete fails n after with ⟨answer, last⟩
    simp only [hdelete]
    cases answer <;> rfl

theorem follows_create (n : String) (session : Session) (w : World) :
    exec Stage.next .absent (createAnswers crates fails n session w) =
      some (if ((createAnswers crates fails n session w).all Answered.succeeded) then .present
        else .absent) := by
  rw [createAnswers]
  rcases createNamespace fails n w with ⟨result, after⟩
  rcases result with e | u
  · cases e <;> rfl
  · rcases hpatch : createConfigmap crates fails n session after with ⟨answer, last⟩
    simp only [hpatch]
    rcases answer with e | u
    · cases e <;> rfl
    · rfl

theorem follows_change (n : String) (answer : Except KubeError Unit) :
    exec Stage.next .present [(⟨.patchConfigMap, n⟩, answer)] = some .present := by
  cases answer <;> rfl

/-- The requests for a name lead from the stage of what was remembered to that of what is. -/
theorem follows_answers (n : String) (s : Loop) :
    exec Stage.next (.ofSession s.current[n]?) (answers crates fails n s) =
      some (.ofSession (updateSessionspace crates fails n s).2.current[n]?) := by
  obtain ⟨hanswers, hcurrent⟩ := answers_updateSessionspace crates fails n s
  have hok := hanswers.isOk
  rw [hcurrent, hok]
  clear hanswers hcurrent hok
  rw [answers]
  cases hold : s.current[n]? with
  | some currentSession =>
    cases hnew : s.new[n]? with
    | none =>
      have hdelete := answers_deleteNamespace fails n s.world
      simp only [Stage.ofSession, follows_delete, hdelete.isOk]
      split_ifs <;> rfl
    | some session =>
      simp only [Stage.ofSession]
      split_ifs <;> first | exact follows_change n _ | rfl
  | none =>
    cases hnew : s.new[n]? with
    | none => simp [Stage.ofSession]
    | some session =>
      simp only [Stage.ofSession, follows_create]
      split_ifs <;> rfl

theorem follows_tick (s : Controller) (t : Tick) (n : String) :
    exec Stage.next (.ofSession s.current[n]?)
        ((tickRequests crates staticSessions s t).filter (·.1.target = n)) =
      some (.ofSession (tick crates staticSessions s t).current[n]?) := by
  cases hfetched : t.fetched with
  | none => simp [tickRequests, tick, hfetched]
  | some fetched =>
    simp only [tickRequests, tick, hfetched]
    rw [filter_tickAnswers]
    have hslot : (reconcile crates staticSessions s t.fails fetched).current[n]? =
        (updateSessionspace crates t.fails n (s.loop staticSessions fetched)).2.current[n]? :=
      congrArg Slot.current (slot_tick (s.loop staticSessions fetched) n)
    rw [hslot]
    exact follows_answers n (s.loop staticSessions fetched)

theorem follows_requests (s : Controller) (ticks : List Tick) (n : String) :
    exec Stage.next (.ofSession s.current[n]?)
        ((requests crates staticSessions s ticks).filter (·.1.target = n)) =
      some (.ofSession (ticks.foldl (tick crates staticSessions) s).current[n]?) := by
  induction ticks generalizing s with
  | nil => rfl
  | cons t ticks ih =>
    rw [requests, List.filter_append, List.foldl_cons]
    exact exec_append_eq_some.mpr ⟨_, follows_tick s t n, ih _⟩

/-- The requests for a namespace, over any run, are a word of its protocol, and the controller
remembers a session exactly where the protocol has the namespace present. -/
theorem requests_follow_protocol (ticks : List Tick) (n : String) :
    exec Stage.next .absent
        ((requests crates staticSessions .init ticks).filter (·.1.target = n)) =
      some (.ofSession (run crates staticSessions ticks).current[n]?) := by
  have hinit : Controller.init.current[n]? = none := by simp [Controller.init]
  have hfollows := @follows_requests crates staticSessions .init ticks n
  rw [hinit] at hfollows
  exact hfollows

end Protocol

section Deletion

/-- How a log that follows the protocol has come to its stage. -/
def Stage.Reached (n : String) (log : List Answered) : Stage → Prop
  | .absent => True
  | .creating => ∃ earlier, log = earlier ++ [(⟨.patchNamespace, n⟩, .ok ())]
  | .present | .deleting =>
    ∃ earlier later, log = earlier ++ created n ++ later ∧ ∀ entry ∈ later, ¬ entry.removes

theorem Stage.Reached.later {n : String} {log : List Answered} {entry : Answered}
    (h : Stage.present.Reached n log) (hentry : ¬ entry.removes) :
    Stage.present.Reached n (log ++ [entry]) := by
  obtain ⟨earlier, later, rfl, hlater⟩ := h
  refine ⟨earlier, later ++ [entry], by simp, ?_⟩
  intro other hother
  obtain hother | hother := List.mem_append.mp hother
  · exact hlater other hother
  · exact List.mem_singleton.mp hother ▸ hentry

theorem Stage.Reached.next {n : String} {log : List Answered} {stage after : Stage}
    {entry : Answered} (h : stage.Reached n log) (htarget : entry.1.target = n)
    (hnext : stage.next entry = some after) : after.Reached n (log ++ [entry]) := by
  obtain ⟨⟨verb, target⟩, answer⟩ := entry
  obtain rfl : target = n := htarget
  unfold Stage.next at hnext
  split at hnext <;> cases hnext
  case h_1 heq =>
    cases heq
    exact ⟨log, rfl⟩
  case h_3 heq =>
    cases heq
    obtain ⟨earlier, rfl⟩ := h
    exact ⟨earlier, [], by simp [created], by simp⟩
  case h_5 heq =>
    cases heq
    apply h.later
    cases answer <;> simp [Answered.removes]
  case h_6 heq | h_8 heq | h_10 heq =>
    cases heq
    apply h.later
    simp [Answered.removes]
  case h_2 | h_4 | h_7 | h_9 => exact trivial

theorem reached_of_exec {n : String} {log : List Answered} {stage : Stage}
    (htarget : ∀ entry ∈ log, entry.1.target = n)
    (h : exec Stage.next .absent log = some stage) : stage.Reached n log := by
  induction log using List.reverseRecOn generalizing stage with
  | nil =>
    cases h
    exact trivial
  | append_singleton log entry ih =>
    obtain ⟨middle, hlog, hentry⟩ := exec_append_eq_some.mp h
    obtain ⟨after, hnext, hafter⟩ := exec_cons_eq_some.mp hentry
    cases hafter
    have hreached := ih (fun other hother => htarget other (List.mem_append_left _ hother)) hlog
    exact hreached.next (htarget entry (by simp)) hnext

/-- What can have happened before a deletion is asked for. -/
theorem present_of_deletes {n : String} {log rest : List Answered} {answer : Except KubeError Unit}
    {stage : Stage} (htarget : ∀ entry ∈ log, entry.1.target = n)
    (h : exec Stage.next .absent (log ++ (⟨.deleteNamespace, n⟩, answer) :: rest) = some stage) :
    Stage.present.Reached n log := by
  obtain ⟨middle, hlog, hrest⟩ := exec_append_eq_some.mp h
  obtain ⟨after, hnext, -⟩ := exec_cons_eq_some.mp hrest
  have hreached := reached_of_exec htarget hlog
  cases middle with
  | deleting => exact hreached
  | absent | creating | present => cases answer <;> cases hnext

variable {crates : Crates} {staticSessions : Option StaticSessions}

theorem deletes_only_created {ticks : List Tick} {n : String} {before after : List Answered}
    {answer : Except KubeError Unit}
    (h : requests crates staticSessions .init ticks =
      before ++ (⟨.deleteNamespace, n⟩, answer) :: after) :
    ∃ earlier later, before.filter (·.1.target = n) = earlier ++ created n ++ later ∧
      ∀ entry ∈ later, ¬ entry.removes := by
  have hinit : Controller.init.current[n]? = none := by simp [Controller.init]
  have hfollows : exec Stage.next (.ofSession Controller.init.current[n]?)
      ((requests crates staticSessions .init ticks).filter (·.1.target = n)) = _ :=
    follows_requests .init ticks n
  rw [hinit, h, List.filter_append, List.filter_cons_of_pos (by simp)] at hfollows
  refine present_of_deletes (fun entry hentry => ?_) hfollows
  exact of_decide_eq_true (List.mem_filter.mp hentry).2

def exampleTicks : List Tick :=
  [⟨some exampleSessions, fun _ => false⟩, ⟨some ∅, fun _ => false⟩]

def exampleLog : List Answered :=
  created "cm37235-3" ++ [(⟨.getNamespace, "cm37235-3"⟩, .ok ())]

theorem deletes_only_created_example :
    ∃ earlier later, exampleLog.filter (·.1.target = "cm37235-3") =
        earlier ++ created "cm37235-3" ++ later ∧ ∀ entry ∈ later, ¬ entry.removes := by
  have hrequests : requests exampleCrates none .init exampleTicks =
      exampleLog ++ [(⟨.deleteNamespace, "cm37235-3"⟩, .ok ())] := by rfl
  exact deletes_only_created hrequests

end Deletion

section Silence

variable {crates : Crates} {fails : Call → Bool} {staticSessions : Option StaticSessions}

/-- Every session that is wanted is remembered as it is, and no other. -/
def Settled (s : Controller) (wanted : Sessions) : Prop :=
  ∀ n : String, s.current[n]? = wanted[n]?

theorem succeeds_delete {n : String} {w : World}
    (hclean : ∀ entry ∈ deleteAnswers fails n w, fails entry.1 = false) :
    (deleteAnswers fails n w).all Answered.succeeded := by
  by_cases hget : fails ⟨.getNamespace, n⟩
  · simp [deleteAnswers, getNamespace, hget] at hclean
  · by_cases hmem : n ∈ w.cluster
    · by_cases hdelete : fails ⟨.deleteNamespace, n⟩
      · simp [deleteAnswers, getNamespace, hget, hmem, hdelete] at hclean
      · simp [deleteAnswers, getNamespace, apiDelete, World.record, hget, hmem, hdelete,
          Answered.succeeded]
    · simp [deleteAnswers, getNamespace, hget, hmem, Answered.succeeded]

theorem succeeds_create {n : String} {session : Session} {w : World}
    (hclean : ∀ entry ∈ createAnswers crates fails n session w, fails entry.1 = false) :
    (createAnswers crates fails n session w).all Answered.succeeded := by
  by_cases hnamespace : fails ⟨.patchNamespace, n⟩
  · simp [createAnswers, createNamespace, hnamespace] at hclean
  · by_cases hconfigMap : fails ⟨.patchConfigMap, n⟩
    · simp [createAnswers, createNamespace, hnamespace, hconfigMap] at hclean
    · simp [createAnswers, createNamespace, createConfigmap, World.record, hnamespace, hconfigMap,
        Answered.succeeded]

/-- A ConfigMap can be applied where the namespace of a remembered session stands. -/
theorem succeeds_of_clean {n : String} {s : Loop} (hreal : (slot s n).Realized crates)
    (hclean : ∀ entry ∈ answers crates fails n s, fails entry.1 = false) :
    (answers crates fails n s).all Answered.succeeded := by
  rw [answers] at hclean ⊢
  cases hcurrent : s.current[n]? with
  | none =>
    cases hnew : s.new[n]? with
    | none => rfl
    | some session =>
      simp only [hcurrent, hnew] at hclean
      exact succeeds_create hclean
  | some currentSession =>
    cases hnew : s.new[n]? with
    | none =>
      simp only [hcurrent, hnew] at hclean
      exact succeeds_delete hclean
    | some session =>
      simp only [hcurrent, hnew] at hclean ⊢
      split_ifs at hclean ⊢
      · obtain ⟨ns, hobject, -⟩ := hreal currentSession hcurrent
        have hcluster : s.world.cluster[n]? = some ns := hobject
        have hconfigMap : fails ⟨.patchConfigMap, n⟩ = false := hclean _ List.mem_cons_self
        simp [createConfigmap, World.record, hconfigMap, hcluster, Answered.succeeded]
      · rfl

theorem calls_tickRequests (s : Controller) (t : Tick) {fetched : Sessions}
    (hfetched : t.fetched = some fetched) :
    (reconcile crates staticSessions s t.fails fetched).world.calls =
      (tickRequests crates staticSessions s t).map Prod.fst := by
  simp only [tickRequests, hfetched]
  exact calls_foldl (toUpdate s.current (mergedSessions staticSessions fetched))
    (s.loop staticSessions fetched)

theorem settled_of_clean_tick {s : Controller} (h : RealizesCurrent crates s) {t : Tick}
    {fetched : Sessions} (hfetched : t.fetched = some fetched)
    (hclean : CleanTick crates staticSessions s t.fails fetched) :
    Settled (tick crates staticSessions s t) (mergedSessions staticSessions fetched) := by
  intro n
  have hall : (answers crates t.fails n (s.loop staticSessions fetched)).all
      Answered.succeeded := by
    have hreal : (slot (s.loop staticSessions fetched) n).Realized crates := h n
    apply succeeds_of_clean hreal
    intro entry hentry
    apply hclean
    rw [calls_tickRequests s t hfetched, tickRequests, hfetched]
    rw [← filter_tickAnswers] at hentry
    exact List.mem_map_of_mem (List.mem_of_mem_filter hentry)
  rw [current_tick s hfetched, if_pos hall]

theorem answers_of_eq {n : String} {s : Loop} (h : s.current[n]? = s.new[n]?) :
    answers crates fails n s = [] := by
  rw [answers, h]
  cases s.new[n]? with
  | none => rfl
  | some session => simp

theorem eq_nil_of_filter {log : List Answered} (h : ∀ n, log.filter (·.1.target = n) = []) :
    log = [] := by
  cases log with
  | nil => rfl
  | cons entry log => simpa using h entry.1.target

theorem tickRequests_of_settled {s : Controller} {t : Tick}
    (h : ∀ fetched, t.fetched = some fetched → Settled s (mergedSessions staticSessions fetched)) :
    tickRequests crates staticSessions s t = [] ∧
      ∀ n : String, (tick crates staticSessions s t).current[n]? = s.current[n]? := by
  cases hfetched : t.fetched with
  | none => simp [tickRequests, tick, hfetched]
  | some fetched =>
    have hanswers : ∀ n, answers crates t.fails n (s.loop staticSessions fetched) = [] :=
      fun n => answers_of_eq (h fetched hfetched n)
    constructor
    · apply eq_nil_of_filter
      intro n
      simp only [tickRequests, hfetched]
      rw [filter_tickAnswers, hanswers]
    · intro n
      rw [current_tick s hfetched, hanswers]
      exact (h fetched hfetched n).symm

theorem requests_of_settled {s : Controller} {ticks : List Tick}
    (h : ∀ t ∈ ticks, ∀ fetched, t.fetched = some fetched →
      Settled s (mergedSessions staticSessions fetched)) :
    requests crates staticSessions s ticks = [] := by
  induction ticks generalizing s with
  | nil => rfl
  | cons t ticks ih =>
    obtain ⟨hnone, hsame⟩ : tickRequests crates staticSessions s t = [] ∧
        ∀ n : String, (tick crates staticSessions s t).current[n]? = s.current[n]? :=
      tickRequests_of_settled (h t List.mem_cons_self)
    rw [requests, hnone, List.nil_append]
    apply ih
    intro u hu fetched hfetched n
    rw [hsame]
    exact h u (List.mem_cons_of_mem t hu) fetched hfetched n

theorem requests_append (s : Controller) (before after : List Tick) :
    requests crates staticSessions s (before ++ after) =
      requests crates staticSessions s before ++
        requests crates staticSessions (before.foldl (tick crates staticSessions) s) after := by
  induction before generalizing s with
  | nil => rfl
  | cons t before ih => rw [List.cons_append, requests, requests, ih, List.append_assoc,
      List.foldl_cons]

theorem requests_silent {ticks later : List Tick} {t : Tick} {fetched : Sessions}
    (hfetched : t.fetched = some fetched)
    (hclean : CleanTick crates staticSessions (run crates staticSessions ticks) t.fails fetched)
    (hlater : ∀ u ∈ later, ∀ found, u.fetched = some found → ∀ n : String, found[n]? = fetched[n]?) :
    requests crates staticSessions .init (ticks ++ t :: later) =
      requests crates staticSessions .init (ticks ++ [t]) := by
  have hsettled := settled_of_clean_tick (realizesCurrent_run ticks) hfetched hclean
  have hsilent : requests crates staticSessions
      (tick crates staticSessions (run crates staticSessions ticks) t) later = [] := by
    apply requests_of_settled
    intro u hu found hfound n
    rw [hsettled n, getElem?_mergedSessions, getElem?_mergedSessions, hlater u hu found hfound]
  rw [requests_append, requests_append, requests, requests]
  exact congrArg _ (congrArg _ hsilent)

theorem requests_silent_example :
    requests exampleCrates none .init
        ([] ++ ⟨some exampleSessions, fun _ => false⟩ :: [⟨some exampleSessions, fun _ => true⟩]) =
      requests exampleCrates none .init ([] ++ [⟨some exampleSessions, fun _ => false⟩]) := by
  apply requests_silent rfl
  · intro c _
    rfl
  · intro u hu found hfound n
    cases List.mem_singleton.mp hu
    cases hfound
    rfl

end Silence

section Static

variable {crates : Crates} {fails : Call → Bool} {staticSessions : Option StaticSessions}

/-- The requests with which a wanted namespace is made or changed. -/
def Answered.applies (entry : Answered) : Prop :=
  entry.1.verb = .patchNamespace ∨ entry.1.verb = .patchConfigMap

theorem applies_of_wanted {n : String} {s : Loop} (h : (s.new[n]?).isSome) :
    ∀ entry ∈ answers crates fails n s, entry.applies := by
  obtain ⟨session, hnew⟩ := Option.isSome_iff_exists.mp h
  rw [answers, hnew]
  cases s.current[n]? with
  | none =>
    simp only [createAnswers]
    split <;> simp [Answered.applies]
  | some currentSession =>
    simp only
    split_ifs <;> simp [Answered.applies]

theorem applies_tickRequests {n : String} {s : Controller} {t : Tick}
    (h : ∀ fetched, ((mergedSessions staticSessions fetched)[n]?).isSome) :
    ∀ entry ∈ tickRequests crates staticSessions s t, entry.1.target = n → entry.applies := by
  intro entry hentry htarget
  cases hfetched : t.fetched with
  | none => simp [tickRequests, hfetched] at hentry
  | some fetched =>
    have hnew : ((s.loop staticSessions fetched).new[n]?).isSome := h fetched
    simp only [tickRequests, hfetched] at hentry
    apply applies_of_wanted hnew entry
    rw [← filter_tickAnswers, List.mem_filter]
    exact ⟨hentry, decide_eq_true htarget⟩

theorem applies_requests {n : String} {s : Controller} {ticks : List Tick}
    (h : ∀ fetched, ((mergedSessions staticSessions fetched)[n]?).isSome) :
    ∀ entry ∈ requests crates staticSessions s ticks, entry.1.target = n → entry.applies := by
  induction ticks generalizing s with
  | nil => simp [requests]
  | cons t ticks ih =>
    intro entry hentry htarget
    obtain hentry | hentry := List.mem_append.mp hentry
    · exact applies_tickRequests h entry hentry htarget
    · exact ih entry hentry htarget

/-- A remembered session that stays wanted stays remembered. -/
theorem remembered_foldl {n : String} {s : Controller} {ticks : List Tick}
    (h : ∀ fetched, ((mergedSessions staticSessions fetched)[n]?).isSome)
    (hs : (s.current[n]?).isSome) :
    ((ticks.foldl (tick crates staticSessions) s).current[n]?).isSome := by
  induction ticks generalizing s with
  | nil => exact hs
  | cons t ticks ih =>
    apply ih
    cases hfetched : t.fetched with
    | none => simpa [tick, hfetched] using hs
    | some fetched =>
      rw [current_tick s hfetched]
      split_ifs
      · exact h fetched
      · exact hs

theorem remembered_tick {n : String} {s : Controller} (hreal : RealizesCurrent crates s) {t : Tick}
    {fetched : Sessions} (hfetched : t.fetched = some fetched)
    (h : ((mergedSessions staticSessions fetched)[n]?).isSome)
    (hfails : ∀ verb, t.fails ⟨verb, n⟩ = false) :
    ((tick crates staticSessions s t).current[n]?).isSome := by
  have hslot : (slot (s.loop staticSessions fetched) n).Realized crates := hreal n
  have hall : (answers crates t.fails n (s.loop staticSessions fetched)).all
      Answered.succeeded := by
    apply succeeds_of_clean hslot
    intro entry hentry
    rw [← target_of_mem_answers entry hentry] at hfails
    exact hfails entry.1.verb
  rw [current_tick s hfetched, if_pos hall]
  exact h

theorem wanted_of_mem_entries {entries : List StaticSessionEntry} {n : String}
    (h : ∃ entry ∈ entries, n ∈ entry.intoSessions.map Prod.fst) (fetched : Sessions) :
    ((mergedSessions (some (.fromEntries entries)) fetched)[n]?).isSome := by
  obtain ⟨entry, hentry, hn⟩ := h
  obtain ⟨named, hnamed, rfl⟩ := List.mem_map.mp hn
  have hlast : (Dictionary.lastWith Prod.fst named.1
      (entries.flatMap StaticSessionEntry.intoSessions)).isSome :=
    Dictionary.lastWith_isSome_iff.mpr ⟨named, List.mem_flatMap.mpr ⟨entry, hentry, hnamed⟩, rfl⟩
  rw [getElem?_mergedSessions, Option.bind_some, getElem?_fromEntries]
  cases fetched[named.1]? with
  | some session => rfl
  | none => simpa using hlast

/-- No request ever looks for the namespace of a session from the file in order to delete it, and
one tick in which no request for it fails is enough for it to stand ever after. -/
theorem static_kept {entries : List StaticSessionEntry} {n : String}
    (h : ∃ entry ∈ entries, n ∈ entry.intoSessions.map Prod.fst) (ticks : List Tick) :
    (∀ entry ∈ requests crates (some (.fromEntries entries)) .init ticks, entry.1.target = n →
      entry.applies) ∧
    ∀ before t after fetched, ticks = before ++ t :: after → t.fetched = some fetched →
      (∀ verb, t.fails ⟨verb, n⟩ = false) →
      ∃ session, (run crates (some (.fromEntries entries)) ticks).current[n]? = some session ∧
        ∃ ns : Namespace, (run crates (some (.fromEntries entries)) ticks).cluster[n]? = some ns ∧
          ns.configMap = some (configMapOf crates session) := by
  have hwanted := wanted_of_mem_entries h
  refine ⟨applies_requests hwanted, ?_⟩
  rintro before t after fetched rfl hfetched hfails
  have hrun : (((before ++ t :: after).foldl (tick crates (some (.fromEntries entries)))
      .init).current[n]?).isSome := by
    rw [List.foldl_append, List.foldl_cons]
    apply remembered_foldl hwanted
    exact remembered_tick (realizesCurrent_run before) hfetched (hwanted fetched) hfails
  obtain ⟨session, hsession⟩ := Option.isSome_iff_exists.mp hrun
  exact ⟨session, hsession, realizesCurrent_run _ n session hsession⟩

def exampleEntry : StaticSessionEntry where
  dataDirectory := "/dls/static"
  proposalCode := "ks"
  proposalNumber := 10001
  visits := [1, 2]
  instrument := .i03
  members := ∅
  gid := none
  startDate := exampleSession.startDate
  endDate := exampleSession.endDate

theorem static_kept_example :
    ∃ session, (run exampleCrates (some (.fromEntries [exampleEntry]))
        ([] ++ ⟨some ∅, fun _ => false⟩ :: [⟨some ∅, fun _ => true⟩])).current["ks10001-2"]? =
      some session := by
  have hkept := @static_kept exampleCrates [exampleEntry] "ks10001-2"
    ⟨exampleEntry, List.mem_singleton_self _, by decide +kernel⟩
    ([] ++ ⟨some ∅, fun _ => false⟩ :: [⟨some ∅, fun _ => true⟩])
  obtain ⟨session, hsession, -⟩ := hkept.2 [] ⟨some ∅, fun _ => false⟩ _ ∅ rfl rfl fun _ => rfl
  exact ⟨session, hsession⟩

end Static

end Workflows.Sessionspaces
