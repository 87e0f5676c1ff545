import Workflows.Sessionspaces.Convergence

/-!
# What a tick remembers

The requests of a tick with their answers, in the order in which they are made. The entry that is
remembered for a name is decided by the answers to the requests for that name alone.
-/

namespace Workflows.Sessionspaces

abbrev Answered := Call × Except KubeError Unit

/-- A lookup that finds no namespace has told that there is nothing to delete. -/
def Answered.succeeded : Answered → Bool
  | (_, .ok _) => true
  | (call, .error .notFound) => call.verb = .getNamespace
  | (_, .error .other) => false

section Answers

variable (crates : Crates) (fails : Call → Bool)

def deleteAnswers (n : String) (w : World) : List Answered :=
  match getNamespace fails n w with
  | (.ok u, w) => [(⟨.getNamespace, n⟩, .ok u), (⟨.deleteNamespace, n⟩, (apiDelete fails n w).1)]
  | (.error e, _) => [(⟨.getNamespace, n⟩, .error e)]

def createAnswers (n : String) (session : Session) (w : World) : List Answered :=
  match createNamespace fails n w with
  | (.ok u, w) =>
    [(⟨.patchNamespace, n⟩, .ok u),
      (⟨.patchConfigMap, n⟩, (createConfigmap crates fails n session w).1)]
  | (.error e, _) => [(⟨.patchNamespace, n⟩, .error e)]

/-- The requests that `updateSessionspace` makes for a name. -/
def answers (n : String) (s : Loop) : List Answered :=
  match s.current[n]?, s.new[n]? with
  | some _, none => deleteAnswers fails n s.world
  | none, some session => createAnswers crates fails n session s.world
  | some currentSession, some session =>
    if currentSession ≠ session then
      [(⟨.patchConfigMap, n⟩, (createConfigmap crates fails n session s.world).1)]
    else []
  | none, none => []

def answersOf : List String → Loop → List Answered
  | [], _ => []
  | n :: ns, s => answers crates fails n s ++ answersOf ns (updateSessionspace crates fails n s).2

/-- All requests of a tick. -/
def tickAnswers (s : Loop) : List Answered :=
  answersOf crates fails (toUpdate s.current s.new) s

end Answers

section Step

variable {crates : Crates} {fails : Call → Bool}

theorem target_deleteAnswers (n : String) (w : World) :
    ∀ entry ∈ deleteAnswers fails n w, entry.1.target = n := by
  rw [deleteAnswers]
  split <;> simp

theorem target_createAnswers (n : String) (session : Session) (w : World) :
    ∀ entry ∈ createAnswers crates fails n session w, entry.1.target = n := by
  rw [createAnswers]
  split <;> simp

theorem target_of_mem_answers {n : String} {s : Loop} :
    ∀ entry ∈ answers crates fails n s, entry.1.target = n := by
  rw [answers]
  split
  · exact target_deleteAnswers n s.world
  · exact target_createAnswers n _ s.world
  · split_ifs <;> simp
  · simp

/-- The requests behind a result: all of them are recorded, and it is one of success exactly when
each of them succeeded. -/
structure Answers (result : Except KubeError Unit × World) (w : World) (entries : List Answered) :
    Prop where
  calls : result.2.calls = w.calls ++ entries.map Prod.fst
  isOk : result.1.isOk = entries.all Answered.succeeded

theorem answers_apiDelete (n : String) (w : World) :
    Answers (apiDelete fails n w) w [(⟨.deleteNamespace, n⟩, (apiDelete fails n w).1)] := by
  rw [apiDelete]
  cases fails ⟨.deleteNamespace, n⟩ with
  | true => exact ⟨rfl, rfl⟩
  | false =>
    simp only [World.record]
    by_cases hmem : n ∈ w.cluster
    · simp only [hmem]
      exact ⟨rfl, rfl⟩
    · simp only [hmem]
      exact ⟨rfl, rfl⟩

theorem answers_createNamespace (fails : Call → Bool) (n : String) (w : World) :
    Answers (createNamespace fails n w) w
      [(⟨.patchNamespace, n⟩, (createNamespace fails n w).1)] := by
  simp only [createNamespace, World.record]
  split_ifs <;> exact ⟨rfl, rfl⟩

theorem answers_createConfigmap (crates : Crates) (fails : Call → Bool) (n : String)
    (session : Session) (w : World) :
    Answers (createConfigmap crates fails n session w) w
      [(⟨.patchConfigMap, n⟩, (createConfigmap crates fails n session w).1)] := by
  simp only [createConfigmap, World.record]
  split_ifs
  · exact ⟨rfl, rfl⟩
  · split <;> exact ⟨rfl, rfl⟩

theorem Answers.cons {result : Except KubeError Unit × World} {w w' : World} {call : Call}
    {entries : List Answered} (hcalls : w'.calls = w.calls ++ [call])
    (h : Answers result w' entries) : Answers result w ((call, .ok ()) :: entries) where
  calls := by
    rw [h.calls, hcalls, List.append_assoc]
    rfl
  isOk := by
    rw [h.isOk, List.all_cons]
    rfl

theorem answers_deleteNamespace (fails : Call → Bool) (n : String) (w : World) :
    Answers (deleteNamespace fails n w) w (deleteAnswers fails n w) := by
  rw [deleteNamespace, deleteAnswers, getNamespace]
  split_ifs
  · exact ⟨rfl, rfl⟩
  · exact (answers_apiDelete n _).cons rfl
  · exact ⟨rfl, rfl⟩

theorem answers_updateSessionspace (crates : Crates) (fails : Call → Bool) (n : String)
    (s : Loop) :
    Answers ((updateSessionspace crates fails n s).1, (updateSessionspace crates fails n s).2.world)
      s.world (answers crates fails n s) ∧
    (updateSessionspace crates fails n s).2.current[n]? =
      if (updateSessionspace crates fails n s).1.isOk then s.new[n]? else s.current[n]? := by
  rw [updateSessionspace, answers]
  cases hcurrent : s.current[n]? with
  | some currentSession =>
    cases hnew : s.new[n]? with
    | none =>
      have hdelete := answers_deleteNamespace fails n s.world
      cases hresult : deleteNamespace fails n s.world with
      | mk result w =>
        rw [hresult] at hdelete
        cases result with
        | ok u => exact ⟨hdelete, by simp [Except.isOk, Except.toBool]⟩
        | error e => exact ⟨hdelete, hcurrent⟩
    | some session =>
      have hconfigmap := answers_createConfigmap crates fails n session s.world
      by_cases hsame : currentSession = session
      · simp only [hsame, ne_eq, not_true_eq_false, if_false]
        refine ⟨⟨(List.append_nil _).symm, rfl⟩, ?_⟩
        exact hcurrent.trans (congrArg some hsame)
      · simp only [ne_eq, hsame, not_false_eq_true, if_true]
        cases hresult : createConfigmap crates fails n session s.world with
        | mk result w =>
          rw [hresult] at hconfigmap
          cases result with
          | ok u => exact ⟨hconfigmap, Std.TreeMap.getElem?_insert_self⟩
          | error e => exact ⟨hconfigmap, hcurrent⟩
  | none =>
    cases hnew : s.new[n]? with
    | none => exact ⟨⟨(List.append_nil _).symm, rfl⟩, hcurrent⟩
    | some session =>
      have hcreate := answers_createNamespace fails n s.world
      simp only [createAnswers]
      cases hresult : createNamespace fails n s.world with
      | mk result w =>
        rw [hresult] at hcreate
        cases result with
        | error e => exact ⟨hcreate, hcurrent⟩
        | ok u =>
          have hconfigmap := (answers_createConfigmap crates fails n session w).cons hcreate.calls
          obtain ⟨result, after, hlast⟩ : ∃ result after,
              createConfigmap crates fails n session w = (result, after) := ⟨_, _, rfl⟩
          rw [hlast] at hconfigmap
          simp only [hlast]
          cases result with
          | ok u => exact ⟨hconfigmap, Std.TreeMap.getElem?_insert_self⟩
          | error e => exact ⟨hconfigmap, hcurrent⟩

section Object

variable {n : String} {w w' : World}

theorem deleteAnswers_congr (h : w'.cluster[n]? = w.cluster[n]?) :
    deleteAnswers fails n w' = deleteAnswers fails n w := by
  have hmem : n ∈ w'.cluster ↔ n ∈ w.cluster := by
    rw [Std.TreeMap.mem_iff_isSome_getElem?, h, ← Std.TreeMap.mem_iff_isSome_getElem?]
  simp only [deleteAnswers, getNamespace, apiDelete, World.record, hmem]
  cases fails ⟨.getNamespace, n⟩ with
  | true => rfl
  | false =>
    by_cases hn : n ∈ w.cluster
    · cases fails ⟨.deleteNamespace, n⟩ <;> simp [hn, hmem.mpr hn]
    · simp [hn]

theorem createConfigmap_congr {session : Session} (h : w'.cluster[n]? = w.cluster[n]?) :
    (createConfigmap crates fails n session w').1 = (createConfigmap crates fails n session w).1 := by
  simp only [createConfigmap, World.record, h]
  split_ifs
  · rfl
  · cases w.cluster[n]? <;> rfl

theorem createAnswers_congr {session : Session} (h : w'.cluster[n]? = w.cluster[n]?) :
    createAnswers crates fails n session w' = createAnswers crates fails n session w := by
  simp only [createAnswers, createNamespace, World.record]
  cases fails ⟨.patchNamespace, n⟩ with
  | true => rfl
  | false =>
    simp only [Bool.false_eq_true, if_false]
    rw [createConfigmap_congr]
    simp [h]

end Object

/-- The requests for a name depend on what stands there before its turn. -/
theorem answers_congr {n : String} {s t : Loop} (h : slot t n = slot s n) :
    answers crates fails n t = answers crates fails n s := by
  have hcurrent : t.current[n]? = s.current[n]? := congrArg Slot.current h
  have hnew : t.new[n]? = s.new[n]? := congrArg Slot.new h
  have hobject : t.world.cluster[n]? = s.world.cluster[n]? := congrArg Slot.object h
  rw [answers, answers, hcurrent, hnew, deleteAnswers_congr hobject]
  split
  · rfl
  · exact createAnswers_congr hobject
  · rw [createConfigmap_congr hobject]
  · rfl

theorem answers_eq_nil {n : String} {s : Loop} (hcurrent : s.current[n]? = none)
    (hnew : s.new[n]? = none) : answers crates fails n s = [] := by
  rw [answers, hcurrent, hnew]

/-- A request that fails under another name changes nothing for this one. -/
theorem updateSessionspace_congr {fails' : Call → Bool} {n : String}
    (h : ∀ call, call.target = n → fails' call = fails call) (s : Loop) :
    updateSessionspace crates fails' n s = updateSessionspace crates fails n s := by
  simp only [updateSessionspace, deleteNamespace, getNamespace, apiDelete, createNamespace,
    createConfigmap, h ⟨.getNamespace, n⟩ rfl, h ⟨.deleteNamespace, n⟩ rfl,
    h ⟨.patchNamespace, n⟩ rfl, h ⟨.patchConfigMap, n⟩ rfl]

theorem answers_fails_congr {fails' : Call → Bool} {n : String}
    (h : ∀ call, call.target = n → fails' call = fails call) (s : Loop) :
    answers crates fails' n s = answers crates fails n s := by
  simp only [answers, deleteAnswers, createAnswers, getNamespace, apiDelete, createNamespace,
    createConfigmap, h ⟨.getNamespace, n⟩ rfl, h ⟨.deleteNamespace, n⟩ rfl,
    h ⟨.patchNamespace, n⟩ rfl, h ⟨.patchConfigMap, n⟩ rfl]

end Step

section Tick

variable {crates : Crates} {fails : Call → Bool}

theorem calls_foldl (ns : List String) (s : Loop) :
    (ns.foldl (fun s n => (updateSessionspace crates fails n s).2) s).world.calls =
      s.world.calls ++ (answersOf crates fails ns s).map Prod.fst := by
  induction ns generalizing s with
  | nil => exact (List.append_nil _).symm
  | cons n ns ih =>
    rw [List.foldl_cons, ih, answersOf, List.map_append, ← List.append_assoc,
      (answers_updateSessionspace crates fails n s).1.calls]

theorem filter_answersOf {ns : List String} (hns : ns.Nodup) (s : Loop) (m : String) :
    (answersOf crates fails ns s).filter (·.1.target = m) =
      if m ∈ ns then answers crates fails m s else [] := by
  induction ns generalizing s with
  | nil => rfl
  | cons n ns ih =>
    obtain ⟨hn, hns⟩ := List.nodup_cons.mp hns
    rw [answersOf, List.filter_append, ih hns]
    rcases eq_or_ne m n with rfl | hne
    · rw [if_neg hn, if_pos List.mem_cons_self, List.append_nil]
      apply List.filter_eq_self.mpr
      intro entry hentry
      simp [target_of_mem_answers entry hentry]
    · have hnone : (answers crates fails n s).filter (·.1.target = m) = [] := by
        apply List.filter_eq_nil_iff.mpr
        intro entry hentry
        simp [target_of_mem_answers entry hentry, hne.symm]
      rw [hnone, List.nil_append, answers_congr (slot_update_of_ne s n m hne)]
      simp [hne]

theorem filter_tickAnswers (s : Loop) (n : String) :
    (tickAnswers crates fails s).filter (·.1.target = n) = answers crates fails n s := by
  rw [tickAnswers, filter_answersOf (nodup_toUpdate s.current s.new)]
  split_ifs with hn
  · rfl
  · obtain ⟨hcurrent, hnew⟩ := not_or.mp (mt mem_toUpdate.mpr hn)
    exact (answers_eq_nil (by simpa using hcurrent) (by simpa using hnew)).symm

theorem slot_tick (s : Loop) (n : String) :
    slot (updateSessionspaces crates fails s) n = slot (updateSessionspace crates fails n s).2 n := by
  rw [slot_updateSessionspaces, slot_update_self]

theorem current_updateSessionspaces (s : Loop) (n : String) :
    (updateSessionspaces crates fails s).current[n]? =
      if (answers crates fails n s).all Answered.succeeded then s.new[n]? else s.current[n]? := by
  have hslot : (updateSessionspaces crates fails s).current[n]? =
      (updateSessionspace crates fails n s).2.current[n]? := congrArg Slot.current (slot_tick s n)
  obtain ⟨hanswers, hcurrent⟩ := answers_updateSessionspace crates fails n s
  rw [hslot, hcurrent, ← hanswers.isOk]

end Tick

/-- A tick remembers what succeeded, name by name, and what it does for one name has nothing to do
with the requests that fail for others. -/
theorem updateSessionspaces_remembers (crates : Crates) (fails : Call → Bool) (s : Loop) :
    (updateSessionspaces crates fails s).world.calls =
        s.world.calls ++ (tickAnswers crates fails s).map Prod.fst ∧
      ∀ n,
        ((∀ entry ∈ tickAnswers crates fails s, entry.1.target = n → entry.succeeded) →
          (updateSessionspaces crates fails s).current[n]? = s.new[n]?) ∧
        ((∃ entry ∈ tickAnswers crates fails s, entry.1.target = n ∧ ¬ entry.succeeded) →
          (updateSessionspaces crates fails s).current[n]? = s.current[n]?) ∧
        ∀ fails' : Call → Bool, (∀ call, call.target = n → fails' call = fails call) →
          (tickAnswers crates fails' s).filter (·.1.target = n) =
              (tickAnswers crates fails s).filter (·.1.target = n) ∧
            slot (updateSessionspaces crates fails' s) n =
              slot (updateSessionspaces crates fails s) n := by
  refine ⟨calls_foldl _ s, fun n => ⟨?_, ?_, ?_⟩⟩
  · intro hall
    rw [current_updateSessionspaces, if_pos]
    apply List.all_eq_true.mpr
    intro entry hentry
    rw [← filter_tickAnswers, List.mem_filter] at hentry
    exact hall entry hentry.1 (of_decide_eq_true hentry.2)
  · rintro ⟨entry, hentry, htarget, hfailed⟩
    rw [current_updateSessionspaces, if_neg]
    intro hall
    apply hfailed
    apply List.all_eq_true.mp hall
    rw [← filter_tickAnswers, List.mem_filter]
    exact ⟨hentry, decide_eq_true htarget⟩
  · intro fails' hagree
    rw [filter_tickAnswers, filter_tickAnswers, slot_tick, slot_tick,
      updateSessionspace_congr hagree, answers_fails_congr hagree]
    exact ⟨rfl, rfl⟩

def exampleLoop : Loop where
  current := ∅
  new := exampleSessions
  world := ⟨∅, []⟩

theorem updateSessionspaces_remembers_example :
    (updateSessionspaces exampleCrates (fun c => c.verb = .patchConfigMap)
      exampleLoop).current["cm37235-3"]? = none := by
  have hremembers := (updateSessionspaces_remembers exampleCrates
    (fun c => c.verb = .patchConfigMap) exampleLoop).2 "cm37235-3"
  apply hremembers.2.1
  have hrefused : (tickAnswers exampleCrates (fun c => c.verb = .patchConfigMap) exampleLoop)[1]? =
      some (⟨.patchConfigMap, "cm37235-3"⟩, .error .other) := by rfl
  exact ⟨_, List.mem_of_getElem? hrefused, rfl, by decide⟩

end Workflows.Sessionspaces
