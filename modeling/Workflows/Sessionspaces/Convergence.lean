import Workflows.Sessionspaces.Reconcile

/-!
# What a tick leaves in the cluster

The loop treats each name alone, so it is the product of one small automaton for each namespace: the
remembered session, the wanted session and the object in the cluster. Convergence is read off from
that automaton. It fails for one kind of namespace only: one whose creation went through while its
ConfigMap was refused, and whose session is gone in a later tick, which nothing remembers.
-/

namespace Workflows.Sessionspaces

open KeyedLoop

structure Slot where
  current : Option Session
  new : Option Session
  object : Option Namespace
  calls : List Call

def slot (s : Loop) (n : String) : Slot where
  current := s.current[n]?
  new := s.new[n]?
  object := s.world.cluster[n]?
  calls := s.world.calls.filter (·.target = n)

section Update

variable (crates : Crates) (fails : Call → Bool)

def managedNamespace (configMap : Option ConfigMap) : Namespace :=
  { labels := [(managedByLabel, managedBy)], configMap }

def Slot.delete (n : String) (s : Slot) : Slot :=
  if fails ⟨.getNamespace, n⟩ then { s with new := none, calls := s.calls ++ [⟨.getNamespace, n⟩] }
  else if s.object.isNone then
    { s with current := none, new := none, calls := s.calls ++ [⟨.getNamespace, n⟩] }
  else if fails ⟨.deleteNamespace, n⟩ then
    { s with new := none, calls := s.calls ++ [⟨.getNamespace, n⟩, ⟨.deleteNamespace, n⟩] }
  else
    { current := none, new := none, object := none
      calls := s.calls ++ [⟨.getNamespace, n⟩, ⟨.deleteNamespace, n⟩] }

def Slot.create (n : String) (session : Session) (s : Slot) : Slot :=
  if fails ⟨.patchNamespace, n⟩ then
    { s with new := none, calls := s.calls ++ [⟨.patchNamespace, n⟩] }
  else if fails ⟨.patchConfigMap, n⟩ then
    { s with
      new := none
      object := some (managedNamespace (s.object.bind (·.configMap)))
      calls := s.calls ++ [⟨.patchNamespace, n⟩, ⟨.patchConfigMap, n⟩] }
  else
    { current := some session
      new := none
      object := some (managedNamespace (some (configMapOf crates session)))
      calls := s.calls ++ [⟨.patchNamespace, n⟩, ⟨.patchConfigMap, n⟩] }

def Slot.change (n : String) (session : Session) (s : Slot) : Slot :=
  match fails ⟨.patchConfigMap, n⟩, s.object with
  | false, some ns =>
    { current := some session
      new := none
      object := some { ns with configMap := some (configMapOf crates session) }
      calls := s.calls ++ [⟨.patchConfigMap, n⟩] }
  | _, _ => { s with new := none, calls := s.calls ++ [⟨.patchConfigMap, n⟩] }

def Slot.update (n : String) (s : Slot) : Slot :=
  match s.current, s.new with
  | some _, none => s.delete fails n
  | none, some session => s.create crates fails n session
  | some currentSession, some session =>
    if currentSession ≠ session then s.change crates fails n session else { s with new := none }
  | none, none => s

end Update

section Loop

variable {crates : Crates} {fails : Call → Bool}

theorem slot_delete (s : Loop) (n : String) {c : Session} (hc : s.current[n]? = some c)
    (hnew : s.new[n]? = none) :
    slot (updateSessionspace crates fails n s).2 n = (slot s n).delete fails n := by
  simp only [updateSessionspace, hc, hnew, deleteNamespace, getNamespace, apiDelete, Slot.delete,
    slot, World.record]
  by_cases hget : fails ⟨.getNamespace, n⟩
  · simp [hget, hc]
  · by_cases hmem : n ∈ s.world.cluster
    · have hsome := Std.TreeMap.mem_iff_isSome_getElem?.mp hmem
      by_cases hdel : fails ⟨.deleteNamespace, n⟩ <;> simp [hget, hmem, hdel, hc]
    · simp [hget, hmem]

theorem slot_create (s : Loop) (n : String) {session : Session}
    (hc : s.current[n]? = none) (hnew : s.new[n]? = some session) :
    slot (updateSessionspace crates fails n s).2 n = (slot s n).create crates fails n session := by
  simp only [updateSessionspace, hc, hnew, createNamespace, createConfigmap, Slot.create, slot,
    World.record]
  by_cases hns : fails ⟨.patchNamespace, n⟩
  · simpa [hns] using hc
  · by_cases hcm : fails ⟨.patchConfigMap, n⟩
    · simpa [hns, hcm, managedNamespace] using hc
    · simp [hns, hcm, managedNamespace]

theorem slot_change (s : Loop) (n : String) {c session : Session}
    (hc : s.current[n]? = some c) (hnew : s.new[n]? = some session) (hne : c ≠ session) :
    slot (updateSessionspace crates fails n s).2 n = (slot s n).change crates fails n session := by
  simp only [updateSessionspace, hc, hnew, createConfigmap, Slot.change, slot, World.record,
    if_pos hne]
  by_cases hcm : fails ⟨.patchConfigMap, n⟩
  · simp [hcm, hc]
  · cases hobj : s.world.cluster[n]? <;> simp [hcm, hc, hobj]

theorem slot_update_self (s : Loop) (n : String) :
    slot (updateSessionspace crates fails n s).2 n = (slot s n).update crates fails n := by
  have hcur : (slot s n).current = s.current[n]? := rfl
  have hnew : (slot s n).new = s.new[n]? := rfl
  rw [Slot.update, hcur, hnew]
  cases hc : s.current[n]? with
  | some c =>
    cases hs : s.new[n]? with
    | none => exact slot_delete s n hc hs
    | some session =>
      by_cases hne : c = session
      · simp [updateSessionspace, hc, hs, hne, slot]
      · simpa [hne] using slot_change s n hc hs hne
  | none =>
    cases hs : s.new[n]? with
    | none => simp [updateSessionspace, hc, hs, slot]
    | some session => exact slot_create s n hc hs

/-- The requests for one name leave what is held and recorded under another as it was. -/
structure World.AgreesAt (m : String) (w w' : World) : Prop where
  object : w'.cluster[m]? = w.cluster[m]?
  calls : w'.calls.filter (·.target = m) = w.calls.filter (·.target = m)

theorem agreesAt_record {m : String} {c : Call} (h : m ≠ c.target) (w : World) :
    w.AgreesAt m (w.record c) where
  object := rfl
  calls := by simp [World.record, h.symm]

theorem agreesAt_apiDelete {m n : String} (h : m ≠ n) (w : World) :
    w.AgreesAt m (apiDelete fails n w).2 := by
  by_cases hf : fails ⟨.deleteNamespace, n⟩
  · constructor <;> simp [apiDelete, World.record, hf, h.symm]
  · by_cases hmem : n ∈ w.cluster
    · constructor <;> simp [apiDelete, World.record, hf, hmem, Std.TreeMap.getElem?_erase, h.symm]
    · constructor <;> simp [apiDelete, World.record, hf, hmem, h.symm]

theorem World.AgreesAt.trans {m : String} {w₁ w₂ w₃ : World} (h : w₁.AgreesAt m w₂)
    (h' : w₂.AgreesAt m w₃) : w₁.AgreesAt m w₃ where
  object := h'.object.trans h.object
  calls := h'.calls.trans h.calls

theorem agreesAt_deleteNamespace {m n : String} (h : m ≠ n) (w : World) :
    w.AgreesAt m (deleteNamespace fails n w).2 := by
  have hget : w.AgreesAt m (w.record ⟨.getNamespace, n⟩) := agreesAt_record h w
  simp only [deleteNamespace, getNamespace]
  split
  next heq =>
    rw [← (Prod.mk.inj heq).2]
    exact hget.trans (agreesAt_apiDelete h _)
  next heq => exact (Prod.mk.inj heq).2 ▸ hget
  next heq => exact (Prod.mk.inj heq).2 ▸ hget

theorem agreesAt_createNamespace {m n : String} (h : m ≠ n) (w : World) :
    w.AgreesAt m (createNamespace fails n w).2 := by
  simp only [createNamespace, World.record]
  constructor <;> split_ifs <;> simp [Std.TreeMap.getElem?_insert, h.symm]

theorem agreesAt_createConfigmap {m n : String} (h : m ≠ n) (session : Session) (w : World) :
    w.AgreesAt m (createConfigmap crates fails n session w).2 := by
  simp only [createConfigmap, World.record]
  constructor <;> split_ifs <;> cases w.cluster[n]? <;>
    simp [Std.TreeMap.getElem?_insert, h.symm]

theorem slot_eq_of_agreesAt {m n : String} (h : m ≠ n) {s t : Loop}
    (hcur : t.current[m]? = s.current[m]?) (hnew : t.new = s.new.erase n)
    (hw : s.world.AgreesAt m t.world) : slot t m = slot s m := by
  simp only [slot, hcur, hnew, hw.object, hw.calls, Std.TreeMap.getElem?_erase]
  simp [h.symm]

theorem slot_update_of_ne (s : Loop) (n m : String) (h : m ≠ n) :
    slot (updateSessionspace crates fails n s).2 m = slot s m := by
  have hdel : s.world.AgreesAt m (deleteNamespace fails n s.world).2 :=
    agreesAt_deleteNamespace h s.world
  have hns : s.world.AgreesAt m (createNamespace fails n s.world).2 :=
    agreesAt_createNamespace h s.world
  simp only [updateSessionspace]
  split
  · split
    next heq =>
      rw [heq] at hdel
      exact slot_eq_of_agreesAt h (by simp [Std.TreeMap.getElem?_erase, h.symm]) rfl hdel
    next heq =>
      rw [heq] at hdel
      exact slot_eq_of_agreesAt h rfl rfl hdel
  · split
    next heq =>
      rw [heq] at hns
      exact slot_eq_of_agreesAt h rfl rfl hns
    next session _ _ _ _ w heq =>
      rw [heq] at hns
      have hcm : s.world.AgreesAt m (createConfigmap crates fails n session w).2 :=
        hns.trans (agreesAt_createConfigmap h session w)
      split
      next heq =>
        rw [heq] at hcm
        exact slot_eq_of_agreesAt h rfl rfl hcm
      next heq =>
        rw [heq] at hcm
        exact slot_eq_of_agreesAt h (by simp [Std.TreeMap.getElem?_insert, h.symm]) rfl hcm
  next currentSession session _ _ =>
    have hcm : s.world.AgreesAt m (createConfigmap crates fails n session s.world).2 :=
      agreesAt_createConfigmap h session s.world
    split_ifs
    · split
      next heq =>
        rw [heq] at hcm
        exact slot_eq_of_agreesAt h rfl rfl hcm
      next heq =>
        rw [heq] at hcm
        exact slot_eq_of_agreesAt h (by simp [Std.TreeMap.getElem?_insert, h.symm]) rfl hcm
    · exact slot_eq_of_agreesAt h rfl rfl ⟨rfl, rfl⟩
  · exact slot_eq_of_agreesAt h rfl rfl ⟨rfl, rfl⟩

theorem local_updateSessionspace :
    Local slot (fun n s => s.update crates fails n)
      (fun s n => (updateSessionspace crates fails n s).2) where
  own := slot_update_self
  frame := slot_update_of_ne

theorem mem_toUpdate {current new : Sessions} {n : String} :
    n ∈ toUpdate current new ↔ n ∈ current ∨ n ∈ new := by
  simp [toUpdate]

theorem nodup_toUpdate (current new : Sessions) : (toUpdate current new).Nodup :=
  List.Pairwise.imp
    (fun {a b} (h : ¬compare a b = .eq) (heq : a = b) => h (heq ▸ Std.ReflCmp.compare_self))
    Std.TreeSet.distinct_toList

/-- The whole loop is one step of the automaton at every name. -/
theorem slot_updateSessionspaces (s : Loop) (n : String) :
    slot (updateSessionspaces crates fails s) n = (slot s n).update crates fails n := by
  -- a name in neither map is not visited, and the automaton has nothing to do for it
  by_cases hn : n ∈ toUpdate s.current s.new
  · exact local_updateSessionspace.foldl_of_mem s (nodup_toUpdate s.current s.new) hn
  · obtain ⟨hcur, hnew⟩ := not_or.mp (mt mem_toUpdate.mpr hn)
    have hidle : (slot s n).update crates fails n = slot s n := by
      rw [Slot.update, show (slot s n).current = none by simpa [slot] using hcur,
        show (slot s n).new = none by simpa [slot] using hnew]
    rw [hidle]
    exact local_updateSessionspace.foldl_of_notMem s hn

end Loop

/-! ## The automaton of one namespace -/

namespace Slot

variable {crates : Crates} {fails : Call → Bool}

def Realized (crates : Crates) (s : Slot) : Prop :=
  ∀ session, s.current = some session →
    ∃ ns, s.object = some ns ∧ ns.configMap = some (configMapOf crates session)

theorem Realized.update {s : Slot} (h : s.Realized crates) (n : String) :
    (s.update crates fails n).Realized crates := by
  intro session
  obtain ⟨current, new, object, calls⟩ := s
  cases current with
  | some currentSession =>
    obtain ⟨ns, hobj, hns⟩ := h currentSession rfl
    cases hobj
    cases new with
    | none =>
      simp only [Slot.update, delete]
      split_ifs <;> intro hcur <;> cases hcur
      all_goals exact ⟨ns, rfl, hns⟩
    | some newSession =>
      simp only [Slot.update, change]
      split_ifs with hne
      · cases fails ⟨.patchConfigMap, n⟩ <;> intro hcur <;> cases hcur
        · exact ⟨_, rfl, rfl⟩
        · exact ⟨ns, rfl, hns⟩
      · intro hcur
        cases hcur
        exact ⟨ns, rfl, hns⟩
  | none =>
    cases new with
    | none => exact fun hcur => nomatch hcur
    | some newSession =>
      simp only [Slot.update, create]
      split_ifs <;> intro hcur <;> cases hcur
      exact ⟨_, rfl, rfl⟩

/-- Where no request fails, a wanted session is realized, a remembered one that is no longer wanted
is gone, and a namespace that is neither is left alone. -/
theorem update_of_clean {s : Slot} (h : s.Realized crates) (n : String)
    (hclean : ∀ c ∈ (s.update crates fails n).calls, fails c = false) :
    (∀ session, s.new = some session → ∃ ns, (s.update crates fails n).object = some ns ∧
      ns.configMap = some (configMapOf crates session)) ∧
    (s.new = none → (s.update crates fails n).object =
      if s.current.isSome then none else s.object) := by
  obtain ⟨current, new, object, calls⟩ := s
  cases current with
  | some currentSession =>
    obtain ⟨ns, hobj, hns⟩ := h currentSession rfl
    cases hobj
    cases new with
    | none =>
      refine ⟨fun _ hnew => (nomatch hnew), fun _ => ?_⟩
      simp only [Slot.update, delete] at hclean ⊢
      split_ifs at hclean ⊢ with hget hnone hdel <;> simp_all
    | some newSession =>
      refine ⟨?_, fun hnew => nomatch hnew⟩
      intro session hsession
      cases hsession
      simp only [Slot.update, change] at hclean ⊢
      split_ifs at hclean ⊢ with hne
      · cases hcm : fails ⟨.patchConfigMap, n⟩ <;> simp_all
      · have heq : currentSession = newSession := not_not.mp hne
        exact ⟨ns, rfl, heq ▸ hns⟩
  | none =>
    cases new with
    | none => exact ⟨fun _ hnew => (nomatch hnew), fun _ => rfl⟩
    | some newSession =>
      refine ⟨?_, fun hnew => nomatch hnew⟩
      intro session hsession
      cases hsession
      simp only [Slot.update, create] at hclean ⊢
      split_ifs at hclean ⊢ with hns hcm
      · simp_all
      · simp_all
      · exact ⟨_, rfl, rfl⟩

end Slot

/-! ## Whole ticks -/

section Ticks

variable (crates : Crates) (staticSessions : Option StaticSessions)

/-- The cluster holds exactly the wanted namespaces, each with the ConfigMap of its session. -/
def Converged (s : Controller) (wanted : Sessions) : Prop :=
  (∀ n, n ∈ s.cluster ↔ n ∈ wanted) ∧
  ∀ (n : String) (session : Session), wanted[n]? = some session →
    ∃ ns : Namespace, s.cluster[n]? = some ns ∧ ns.configMap = some (configMapOf crates session)

/-- Every namespace that stands is remembered or wanted. -/
def NoneForgotten (s : Controller) (wanted : Sessions) : Prop :=
  ∀ n ∈ s.cluster, n ∈ s.current ∨ n ∈ wanted

def CleanTick (s : Controller) (fails : Call → Bool) (fetched : Sessions) : Prop :=
  ∀ c ∈ (reconcile crates staticSessions s fails fetched).world.calls, fails c = false

def Controller.slot (s : Controller) (wanted : Sessions) (n : String) : Slot where
  current := s.current[n]?
  new := wanted[n]?
  object := s.cluster[n]?
  calls := []

def RealizesCurrent (s : Controller) : Prop :=
  ∀ (n : String) (session : Session), s.current[n]? = some session →
    ∃ ns : Namespace, s.cluster[n]? = some ns ∧ ns.configMap = some (configMapOf crates session)

variable {crates staticSessions}

theorem slot_reconcile (s : Controller) (fails : Call → Bool) (fetched : Sessions) (n : String) :
    slot (reconcile crates staticSessions s fails fetched) n =
      (s.slot (mergedSessions staticSessions fetched) n).update crates fails n :=
  slot_updateSessionspaces _ n

theorem realizesCurrent_tick {s : Controller} (h : RealizesCurrent crates s) (t : Tick) :
    RealizesCurrent crates (tick crates staticSessions s t) := by
  unfold tick
  split
  next fetched _ =>
    intro n
    have hbefore : (s.slot (mergedSessions staticSessions fetched) n).Realized crates := h n
    have hafter : ((s.slot (mergedSessions staticSessions fetched) n).update crates t.fails
        n).Realized crates := hbefore.update n
    rw [← slot_reconcile] at hafter
    exact hafter
  next => exact h

theorem realizesCurrent_run (ticks : List Tick) :
    RealizesCurrent crates (run crates staticSessions ticks) := by
  have hinit : RealizesCurrent crates .init := by
    intro n session hcur
    simp [Controller.init] at hcur
  unfold run
  generalize Controller.init = s at hinit
  induction ticks generalizing s with
  | nil => exact hinit
  | cons t ticks ih => exact ih _ (realizesCurrent_tick hinit t)

/-- A clean tick realizes what is wanted, and of the rest it removes what was remembered. -/
theorem cluster_of_clean_tick {s : Controller} (h : RealizesCurrent crates s) {t : Tick}
    {fetched : Sessions} (hfetched : t.fetched = some fetched)
    (hclean : CleanTick crates staticSessions s t.fails fetched) (n : String) :
    (∀ session, (mergedSessions staticSessions fetched)[n]? = some session →
      ∃ ns : Namespace, (tick crates staticSessions s t).cluster[n]? = some ns ∧
        ns.configMap = some (configMapOf crates session)) ∧
    (n ∉ mergedSessions staticSessions fetched →
      (tick crates staticSessions s t).cluster[n]? =
        if n ∈ s.current then none else s.cluster[n]?) := by
  have htick : (tick crates staticSessions s t).cluster[n]? =
      (slot (reconcile crates staticSessions s t.fails fetched) n).object := by
    simp only [tick, hfetched, slot]
  have hbefore : (s.slot (mergedSessions staticSessions fetched) n).Realized crates := h n
  have hcalls : ∀ c ∈ ((s.slot (mergedSessions staticSessions fetched) n).update crates t.fails
      n).calls, t.fails c = false := by
    rw [← slot_reconcile]
    exact fun c hc => hclean c (List.mem_of_mem_filter hc)
  have hafter := Slot.update_of_clean hbefore n hcalls
  rw [← slot_reconcile, ← htick] at hafter
  refine ⟨hafter.1, fun hn => ?_⟩
  rw [hafter.2 (by simpa [Controller.slot] using hn)]
  simp [Controller.slot]

theorem converged_iff_of_clean_tick {s : Controller} (h : RealizesCurrent crates s) {t : Tick}
    {fetched : Sessions} (hfetched : t.fetched = some fetched)
    (hclean : CleanTick crates staticSessions s t.fails fetched) :
    Converged crates (tick crates staticSessions s t) (mergedSessions staticSessions fetched) ↔
      NoneForgotten s (mergedSessions staticSessions fetched) := by
  have hcluster := cluster_of_clean_tick h hfetched hclean
  constructor
  · intro hconv n hn
    by_contra hforgotten
    obtain ⟨hcur, hnew⟩ := not_or.mp hforgotten
    have hkept := (hcluster n).2 hnew
    rw [if_neg hcur] at hkept
    have hstands : n ∈ (tick crates staticSessions s t).cluster := by
      rw [Std.TreeMap.mem_iff_isSome_getElem?, hkept]
      exact Std.TreeMap.mem_iff_isSome_getElem?.mp hn
    exact hnew ((hconv.1 n).mp hstands)
  · intro hnone
    refine ⟨fun n => ?_, fun n => (hcluster n).1⟩
    by_cases hnew : n ∈ mergedSessions staticSessions fetched
    · obtain ⟨session, hsession⟩ := Option.isSome_iff_exists.mp
        (Std.TreeMap.mem_iff_isSome_getElem?.mp hnew)
      obtain ⟨ns, hns, _⟩ := (hcluster n).1 session hsession
      simp [Std.TreeMap.mem_iff_isSome_getElem?, hns, hsession]
    · have hkept := (hcluster n).2 hnew
      have hgone : (tick crates staticSessions s t).cluster[n]? = none := by
        rw [hkept]
        split_ifs with hcur
        · rfl
        · by_contra hstands
          have hn : n ∈ s.cluster := by simpa using hstands
          exact (hnone n hn).elim hcur hnew
      exact iff_of_false (by simpa using hgone) hnew

/-- After any number of ticks, a clean tick converges exactly when each namespace that stood before
it is remembered or wanted. -/
theorem run_converged_iff (ticks : List Tick) (fetched : Sessions) (fails : Call → Bool)
    (hclean : CleanTick crates staticSessions (run crates staticSessions ticks) fails fetched) :
    Converged crates (run crates staticSessions (ticks ++ [⟨some fetched, fails⟩]))
        (mergedSessions staticSessions fetched) ↔
      NoneForgotten (run crates staticSessions ticks) (mergedSessions staticSessions fetched) := by
  have hlast : run crates staticSessions (ticks ++ [⟨some fetched, fails⟩]) =
      tick crates staticSessions (run crates staticSessions ticks) ⟨some fetched, fails⟩ := by
    rw [run, List.foldl_append]
    rfl
  rw [hlast]
  exact converged_iff_of_clean_tick (realizesCurrent_run ticks) rfl hclean

end Ticks

/-! ## A forgotten namespace -/

def exampleCrates : Crates := { dateTimeToString := fun _ => "", membersToJson := fun _ => "[]" }

def exampleSession : Session where
  proposalCode := "cm"
  proposalNumber := 37235
  visit := 3
  instrument := .i03
  members := ∅
  gid := none
  startDate := ⟨2024, 5, 24, 9, 0, 0, 0⟩
  endDate := ⟨2024, 8, 9, 9, 0, 0, 0⟩
  dataDirectory := none

def exampleSessions : Sessions := (∅ : Sessions).insert "cm37235-3" exampleSession

theorem run_converged_first_tick :
    Converged exampleCrates (run exampleCrates none [⟨some exampleSessions, fun _ => false⟩])
      exampleSessions :=
  (run_converged_iff [] exampleSessions (fun _ => false) fun _ _ => rfl).mpr
    fun n hn => by simp [run, Controller.init] at hn

/-- The ConfigMap is refused in the first tick and the session is gone in the second. -/
theorem run_not_converged :
    CleanTick exampleCrates none
      (run exampleCrates none [⟨some exampleSessions, fun c => c.verb = .patchConfigMap⟩])
      (fun _ => false) ∅ ∧
    ¬Converged exampleCrates
      (run exampleCrates none
        [⟨some exampleSessions, fun c => c.verb = .patchConfigMap⟩,
          ⟨some ∅, fun _ => false⟩]) ∅ := by
  refine ⟨fun _ _ => rfl, fun hconv => ?_⟩
  have hstands : "cm37235-3" ∈ (run exampleCrates none
      [⟨some exampleSessions, fun c => c.verb = .patchConfigMap⟩,
        ⟨some ∅, fun _ => false⟩]).cluster := by decide
  exact absurd ((hconv.1 _).mp hstands) (by decide)

end Workflows.Sessionspaces
