import Workflows.Sessionspaces.Reconcile
import Workflows.Foundations.Dictionary

/-!
# Sessions from a file

The entries of the static sessions file, each with one session for every visit, and what becomes of
them next to the fetched sessions. The text of the file is read by `serde_json`.
-/

namespace Workflows.Sessionspaces

open Dictionary

structure StaticSessionEntry where
  dataDirectory : String
  proposalCode : String
  proposalNumber : UInt32
  visits : List UInt32
  instrument : Instrument
  members : Finset String
  gid : Option UInt32
  startDate : PrimitiveDateTime
  endDate : PrimitiveDateTime

/-- Expands this entry into one session per visit number. -/
def StaticSessionEntry.intoSessions (self : StaticSessionEntry) : List (String × Session) :=
  self.visits.map fun visit =>
    (self.proposalCode ++ toString self.proposalNumber ++ "-" ++ toString visit,
      { dataDirectory := some self.dataDirectory
        proposalCode := self.proposalCode
        proposalNumber := self.proposalNumber
        visit
        instrument := self.instrument
        members := self.members
        gid := self.gid
        startDate := self.startDate
        endDate := self.endDate })

/-- `from_path` after the file is read. -/
def StaticSessions.fromEntries (entries : List StaticSessionEntry) : StaticSessions where
  sessions := entries.foldl
    (fun sessions entry => entry.intoSessions.foldl
      (fun sessions named => sessions.insert named.1 named.2) sessions) ∅

theorem fromEntries_eq (entries : List StaticSessionEntry) :
    (StaticSessions.fromEntries entries).sessions =
      dictOf Prod.fst Prod.snd (entries.flatMap StaticSessionEntry.intoSessions) := by
  rw [StaticSessions.fromEntries, dictOf, List.foldl_flatMap]

theorem getElem?_fromEntries (entries : List StaticSessionEntry) (n : String) :
    (StaticSessions.fromEntries entries).sessions[n]? =
      (lastWith Prod.fst n (entries.flatMap StaticSessionEntry.intoSessions)).map Prod.snd := by
  rw [fromEntries_eq, getElem?_dictOf]

theorem getElem?_foldl_insertIfNew (named : List (String × Session)) (target : Sessions)
    (n : String) :
    (named.foldl (fun target entry => target.insertIfNew entry.1 entry.2) target)[n]? =
      target[n]?.or ((named.find? (·.1 = n)).map Prod.snd) := by
  induction named generalizing target with
  | nil => simp
  | cons entry named ih =>
    obtain ⟨name, session⟩ := entry
    rw [List.foldl_cons, ih, Std.TreeMap.getElem?_insertIfNew]
    by_cases hname : name = n
    · subst hname
      by_cases hmem : name ∈ target
      · simp [hmem]
      · simp [hmem]
    · simp [hname, Std.LawfulEqCmp.compare_eq_iff_eq]

theorem find?_toList (sessions : Sessions) (n : String) :
    (sessions.toList.find? (·.1 = n)).map Prod.snd = sessions[n]? := by
  cases hfind : sessions.toList.find? (·.1 = n) with
  | none =>
    symm
    apply Option.eq_none_iff_forall_ne_some.mpr
    intro session hsession
    have hmem := Std.TreeMap.mem_toList_iff_getElem?_eq_some.mpr hsession
    exact List.find?_eq_none.mp hfind (n, session) hmem (decide_eq_true rfl)
  | some entry =>
    obtain ⟨name, session⟩ := entry
    have hname : decide (name = n) = true :=
      List.find?_some (p := fun entry : String × Session => decide (entry.1 = n)) hfind
    obtain rfl := of_decide_eq_true hname
    have hmem := List.mem_of_find?_eq_some hfind
    exact (Std.TreeMap.mem_toList_iff_getElem?_eq_some.mp hmem).symm

/-- Real sessions come first. -/
theorem getElem?_mergeInto (statics : StaticSessions) (target : Sessions) (n : String) :
    (statics.mergeInto target)[n]? = target[n]?.or statics.sessions[n]? := by
  rw [StaticSessions.mergeInto, Std.TreeMap.foldl_eq_foldl_toList, getElem?_foldl_insertIfNew,
    find?_toList]

theorem getElem?_mergedSessions (staticSessions : Option StaticSessions) (fetched : Sessions)
    (n : String) :
    (mergedSessions staticSessions fetched)[n]? =
      fetched[n]?.or (staticSessions.bind fun statics => statics.sessions[n]?) := by
  cases staticSessions with
  | none => simp [mergedSessions]
  | some statics => exact getElem?_mergeInto statics fetched n

end Workflows.Sessionspaces
