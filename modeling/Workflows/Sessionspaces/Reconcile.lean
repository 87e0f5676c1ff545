import Workflows.Sessionspaces.Session
import Workflows.Foundations.KeyedLoop

/-!
# The reconcile loop

`update_sessionspaces` and the Kubernetes requests it makes. A tick is given by the result of
`Sessions::fetch` and by the requests that fail; a failed request leaves the cluster as it was.
-/

namespace Workflows.Sessionspaces

inductive Verb where
  | getNamespace
  | deleteNamespace
  | patchNamespace
  | patchConfigMap
  deriving DecidableEq

structure Call where
  verb : Verb
  target : String
  deriving DecidableEq

/-- Only a 404 answer is told apart from other errors. -/
inductive KubeError where
  | notFound
  | other
  deriving DecidableEq

abbrev Cluster := Std.TreeMap String Namespace

/-- The cluster and the requests made so far, latest last. -/
structure World where
  cluster : Cluster
  calls : List Call

def World.record (w : World) (c : Call) : World := { w with calls := w.calls ++ [c] }

def getNamespace (fails : Call → Bool) (n : String) (w : World) : Except KubeError Unit × World :=
  (if fails ⟨.getNamespace, n⟩ then .error .other
    else if n ∈ w.cluster then .ok () else .error .notFound,
    w.record ⟨.getNamespace, n⟩)

def apiDelete (fails : Call → Bool) (n : String) (w : World) : Except KubeError Unit × World :=
  let w := w.record ⟨.deleteNamespace, n⟩
  if fails ⟨.deleteNamespace, n⟩ then (.error .other, w)
  else if n ∈ w.cluster then (.ok (), { w with cluster := w.cluster.erase n })
  else (.error .notFound, w)

/-- Removes a Namespace from the cluster; one that does not exist is skipped. -/
def deleteNamespace (fails : Call → Bool) (n : String) (w : World) :
    Except KubeError Unit × World :=
  match getNamespace fails n w with
  | (.ok _, w) => apiDelete fails n w
  | (.error .notFound, w) => (.ok (), w)
  | (.error .other, w) => (.error .other, w)

/-- A server-side apply creates the namespace or keeps what it holds. -/
def createNamespace (fails : Call → Bool) (n : String) (w : World) :
    Except KubeError Unit × World :=
  let w := w.record ⟨.patchNamespace, n⟩
  if fails ⟨.patchNamespace, n⟩ then (.error .other, w)
  else
    (.ok (), { w with
      cluster := w.cluster.insert n
        { labels := [(managedByLabel, managedBy)], configMap := w.cluster[n]?.bind (·.configMap) } })

def createConfigmap (crates : Crates) (fails : Call → Bool) (n : String) (session : Session)
    (w : World) : Except KubeError Unit × World :=
  let w := w.record ⟨.patchConfigMap, n⟩
  if fails ⟨.patchConfigMap, n⟩ then (.error .other, w)
  else match w.cluster[n]? with
    | none => (.error .notFound, w)
    | some ns =>
      (.ok (), { w with
        cluster := w.cluster.insert n { ns with configMap := some (configMapOf crates session) } })

structure Loop where
  current : Sessions
  new : Sessions
  world : World

/-- Updates a single sessionspace. The entry leaves `new` before the requests are made and enters
or leaves `current` only after all of them succeeded. -/
def updateSessionspace (crates : Crates) (fails : Call → Bool) (n : String) (s : Loop) :
    Except KubeError Unit × Loop :=
  let rest := { s with new := s.new.erase n }
  match s.current[n]?, s.new[n]? with
  | some _, none =>
    match deleteNamespace fails n s.world with
    | (.ok _, w) => (.ok (), { rest with current := s.current.erase n, world := w })
    | (.error e, w) => (.error e, { rest with world := w })
  | none, some session =>
    match createNamespace fails n s.world with
    | (.error e, w) => (.error e, { rest with world := w })
    | (.ok _, w) =>
      match createConfigmap crates fails n session w with
      | (.error e, w) => (.error e, { rest with world := w })
      | (.ok _, w) => (.ok (), { rest with current := s.current.insert n session, world := w })
  | some currentSession, some session =>
    if currentSession ≠ session then
      match createConfigmap crates fails n session s.world with
      | (.error e, w) => (.error e, { rest with world := w })
      | (.ok _, w) => (.ok (), { rest with current := s.current.insert n session, world := w })
    else (.ok (), rest)
  | none, none => (.ok (), rest)

/-- The names of both maps, each once and in order. -/
def toUpdate (current new : Sessions) : List String :=
  (Std.TreeSet.ofList (current.keys ++ new.keys)).toList

/-- An error is only logged, so the loop goes on with the next name. -/
def updateSessionspaces (crates : Crates) (fails : Call → Bool) (s : Loop) : Loop :=
  (toUpdate s.current s.new).foldl (fun s n => (updateSessionspace crates fails n s).2) s

/-- What the loop in `main` keeps between ticks, and the cluster it works on. -/
structure Controller where
  current : Sessions
  cluster : Cluster

def Controller.init : Controller := { current := ∅, cluster := ∅ }

structure Tick where
  fetched : Option Sessions
  fails : Call → Bool

def mergedSessions (staticSessions : Option StaticSessions) (fetched : Sessions) : Sessions :=
  match staticSessions with
  | some statics => statics.mergeInto fetched
  | none => fetched

section Ticks

variable (crates : Crates) (staticSessions : Option StaticSessions)

def reconcile (s : Controller) (fails : Call → Bool) (fetched : Sessions) : Loop :=
  updateSessionspaces crates fails
    { current := s.current
      new := mergedSessions staticSessions fetched
      world := { cluster := s.cluster, calls := [] } }

def tick (s : Controller) (t : Tick) : Controller :=
  match t.fetched with
  | some fetched =>
    let after := reconcile crates staticSessions s t.fails fetched
    { current := after.current, cluster := after.world.cluster }
  | none => s

def run (ticks : List Tick) : Controller :=
  ticks.foldl (tick crates staticSessions) .init

end Ticks

end Workflows.Sessionspaces
