import InnerLoop.Program.Basic
import InnerLoop.Watch.Condition

/-!
# The surroundings of programs

A world is a cluster in memory, a tree of local files and a clock. It answers every question of a
program at once, or holds it back until something happens.

- `World`: the state.
- `World.answer`: the answer to a question, and the world after it; none while it is held back.
- `World.finishJobs`: what waits in the background takes notice of what happened.
- `Request.wakesAt`: when a question that is held back is answered at the latest.
- `World.abandon`: the world after a question is given up.
- `World.observe`, `World.drain`, `World.unobserve`: watches that belong to no program.
-/

namespace InnerLoop

/-- A wait for a pod in the background. -/
structure PodJob where
  /-- The watch that it waits on. -/
  handle : Nat
  /-- How it ended. -/
  result : Option (Ending Pod) := none

/-- A cluster, local files and a clock. -/
structure World where
  /-- The time, in milliseconds. -/
  clock : Nat := 0
  cluster : Cluster
  files : FileTree := {}
  jobs : List (Nat × PodJob) := []
  nextJob : Nat := 0
  /-- How many numbers were given out. -/
  minted : Nat := 0
  /-- Watches that are open beside those of programs, by the names that were given to them. -/
  observers : List (String × Kind × Nat) := []
  deriving Inhabited

/-- How events that were told to a watch, and its end, end a wait on it. -/
def Subscription.ending? {κ : Type} (check : Change → κ → Verdict) (s : Subscription κ) :
    Option (Ending κ) :=
  match firstDecisive check s.queue with
  | some e => some e
  | none => if s.live then none else some (.terminated streamClosed)

namespace World

/-- The world with its cluster changed. -/
def modifyCluster (w : World) (f : Cluster → Cluster) : World := { w with cluster := f w.cluster }

/-- The world after a request to the cluster, with the answer. -/
def request {α : Type} (w : World) (f : Cluster → α × Cluster) : α × World :=
  let (a, c) := f w.cluster
  (a, { w with cluster := c })

/-- The world without a watch. -/
def dropWatch (w : World) (k : Kind) (handle : Nat) : World :=
  w.modifyCluster fun c => c.withStore k ((c.store k).dropWatch handle)

/-- How a wait on a watch ends as things are. -/
def ending? (w : World) (k : Kind) (handle : Nat) (check : Change → k.Object → Verdict) :
    Option (Ending k.Object) :=
  match (w.cluster.store k).subscription? handle with
  | some s => s.ending? check
  | none => some (.terminated streamClosed)

/-- The world without a background wait and its watch. -/
def dropJob (w : World) (job : Nat) : World :=
  let w := match w.jobs.lookup job with
    | some j => w.dropWatch .pod j.handle
    | none => w
  { w with jobs := w.jobs.filter fun j => j.1 ≠ job }

/-- The answer to a question, and the world after it; none while it is held back. -/
def answer (w : World) : (r : Request) → Option (r.Reply × World)
  | .now => some (w.clock, w)
  | .sleepUntil time => if time ≤ w.clock then some ((), w) else none
  | .pause => none
  | .mint => some (w.minted, { w with minted := w.minted + 1 })
  | .getWorkload name => some (w.cluster.workloads.get name, w)
  | .updateWorkload d => some (w.request (·.updateWorkload d))
  | .instantiateBuild config => some (w.request (·.instantiateBuild config))
  | .getClaim name => some (w.cluster.claims.get name, w)
  | .createClaim name size labels => some (w.request (·.createClaim name size labels))
  | .deleteClaim name => some (w.request (·.deleteClaim name))
  | .imageMetadata ns tag => some (w.cluster.imageMetadata (ns.getD w.cluster.ns) tag, w)
  | .watch k selector =>
    let (handle, s) := (w.cluster.store k).watch selector
    some (handle, w.modifyCluster (·.withStore k s))
  | .dropWatch k handle => some ((), w.dropWatch k handle)
  | .await k handle deadline check =>
    -- Time being up is looked at first, even if an event is there that would decide.
    if deadline ≤ w.clock then some (.timedOut, w.dropWatch k handle)
    else (w.ending? k handle check).map fun e => (e, w.dropWatch k handle)
  | .startPodWait handle =>
    some (w.nextJob, { w with
      jobs := w.jobs ++ [(w.nextJob, { handle })], nextJob := w.nextJob + 1 })
  | .joinPodWait job deadline =>
    -- Here it is the other way round: a result counts even when time is up.
    match (w.jobs.lookup job).bind (·.result) with
    | some e => some (e, w.dropJob job)
    | none => if deadline ≤ w.clock then some (.timedOut, w.dropJob job) else none
  | .beginExec pod => some (w.request (·.beginExec pod))
  | .endExec call => some ((), w.modifyCluster (·.recordExec call))
  | .scan root => some (Snapshot.scan w.files root, w)
  | .buildManifest root changed => some (Manifest.build w.files root changed, w)
  | .readFiles m => some (m.writing w.files, w)
  | .transfer trouble writing =>
    some (if hangsUp trouble then .deserted writing (exitOf trouble)
      else .drained writing (exitOf trouble), w)

/-- The world after a background wait took notice of what was told to its watch. -/
def finishJob (w : World) (job : Nat) : World :=
  match w.jobs.lookup job with
  | some ⟨handle, none⟩ =>
    match w.ending? .pod handle podVerdict with
    | some e => { w.dropWatch .pod handle with
        jobs := w.jobs.map fun j => if j.1 = job then (job, ⟨handle, some e⟩) else j }
    | none => w
  | _ => w

/-- The world after all that waits in the background took notice. -/
def finishJobs (w : World) : World := (w.jobs.map (·.1)).foldl finishJob w

/-- How many background waits have ended. -/
def finishedJobs (w : World) : Nat := (w.jobs.filter (·.2.result.isSome)).length

/-- The world after a question that is held back is given up. -/
def abandon (w : World) : Request → World
  | .await k handle _ _ => w.dropWatch k handle
  | .joinPodWait job _ => w.dropJob job
  | _ => w

/-! ## Observers -/

/-- The world without an observer of a name. -/
def unobserve (w : World) (name : String) : World :=
  match w.observers.lookup name with
  | some (k, handle) =>
    { w.dropWatch k handle with observers := w.observers.filter fun o => o.1 ≠ name }
  | none => w

/-- The world with a new observer under a name. -/
def observe (w : World) (name : String) (k : Kind) (selector : Selector) : World :=
  let w := w.unobserve name
  let (handle, s) := (w.cluster.store k).watch selector
  { w.modifyCluster (·.withStore k s) with observers := w.observers ++ [(name, k, handle)] }

/-- What was told to an observer since it was last asked, and the world after asking; none if there
is no such observer. -/
def drain (w : World) (name : String) :
    Option (((k : Kind) × Subscription k.Object) × World) := do
  let (k, handle) ← w.observers.lookup name
  let s ← (w.cluster.store k).subscription? handle
  some (⟨k, s⟩, w.modifyCluster fun c => c.withStore k ((c.store k).takeEvents handle))

end World

/-- When a question that is held back is answered at the latest. -/
def Request.wakesAt : Request → Option Nat
  | .sleepUntil time => some time
  | .await _ _ deadline _ => some deadline
  | .joinPodWait _ deadline => some deadline
  | _ => none

end InnerLoop
