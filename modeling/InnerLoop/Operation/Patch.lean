import InnerLoop.Workload.VolumeName
import InnerLoop.Operation.Retry
import InnerLoop.Operation.Wait
import InnerLoop.Workload.Patch
import InnerLoop.Workload.Storage

/-!
# Writing workloads

Every write starts from a read of its own, and is tried again from there when it meets another
writer.

- `patchWorkload`, `patchWorkloadWith`: put a wanted workload in the place of the live one and wait
  until that is seen.
- `addClaim`, `removeClaim`, `updateAnnotations`, `addEnvVars`: change a workload in place.
-/

namespace InnerLoop

open Operation

/-- Tries a write again as long as it meets other writers. -/
def retrying {α : Type} (s : Settings) (name : String) (attempt : Operation α) : Operation α :=
  ExceptT.mk (retryOnConflict s.backoff (fun d => Program.bind (sleep d).run fun _ => .done ())
    "DeploymentConfig" name attempt.run)

/-- The workload of a name. -/
def readWorkload (name : String) : Operation DeploymentConfig :=
  ofCluster (.question (.getWorkload name))

/-- Writes a workload. -/
def writeWorkload (d : DeploymentConfig) : Operation DeploymentConfig :=
  ofCluster (.question (.updateWorkload d))

/-! ## Patches -/

/-- One attempt to patch a workload: the object as written, and the source type it was given. -/
def patchOnce (name : String) (desired : DeploymentConfig → Except Failure DeploymentConfig)
    (hook : Option PatchHook) : Operation (DeploymentConfig × String) := do
  let current ← readWorkload name
  let wanted ← given (desired current)
  let sourceType ← given (wantedSourceType wanted)
  let next ← given (prepareUpdate name current wanted hook)
  let updated ← writeWorkload next
  return (updated, sourceType)

/-- Puts the workload that is wanted in view of the live one in its place, and waits until its
source type is seen. -/
def patchWorkloadWith (s : Settings) (name : String)
    (desired : DeploymentConfig → Except Failure DeploymentConfig) (hook : Option PatchHook) :
    Operation DeploymentConfig := do
  let (updated, sourceType) ← within (.patch name) (retrying s name (patchOnce name desired hook))
  let condition : Condition := { mark := .annotated sourceTypeKey, expected := some sourceType }
  let _ ← within (.confirmUpdate name) (waitForWorkload name condition s.updateTimeout)
  return updated

/-- Puts a wanted workload, which has to have a source type, in the place of the live one. -/
def patchWorkload (s : Settings) (name : String) (desired : DeploymentConfig)
    (hook : Option PatchHook) : Operation DeploymentConfig := do
  let _ ← given (wantedSourceType desired)
  patchWorkloadWith s name (fun _ => .ok desired) hook

/-! ## Changes in place -/

/-- Reads a workload, changes it and writes it back. -/
def changeOnce {α : Type} (name : String)
    (change : DeploymentConfig → Except Failure (DeploymentConfig × α)) : Operation α := do
  let d ← readWorkload name
  let (d, a) ← given (change d)
  let _ ← writeWorkload d
  return a

/-- Changes a workload in place. -/
def changeWorkload {α : Type} (s : Settings) (name : String) (activity : Activity)
    (change : DeploymentConfig → Except Failure (DeploymentConfig × α)) : Operation α :=
  within activity (retrying s name (changeOnce name change))

/-- The change that only makes another workload. -/
def silently (f : DeploymentConfig → Except Failure DeploymentConfig) (d : DeploymentConfig) :
    Except Failure (DeploymentConfig × Unit) :=
  (f d).map (·, ())

/-- Mounts a claim on the primary container of a workload; answers the name of the new volume. -/
def addClaim (s : Settings) (name claim path : String) : Operation String := do
  let n ← ask .mint
  let volume := newVolumeName claim n
  changeWorkload s name (.attachClaim name) (silently (·.attachClaim name claim volume path))
  return volume

/-- Takes a claim off a workload; answers the name of the volume that is gone. -/
def removeClaim (s : Settings) (claim name : String) : Operation String :=
  changeWorkload s name (.detachClaim name) (·.detachClaim name claim)

/-- Sets annotations of a workload. -/
def updateAnnotations (s : Settings) (name : String) (annotations : TextMap) : Operation Unit :=
  changeWorkload s name (.updateAnnotations name) (silently fun d => .ok (d.putAnnotations annotations))

/-- Sets variables of the primary container of a workload. -/
def addEnvVars (s : Settings) (name : String) (vars : List EnvVar) : Operation Unit :=
  changeWorkload s name (.updateEnv name) (silently (·.putEnvVars name vars))

end InnerLoop
