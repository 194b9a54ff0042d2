import InnerLoop.Workload.Mode
import InnerLoop.Workload.Env
import InnerLoop.Image.Builder

/-!
# Changing a workload in place

Changes that leave the mode of a workload alone.

- `attachClaim`, `detachClaim`: mount a claim on the primary container, and undo that.
- `putAnnotations`, `putEnvVars`: set annotations, and variables of the primary container.
- `sourceTarget`: where pushed sources go.
-/

namespace InnerLoop.DeploymentConfig

/-- Mounts `claim` at `path` on the primary container, through a new volume. -/
def attachClaim (d : DeploymentConfig) (name claim volume path : String) :
    Except Failure DeploymentConfig := do
  if !(d.volumesOf claim).isEmpty then
    throw (.invalid (.claimMounted claim name))
  let d ← d.modifyPrimary name fun c => { c with
    volumeMounts := some (c.volumeMounts.getD [] ++ [{ name := volume, mountPath := path }]) }
  return d.modifyPodSpec fun s => { s with
    volumes := some (s.volumes.getD [] ++
      [{ name := volume, persistentVolumeClaim := some { claimName := claim } }]) }

/-- Takes the one volume bound to `claim` off the workload, with its mounts on the primary
container. Answers the name of the volume. -/
def detachClaim (d : DeploymentConfig) (name claim : String) :
    Except Failure (DeploymentConfig × String) :=
  match d.volumesOf claim with
  | [] => .error (.notFound "volume for PersistentVolumeClaim"
      (claim ++ " on DeploymentConfig " ++ name))
  | [volume] => do
    let mounts ← d.mounts name
    if volume ∉ mounts.map (·.name) then
      throw (.corrupt name (.noMount volume name))
    let left := mounts.filter fun m => m.name ≠ volume
    let d ← d.modifyPrimary name fun c =>
      { c with volumeMounts := if left.isEmpty then none else some left }
    return (d.modifyPodSpec fun s =>
      { s with volumes := s.volumes.map (·.filter fun v => v.name ≠ volume) }, volume)
  | volumes => .error (.corrupt name (.severalVolumes claim volumes))

/-- Sets annotations; the others stay. -/
def putAnnotations (d : DeploymentConfig) (annotations : TextMap) : DeploymentConfig :=
  { d with metadata := { d.metadata with
      annotations := some ((d.metadata.annotations.getD {}).union annotations) } }

/-- Sets variables of the primary container; the others stay. -/
def putEnvVars (d : DeploymentConfig) (name : String) (vars : List EnvVar) :
    Except Failure DeploymentConfig :=
  d.modifyPrimary name fun c => { c with env := some (mergeEnv (c.env.getD []) vars) }

/-- The directory that sources are pushed into: `src` in the directory that the first variable for
it names, or in the default one if that says nothing. -/
def sourceTarget (d : DeploymentConfig) (name : String) : Except Failure String := do
  let c ← d.primary name
  let var := (c.env.getD []).find? fun e => e.name = BuilderImage.sourcePathKey
  let base := ((var.bind (·.value)).filter (· ≠ "")).getD BuilderImage.defaultSourcePath
  let trimmed := (base.toList.reverse.dropWhile (· = '/')).reverse
  return String.ofList trimmed ++ "/src"

end InnerLoop.DeploymentConfig
