import InnerLoop.Workload.Mode
import InnerLoop.Image.Builder

/-!
# The wanted workload

What a workload is to look like in one of the modes, made from the one that is live. The selector,
the other containers and the init containers of the user are kept; volumes are left to the patch,
apart from those of dev mode.

- `buildModeWorkload`: runs a given image.
- `devModeWorkload`: runs a builder image under the supervisor.
-/

namespace InnerLoop

/-- A list, absent if it is empty. -/
def orAbsent {α : Type} (l : List α) : Option (List α) := if l.isEmpty then none else some l

/-- The selector of a workload, by default that of the pods of a deployment config. -/
def wantedSelector (name : String) (current : DeploymentConfig) : TextMap :=
  current.spec.selector.getD (.singleton podLabel name)

/-- The labels of the pods: those of the component, and all that the selector asks for. -/
def templateLabels (component : ComponentMeta) (selector : TextMap) : TextMap :=
  component.labels.union selector

/-- A rollout when the image of a stream tag changes. -/
def imageChangeTrigger (container : String) (ns : Option String) (streamTag : String) : Trigger where
  on := "ImageChange"
  imageChange := some {
    automatic := true
    containerNames := [container]
    source := { kind := some "ImageStreamTag", name := some streamTag, ns := ns } }

/-- A rollout when the workload changes. -/
def configChangeTrigger : Trigger where
  on := "ConfigChange"

/-- The triggers of a component that runs an image. -/
def wantedTriggers (container : String) (image : ImageReference) : List Trigger :=
  [configChangeTrigger, imageChangeTrigger container image.ns image.streamTag]

/-- The containers beside the primary one. -/
def sidecars (current : DeploymentConfig) (name : String) : List Container :=
  current.containers.filter fun c => c.name ≠ name

/-- A wanted workload: the parts that differ by mode, in a frame taken from the live one. -/
def wantedWorkload (component : ComponentMeta) (current : DeploymentConfig)
    (containers inits : List Container) (volumes : List Volume) (strategy : Option Strategy)
    (triggers : List Trigger) : DeploymentConfig :=
  let selector := wantedSelector component.name current
  { metadata := {
      name := some component.name
      ns := current.metadata.ns
      labels := some component.labels
      annotations := some component.annotations }
    spec := {
      replicas := current.spec.replicas.or (some 1)
      selector := some selector
      template := some {
        metadata := some { labels := some (templateLabels component selector) }
        spec := some { current.podSpec with
          containers
          initContainers := orAbsent inits
          volumes := orAbsent volumes } }
      triggers := some triggers
      strategy } }

/-- The workload that runs `image`. Ports, variables and resources are those of the live primary
container; the init containers of dev mode are left for the patch to clear away. -/
def buildModeWorkload (component : ComponentMeta) (current : DeploymentConfig) (live : Container)
    (image : ImageReference) : DeploymentConfig :=
  let primary : Container := {
    name := component.name
    image := some image.render
    ports := live.ports
    env := live.env
    resources := live.resources }
  wantedWorkload component current (primary :: sidecars current component.name)
    current.initContainers [] current.spec.strategy (wantedTriggers component.name image)

/-- The mount of the scratch volume. -/
def scratchMount : VolumeMount where
  name := scratchVolume
  mountPath := supervisorDir

/-- The mount of the app-data volume on the primary container. -/
def appDataMount (component : String) : VolumeMount where
  name := appDataVolume component
  mountPath := appRoot

/-- The init container that puts the supervisor in its place. -/
def copySupervisorContainer (supervisorImage : String) : Container where
  name := copySupervisor
  image := some supervisorImage
  command := some ["/bin/cp"]
  args := some ["-r", supervisorPayload ++ "/.", supervisorDir]
  volumeMounts := some [scratchMount]

/-- The init container that copies the application into the app-data volume. -/
def copyFilesContainer (component builderImage : String) : Container where
  name := copyFiles
  image := some builderImage
  command := some ["sh", "-c"]
  args := some ["cp -rp " ++ appRoot ++ "/. " ++ appDataStaging]
  volumeMounts := some [{ name := appDataVolume component, mountPath := appDataStaging }]

/-- The volumes of dev mode. -/
def devModeVolumes (component : String) : List Volume := [
  { name := scratchVolume, emptyDir := some {} },
  { name := appDataVolume component
    persistentVolumeClaim := some { claimName := appDataClaim component } }]

/-- The image that a builder is run from. -/
def BuilderImage.pullReference (b : BuilderImage) : String :=
  b.metadata.dockerImageReference.getD b.reference.render

/-- The init containers that are not dev mode's own. -/
def userInits (current : DeploymentConfig) : List Container :=
  current.initContainers.filter fun c => c.name ∉ bootstrapContainers

/-- The workload that runs a builder image under the supervisor. Ports are those that the image
exposes; variables are the live ones and those that the supervisor reads. -/
def devModeWorkload (component : ComponentMeta) (current : DeploymentConfig) (live : Container)
    (builder : BuilderImage) (supervisorImage : String) : Except Failure DeploymentConfig := do
  let bootstrap ← builder.bootstrapEnv
  let ports ← builder.ports
  let primary : Container := {
    name := component.name
    image := some builder.pullReference
    command := some [supervisorDir ++ "/bin/supervisord"]
    args := some ["-c", supervisorDir ++ "/conf/supervisor.conf"]
    ports := orAbsent ports
    env := some (mergeEnv (live.env.getD []) bootstrap)
    resources := live.resources
    volumeMounts := some [scratchMount, appDataMount component.name] }
  let inits := userInits current ++
    [copySupervisorContainer supervisorImage, copyFilesContainer component.name builder.pullReference]
  return wantedWorkload component current (primary :: sidecars current component.name) inits
    (devModeVolumes component.name) (some { type := some "Recreate" })
    (wantedTriggers component.name builder.reference)

end InnerLoop
