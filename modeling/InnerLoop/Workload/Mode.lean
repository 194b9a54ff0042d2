import InnerLoop.Workload.Primary

/-!
# Build mode and dev mode

A component runs either an image that was built for it (build mode), or a builder image under a
supervisor that restarts the application whenever sources are pushed into it (dev mode).

- The names of what dev mode adds to a workload: two volumes, their mounts on the primary container
  and two init containers.
- `InBuildMode`, `InDevMode`: what it means for a workload to be in one of the modes.
- `ComponentMeta`: the name, labels and annotations that a workload is to have.
-/

namespace InnerLoop

/-! ## Names -/

/-- The annotation that says where the sources of a component come from; its value shows that an
update has been taken up. -/
def sourceTypeKey : String := "app.kubernetes.io/component-source-type"

/-- The source type of a component that runs pushed sources. -/
def sourceTypeLocal : String := "local"

/-- The source type of a component that runs a built image. -/
def sourceTypeGit : String := "git"

/-- The label that every pod of a component carries. -/
def podLabel : String := "deploymentconfig"

/-- The init container that puts the supervisor into the scratch volume. -/
def copySupervisor : String := "copy-supervisord"

/-- The init container that fills the app-data volume from the image. -/
def copyFiles : String := "copy-files-to-volume"

/-- The init containers of dev mode. -/
def bootstrapContainers : List String := [copySupervisor, copyFiles]

/-- The volume that holds the supervisor. -/
def scratchVolume : String := "devloop-supervisord-shared-data"

/-- Where containers see the scratch volume. -/
def supervisorDir : String := "/var/run/devloop"

/-- Where the builder image keeps the application, and where the app-data volume is mounted. -/
def appRoot : String := "/opt/app-root"

/-- Where the init container sees the app-data volume. -/
def appDataStaging : String := "/mnt/app-root"

/-- Where the supervisor image keeps what it brings along. -/
def supervisorPayload : String := "/opt/devloop-supervisord"

/-- The app-data volume of a component. -/
def appDataVolume (component : String) : String := component ++ "-s2idata"

/-- The claim behind the app-data volume. -/
def appDataClaim (component : String) : String := appDataVolume component

/-- The volumes of dev mode. -/
def reservedVolumes (component : String) : List String := [scratchVolume, appDataVolume component]

/-! ## Questions about a workload -/

namespace DeploymentConfig

/-- The first volume of a name. -/
def volume? (d : DeploymentConfig) (name : String) : Option Volume :=
  d.volumes.find? fun v => v.name = name

/-- The claim that the first volume of a name is bound to. -/
def claimOf (d : DeploymentConfig) (volume : String) : Option String :=
  (d.volume? volume).bind fun v => v.persistentVolumeClaim.map (·.claimName)

/-- Whether the first volume of a name lives in the pod only. -/
def isEmptyDir (d : DeploymentConfig) (volume : String) : Bool :=
  (d.volume? volume).any fun v => v.emptyDir.isSome

/-- Whether a volume is bound to a claim. -/
def bindsClaim (claim : String) (v : Volume) : Bool :=
  v.persistentVolumeClaim.any fun c => c.claimName = claim

/-- The names of the volumes bound to a claim. -/
def volumesOf (d : DeploymentConfig) (claim : String) : List String :=
  (d.volumes.filter (bindsClaim claim)).map (·.name)

/-- The volume mounts of the one container of a name. -/
def mounts (d : DeploymentConfig) (container : String) : Except Failure (List VolumeMount) := do
  let c ← d.primary container
  return c.volumeMounts.getD []

/-- A workload in build mode shows nothing of dev mode. -/
def InBuildMode (d : DeploymentConfig) (name : String) : Prop :=
  (∀ v ∈ d.volumes, v.name ∉ reservedVolumes name) ∧
  (∀ c ∈ d.named name, ∀ m ∈ c.volumeMounts.getD [], m.name ∉ reservedVolumes name) ∧
  (∀ c ∈ d.initContainers, c.name ∉ bootstrapContainers)

/-- A workload in dev mode has all six pieces of it. -/
def InDevMode (d : DeploymentConfig) (name : String) : Prop :=
  d.isEmptyDir scratchVolume = true ∧
  d.claimOf (appDataVolume name) = some (appDataClaim name) ∧
  (∃ c, d.primary name = .ok c ∧
    ∀ v ∈ reservedVolumes name, ∃ m ∈ c.volumeMounts.getD [], m.name = v) ∧
  (∀ i ∈ bootstrapContainers, ∃ c ∈ d.initContainers, c.name = i)

end DeploymentConfig

/-! ## Metadata of a component -/

/-- What a workload is to be called and marked with. -/
structure ComponentMeta where
  name : String
  labels : TextMap := {}
  annotations : TextMap := {}
  deriving DecidableEq, Inhabited

namespace ComponentMeta

/-- The name and marks of a workload as it is. -/
def ofWorkload (d : DeploymentConfig) : ComponentMeta where
  name := d.name
  labels := d.metadata.labels.getD {}
  annotations := d.metadata.annotations.getD {}

/-- The marks with another source type. -/
def withSourceType (m : ComponentMeta) (value : String) : ComponentMeta :=
  { m with annotations := m.annotations.insert sourceTypeKey value }

end ComponentMeta

end InnerLoop
