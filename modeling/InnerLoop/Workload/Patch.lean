import InnerLoop.Workload.Descriptor

/-!
# Patching a workload

A patch puts the wanted specification, labels and annotations onto the workload that is live, after
carrying over what the user has mounted.

- `copyForward`: the wanted workload with the live volumes and mounts that are not dev mode's.
- `stripDevMode`: the wanted workload without dev mode, provided that the live one is in it.
- `prepareUpdate`: the object to write.
-/

namespace InnerLoop

/-- A last change of the wanted workload, which may look at the live one. -/
abbrev PatchHook :=
  (current desired : DeploymentConfig) → Except Failure DeploymentConfig

/-- Adds to `old` the items of `new` whose names are neither reserved nor there yet. -/
def carryOver {α : Type} (nameOf : α → String) (reserved : List String) (old new : List α) :
    List α :=
  -- The names are looked up in what has been carried over so far, not only in `old`.
  new.foldl (fun l x =>
    if nameOf x ∈ reserved ∨ nameOf x ∈ l.map nameOf then l else l ++ [x]) old

/-- The live volumes and mounts carried over to the wanted workload. -/
def copyForward (name : String) (current desired : DeploymentConfig) :
    Except Failure DeploymentConfig := do
  let reserved := reservedVolumes name
  let live ← current.primary name
  let desired := desired.modifyPodSpec fun s => { s with
    volumes := orAbsent (carryOver Volume.name reserved (s.volumes.getD []) current.volumes) }
  let carryMounts (c : Container) : Container := { c with
    volumeMounts := orAbsent (carryOver VolumeMount.name reserved (c.volumeMounts.getD [])
      (live.volumeMounts.getD [])) }
  (desired.modifyPrimary name carryMounts).mapError fun _ => .invalid (.noWantedContainer name)

/-- The object to write: the live one with the wanted specification, labels and annotations. -/
def prepareUpdate (name : String) (current desired : DeploymentConfig) (hook : Option PatchHook) :
    Except Failure DeploymentConfig := do
  -- A live workload without the container is corrupt, whatever is wanted.
  let _ ← current.primary name
  let desired ← copyForward name current desired
  let desired ← match hook with
    | none => pure desired
    | some hook => hook current desired
  return { current with
    spec := desired.spec
    metadata := { current.metadata with
      labels := desired.metadata.labels
      annotations := desired.metadata.annotations } }

/-- The items of a list that is there whose names are not among `names`; absent if none is left. -/
def dropNamed {α : Type} (nameOf : α → String) (names : List String) (l : Option (List α)) :
    Option (List α) :=
  l.bind fun l => orAbsent (l.filter fun x => nameOf x ∉ names)

/-- Checks that a workload has the volumes of dev mode and mounts them. -/
def checkDevMode (current : DeploymentConfig) : Except Failure Unit := do
  let name := current.name
  if !current.isEmptyDir scratchVolume then
    throw (.corrupt name (.noEmptyDir scratchVolume))
  if current.claimOf (appDataVolume name) ≠ some (appDataClaim name) then
    throw (.corrupt name (.noClaimVolume (appDataVolume name) (appDataClaim name)))
  let mounts ← current.mounts name
  match (reservedVolumes name).find? fun v => v ∉ mounts.map (·.name) with
  | some missing => throw (.corrupt name (.noMount missing name))
  | none => pure ()

/-- Takes dev mode out of the wanted workload; the live one has to be in it. -/
def stripDevMode : PatchHook := fun current desired => do
  let name := current.name
  checkDevMode current
  let reserved := reservedVolumes name
  let desired := desired.modifyPodSpec fun s => { s with
    volumes := dropNamed (·.name) reserved s.volumes
    initContainers := dropNamed (·.name) bootstrapContainers s.initContainers }
  desired.modifyPrimary name fun c =>
    { c with volumeMounts := dropNamed (·.name) reserved c.volumeMounts }

/-- The source type of a wanted workload, which has to have one. -/
def wantedSourceType (desired : DeploymentConfig) : Except Failure String :=
  match desired.annotated sourceTypeKey with
  | some t => .ok t
  | none => .error (.invalid (.noWantedMark sourceTypeKey))

end InnerLoop
