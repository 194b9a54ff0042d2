import InnerLoop.Object.Meta

/-!
# Pods, containers and volumes

What runs in a pod: containers with their ports, environment, resources and volume mounts, and the
volumes of the pod. A list or map that is absent and one that is present but empty are different
values. Members that the kind requires have a value when they are missing and are always written.
-/

namespace InnerLoop

open Json

/-! ## Environment variables -/

/-- A field of the pod that a variable takes its value from. -/
structure FieldRef where
  apiVersion : Option String := none
  fieldPath : String := ""
  deriving DecidableEq, Inhabited

/-- A key of a secret that a variable takes its value from. -/
structure SecretKeyRef where
  name : String := ""
  key : String := ""
  optional : Option Bool := none
  deriving DecidableEq, Inhabited

/-- Where a variable takes its value from. -/
structure EnvSource where
  fieldRef : Option FieldRef := none
  secretKeyRef : Option SecretKeyRef := none
  deriving DecidableEq, Inhabited

/-- An environment variable of a container. -/
structure EnvVar where
  name : String := ""
  value : Option String := none
  valueFrom : Option EnvSource := none
  deriving DecidableEq, Inhabited

/-- Reads a field reference. -/
def FieldRef.decode : Decoder FieldRef := fun v => do
  let ms ← object? v
  let apiVersion ← optional asText ms "apiVersion"
  let fieldPath ← defaulted asText ms "fieldPath" ""
  some { apiVersion, fieldPath }

/-- Writes a field reference. -/
def FieldRef.encode (r : FieldRef) : Json :=
  objectOf [ifSome "apiVersion" .text r.apiVersion, always "fieldPath" (.text r.fieldPath)]

/-- Reads a secret key reference. -/
def SecretKeyRef.decode : Decoder SecretKeyRef := fun v => do
  let ms ← object? v
  let name ← defaulted asText ms "name" ""
  let key ← defaulted asText ms "key" ""
  let opt ← Json.optional asBool ms "optional"
  some { name, key, optional := opt }

/-- Writes a secret key reference. -/
def SecretKeyRef.encode (r : SecretKeyRef) : Json :=
  objectOf [always "name" (.text r.name), always "key" (.text r.key),
    ifSome "optional" .bool r.optional]

/-- Reads the source of a variable. -/
def EnvSource.decode : Decoder EnvSource := fun v => do
  let ms ← object? v
  let fieldRef ← optional FieldRef.decode ms "fieldRef"
  let secretKeyRef ← optional SecretKeyRef.decode ms "secretKeyRef"
  some { fieldRef, secretKeyRef }

/-- Writes the source of a variable. -/
def EnvSource.encode (s : EnvSource) : Json :=
  objectOf [ifSome "fieldRef" FieldRef.encode s.fieldRef,
    ifSome "secretKeyRef" SecretKeyRef.encode s.secretKeyRef]

/-- Reads a variable. -/
def EnvVar.decode : Decoder EnvVar := fun v => do
  let ms ← object? v
  let name ← defaulted asText ms "name" ""
  let value ← optional asText ms "value"
  let valueFrom ← optional EnvSource.decode ms "valueFrom"
  some { name, value, valueFrom }

/-- Writes a variable. -/
def EnvVar.encode (e : EnvVar) : Json :=
  objectOf [always "name" (.text e.name), ifSome "value" .text e.value,
    ifSome "valueFrom" EnvSource.encode e.valueFrom]

/-! ## Containers -/

/-- A port that a container listens on. -/
structure ContainerPort where
  containerPort : Int := 0
  name : Option String := none
  protocol : Option String := none
  deriving DecidableEq, Inhabited

/-- Amounts of resources, by the name of the resource. -/
structure ResourceNeeds where
  limits : Option TextMap := none
  requests : Option TextMap := none
  deriving DecidableEq, Inhabited

/-- Where a container sees a volume of its pod. -/
structure VolumeMount where
  /-- The name of the volume. -/
  name : String := ""
  mountPath : String := ""
  readOnly : Option Bool := none
  subPath : Option String := none
  deriving DecidableEq, Inhabited

/-- A container of a pod. -/
structure Container where
  name : String := ""
  image : Option String := none
  command : Option (List String) := none
  args : Option (List String) := none
  ports : Option (List ContainerPort) := none
  env : Option (List EnvVar) := none
  resources : Option ResourceNeeds := none
  volumeMounts : Option (List VolumeMount) := none
  workingDir : Option String := none
  imagePullPolicy : Option String := none
  deriving DecidableEq, Inhabited

/-- Reads a port. -/
def ContainerPort.decode : Decoder ContainerPort := fun v => do
  let ms ← object? v
  let containerPort ← defaulted asInt32 ms "containerPort" 0
  let name ← optional asText ms "name"
  let protocol ← optional asText ms "protocol"
  some { containerPort, name, protocol }

/-- Writes a port. -/
def ContainerPort.encode (p : ContainerPort) : Json :=
  objectOf [always "containerPort" (ofInt p.containerPort), ifSome "name" .text p.name,
    ifSome "protocol" .text p.protocol]

/-- Reads resource amounts. -/
def ResourceNeeds.decode : Decoder ResourceNeeds := fun v => do
  let ms ← object? v
  let limits ← optional (asMap asAmount) ms "limits"
  let requests ← optional (asMap asAmount) ms "requests"
  some { limits, requests }

/-- Writes resource amounts. -/
def ResourceNeeds.encode (r : ResourceNeeds) : Json :=
  objectOf [ifSome "limits" ofTextMap r.limits, ifSome "requests" ofTextMap r.requests]

/-- Reads a mount. -/
def VolumeMount.decode : Decoder VolumeMount := fun v => do
  let ms ← object? v
  let name ← defaulted asText ms "name" ""
  let mountPath ← defaulted asText ms "mountPath" ""
  let readOnly ← optional asBool ms "readOnly"
  let subPath ← optional asText ms "subPath"
  some { name, mountPath, readOnly, subPath }

/-- Writes a mount. -/
def VolumeMount.encode (m : VolumeMount) : Json :=
  objectOf [always "name" (.text m.name), always "mountPath" (.text m.mountPath),
    ifSome "readOnly" .bool m.readOnly, ifSome "subPath" .text m.subPath]

/-- Reads a container. -/
def Container.decode : Decoder Container := fun v => do
  let ms ← object? v
  let name ← defaulted asText ms "name" ""
  let image ← optional asText ms "image"
  let command ← optional (asList asText) ms "command"
  let args ← optional (asList asText) ms "args"
  let ports ← optional (asList ContainerPort.decode) ms "ports"
  let env ← optional (asList EnvVar.decode) ms "env"
  let resources ← optional ResourceNeeds.decode ms "resources"
  let volumeMounts ← optional (asList VolumeMount.decode) ms "volumeMounts"
  let workingDir ← optional asText ms "workingDir"
  let imagePullPolicy ← optional asText ms "imagePullPolicy"
  some {
    name, image, command, args, ports, env, resources, volumeMounts, workingDir,
    imagePullPolicy }

/-- Writes a container. -/
def Container.encode (c : Container) : Json :=
  objectOf [
    always "name" (.text c.name),
    ifSome "image" .text c.image,
    ifSome "command" ofTexts c.command,
    ifSome "args" ofTexts c.args,
    ifSome "ports" (ofList ContainerPort.encode) c.ports,
    ifSome "env" (ofList EnvVar.encode) c.env,
    ifSome "resources" ResourceNeeds.encode c.resources,
    ifSome "volumeMounts" (ofList VolumeMount.encode) c.volumeMounts,
    ifSome "workingDir" .text c.workingDir,
    ifSome "imagePullPolicy" .text c.imagePullPolicy]

/-! ## Volumes -/

/-- A volume that lives and dies with its pod. -/
structure EmptyDir where
  sizeLimit : Option String := none
  deriving DecidableEq, Inhabited

/-- A volume that is backed by a persistent claim. -/
structure ClaimSource where
  claimName : String := ""
  readOnly : Option Bool := none
  deriving DecidableEq, Inhabited

/-- One file of a configuration volume. -/
structure KeyToPath where
  key : String := ""
  path : String := ""
  mode : Option Int := none
  deriving DecidableEq, Inhabited

/-- A volume that shows a configuration map. -/
structure ConfigMapSource where
  name : String := ""
  items : Option (List KeyToPath) := none
  deriving DecidableEq, Inhabited

/-- A volume of a pod. -/
structure Volume where
  name : String := ""
  emptyDir : Option EmptyDir := none
  persistentVolumeClaim : Option ClaimSource := none
  configMap : Option ConfigMapSource := none
  deriving DecidableEq, Inhabited

/-- Reads a volume of the pod's own. -/
def EmptyDir.decode : Decoder EmptyDir := fun v => do
  let ms ← object? v
  let sizeLimit ← optional asAmount ms "sizeLimit"
  some { sizeLimit }

/-- Writes a volume of the pod's own. -/
def EmptyDir.encode (d : EmptyDir) : Json := objectOf [ifSome "sizeLimit" .text d.sizeLimit]

/-- Reads the claim behind a volume. -/
def ClaimSource.decode : Decoder ClaimSource := fun v => do
  let ms ← object? v
  let claimName ← defaulted asText ms "claimName" ""
  let readOnly ← optional asBool ms "readOnly"
  some { claimName, readOnly }

/-- Writes the claim behind a volume. -/
def ClaimSource.encode (c : ClaimSource) : Json :=
  objectOf [always "claimName" (.text c.claimName), ifSome "readOnly" .bool c.readOnly]

/-- Reads a file of a configuration volume. -/
def KeyToPath.decode : Decoder KeyToPath := fun v => do
  let ms ← object? v
  let key ← defaulted asText ms "key" ""
  let path ← defaulted asText ms "path" ""
  let mode ← optional asInt32 ms "mode"
  some { key, path, mode }

/-- Writes a file of a configuration volume. -/
def KeyToPath.encode (k : KeyToPath) : Json :=
  objectOf [always "key" (.text k.key), always "path" (.text k.path), ifSome "mode" ofInt k.mode]

/-- Reads the configuration map behind a volume. -/
def ConfigMapSource.decode : Decoder ConfigMapSource := fun v => do
  let ms ← object? v
  let name ← defaulted asText ms "name" ""
  let items ← optional (asList KeyToPath.decode) ms "items"
  some { name, items }

/-- Writes the configuration map behind a volume. -/
def ConfigMapSource.encode (c : ConfigMapSource) : Json :=
  objectOf [always "name" (.text c.name), ifSome "items" (ofList KeyToPath.encode) c.items]

/-- Reads a volume. -/
def Volume.decode : Decoder Volume := fun v => do
  let ms ← object? v
  let name ← defaulted asText ms "name" ""
  let emptyDir ← optional EmptyDir.decode ms "emptyDir"
  let persistentVolumeClaim ← optional ClaimSource.decode ms "persistentVolumeClaim"
  let configMap ← optional ConfigMapSource.decode ms "configMap"
  some { name, emptyDir, persistentVolumeClaim, configMap }

/-- Writes a volume. -/
def Volume.encode (v : Volume) : Json :=
  objectOf [
    always "name" (.text v.name),
    ifSome "emptyDir" EmptyDir.encode v.emptyDir,
    ifSome "persistentVolumeClaim" ClaimSource.encode v.persistentVolumeClaim,
    ifSome "configMap" ConfigMapSource.encode v.configMap]

/-! ## Pods -/

/-- What a pod consists of. -/
structure PodSpec where
  containers : List Container := []
  initContainers : Option (List Container) := none
  volumes : Option (List Volume) := none
  serviceAccountName : Option String := none
  nodeSelector : Option TextMap := none
  terminationGracePeriodSeconds : Option Int := none
  deriving DecidableEq, Inhabited

/-- The pods that a workload makes. -/
structure PodTemplate where
  metadata : Option ObjectMeta := none
  spec : Option PodSpec := none
  deriving DecidableEq, Inhabited

/-- How far a pod has come. -/
structure PodStatus where
  phase : Option String := none
  message : Option String := none
  deriving DecidableEq, Inhabited

/-- A pod. -/
structure Pod where
  metadata : ObjectMeta := {}
  spec : Option PodSpec := none
  status : Option PodStatus := none
  deriving DecidableEq, Inhabited

/-- Reads a pod's specification. -/
def PodSpec.decode : Decoder PodSpec := fun v => do
  let ms ← object? v
  let containers ← defaulted (asList Container.decode) ms "containers" []
  let initContainers ← optional (asList Container.decode) ms "initContainers"
  let volumes ← optional (asList Volume.decode) ms "volumes"
  let serviceAccountName ← optional asText ms "serviceAccountName"
  let nodeSelector ← optional asTextMap ms "nodeSelector"
  let terminationGracePeriodSeconds ← optional asInt64 ms "terminationGracePeriodSeconds"
  some {
    containers, initContainers, volumes, serviceAccountName, nodeSelector,
    terminationGracePeriodSeconds }

/-- Writes a pod's specification. -/
def PodSpec.encode (s : PodSpec) : Json :=
  objectOf [
    always "containers" (ofList Container.encode s.containers),
    ifSome "initContainers" (ofList Container.encode) s.initContainers,
    ifSome "volumes" (ofList Volume.encode) s.volumes,
    ifSome "serviceAccountName" .text s.serviceAccountName,
    ifSome "nodeSelector" ofTextMap s.nodeSelector,
    ifSome "terminationGracePeriodSeconds" ofInt s.terminationGracePeriodSeconds]

/-- Reads a pod template. -/
def PodTemplate.decode : Decoder PodTemplate := fun v => do
  let ms ← object? v
  let metadata ← optional ObjectMeta.decode ms "metadata"
  let spec ← optional PodSpec.decode ms "spec"
  some { metadata, spec }

/-- Writes a pod template. -/
def PodTemplate.encode (t : PodTemplate) : Json :=
  objectOf [ifSome "metadata" ObjectMeta.encode t.metadata, ifSome "spec" PodSpec.encode t.spec]

/-- Reads a pod's status. -/
def PodStatus.decode : Decoder PodStatus := fun v => do
  let ms ← object? v
  let phase ← optional asText ms "phase"
  let message ← optional asText ms "message"
  some { phase, message }

/-- Writes a pod's status. -/
def PodStatus.encode (s : PodStatus) : Json :=
  objectOf [ifSome "phase" .text s.phase, ifSome "message" .text s.message]

instance : Resource Pod where
  kind := "Pod"
  apiVersion := "v1"
  metadata := Pod.metadata
  withMetadata m p := { p with metadata := m }

/-- Whether an object says of which kind it is, if it says so at all, as the kind is called. -/
def isTagged (apiVersion kind : String) (ms : Written.Members) : Bool :=
  let agrees (name value : String) := (values ms name).all fun
    | .text s => s = value
    | w => w.isCut
  agrees "apiVersion" apiVersion && agrees "kind" kind

/-- Whether a core object is of a kind. -/
def isOfKind (κ : Type) [Resource κ] : Written.Members → Bool :=
  isTagged (Resource.apiVersion κ) (Resource.kind κ)

/-- Reads a pod. -/
def Pod.decode : Decoder Pod := fun v => do
  let ms ← object? v
  guard (isOfKind Pod ms)
  let metadata ← defaulted ObjectMeta.decode ms "metadata" {}
  let spec ← optional PodSpec.decode ms "spec"
  let status ← optional PodStatus.decode ms "status"
  some { metadata, spec, status }

/-- Writes a pod. -/
def Pod.encode (p : Pod) : Json :=
  objectOf (Resource.header Pod ++ [
    always "metadata" p.metadata.encode,
    ifSome "spec" PodSpec.encode p.spec,
    ifSome "status" PodStatus.encode p.status])

end InnerLoop
