import InnerLoop.Object.Pod

/-!
# Deployment configs

The workload of a component: how many pods it runs, made from which template, and what triggers a
new rollout.

- `DeploymentConfig`: the object, with its `DeploymentSpec` and `DeploymentStatus`.
- `DeploymentConfig.podSpec?`, `DeploymentConfig.filled`: the pod specification of the template,
  and the workload with an empty one where it has none.
- `DeploymentConfig.modifyPodSpec`: a change of the pod specification.
-/

namespace InnerLoop

open Json

/-- A reference to another object. -/
structure ObjectReference where
  apiVersion : Option String := none
  fieldPath : Option String := none
  kind : Option String := none
  name : Option String := none
  ns : Option String := none
  resourceVersion : Option String := none
  uid : Option String := none
  deriving DecidableEq, Inhabited

/-- What an image trigger follows. -/
structure ImageTrigger where
  /-- Whether a new image is rolled out by itself. -/
  automatic : Bool := false
  /-- The containers whose image is replaced. -/
  containerNames : List String := []
  /-- The image stream tag that is followed. -/
  source : ObjectReference := {}
  deriving DecidableEq, Inhabited

/-- What makes a new rollout. -/
structure Trigger where
  /-- The type of the trigger. -/
  on : String
  imageChange : Option ImageTrigger := none
  deriving DecidableEq, Inhabited

/-- How a rollout replaces pods. -/
structure Strategy where
  type : Option String := none
  deriving DecidableEq, Inhabited

/-- What a workload is meant to be. -/
structure DeploymentSpec where
  replicas : Option Int := none
  selector : Option TextMap := none
  template : Option PodTemplate := none
  triggers : Option (List Trigger) := none
  strategy : Option Strategy := none
  deriving DecidableEq, Inhabited

/-- What was last seen of a workload. -/
structure DeploymentStatus where
  latestVersion : Option Int := none
  observedGeneration : Option Int := none
  replicas : Option Int := none
  availableReplicas : Option Int := none
  deriving DecidableEq, Inhabited

/-- The workload of a component. -/
structure DeploymentConfig where
  metadata : ObjectMeta := {}
  spec : DeploymentSpec := {}
  status : Option DeploymentStatus := none
  deriving DecidableEq, Inhabited

instance : Resource DeploymentConfig where
  kind := "DeploymentConfig"
  apiVersion := "apps.openshift.io/v1"
  metadata := DeploymentConfig.metadata
  withMetadata m d := { d with metadata := m }

/-! ## Reading and writing -/

/-- Reads an object reference. -/
def ObjectReference.decode : Decoder ObjectReference := fun v => do
  let ms ← object? v
  let apiVersion ← optional asText ms "apiVersion"
  let fieldPath ← optional asText ms "fieldPath"
  let kind ← optional asText ms "kind"
  let name ← optional asText ms "name"
  let ns ← optional asText ms "namespace"
  let resourceVersion ← optional asText ms "resourceVersion"
  let uid ← optional asText ms "uid"
  some { apiVersion, fieldPath, kind, name, ns, resourceVersion, uid }

/-- Writes an object reference. -/
def ObjectReference.encode (r : ObjectReference) : Json :=
  objectOf [
    ifSome "apiVersion" .text r.apiVersion,
    ifSome "fieldPath" .text r.fieldPath,
    ifSome "kind" .text r.kind,
    ifSome "name" .text r.name,
    ifSome "namespace" .text r.ns,
    ifSome "resourceVersion" .text r.resourceVersion,
    ifSome "uid" .text r.uid]

/-- Reads what an image trigger follows. -/
def ImageTrigger.decode : Decoder ImageTrigger := fun v => do
  let ms ← shaped ["automatic", "containerNames", "from"] 0 v
  let automatic ← present asBool ms "automatic" false
  let containerNames ← present (asList asText) ms "containerNames" []
  let source ← required ObjectReference.decode ms "from"
  some { automatic, containerNames, source }

/-- Writes what an image trigger follows; an empty list of containers is left out. -/
def ImageTrigger.encode (t : ImageTrigger) : Json :=
  objectOf [
    always "automatic" (.bool t.automatic),
    if t.containerNames.isEmpty then none else always "containerNames" (ofTexts t.containerNames),
    always "from" t.source.encode]

/-- Reads a trigger. -/
def Trigger.decode : Decoder Trigger := fun v => do
  let ms ← shaped ["type", "imageChangeParams"] 0 v
  let on ← required asText ms "type"
  let imageChange ← optional ImageTrigger.decode ms "imageChangeParams"
  some { on, imageChange }

/-- Writes a trigger. -/
def Trigger.encode (t : Trigger) : Json :=
  objectOf [always "type" (.text t.on),
    ifSome "imageChangeParams" ImageTrigger.encode t.imageChange]

/-- Reads a strategy. -/
def Strategy.decode : Decoder Strategy := fun v => do
  let ms ← shaped ["type"] 0 v
  let type ← optional asText ms "type"
  some { type }

/-- Writes a strategy. -/
def Strategy.encode (s : Strategy) : Json := objectOf [ifSome "type" .text s.type]

/-- Reads a workload's specification. -/
def DeploymentSpec.decode : Decoder DeploymentSpec := fun v => do
  let ms ← shaped ["replicas", "selector", "template", "triggers", "strategy"] 0 v
  let replicas ← optional asInt32 ms "replicas"
  let selector ← optional asTextMap ms "selector"
  let template ← optional PodTemplate.decode ms "template"
  let triggers ← optional (asList Trigger.decode) ms "triggers"
  let strategy ← optional Strategy.decode ms "strategy"
  some { replicas, selector, template, triggers, strategy }

/-- Writes a workload's specification. -/
def DeploymentSpec.encode (s : DeploymentSpec) : Json :=
  objectOf [
    ifSome "replicas" ofInt s.replicas,
    ifSome "selector" ofTextMap s.selector,
    ifSome "template" PodTemplate.encode s.template,
    ifSome "triggers" (ofList Trigger.encode) s.triggers,
    ifSome "strategy" Strategy.encode s.strategy]

/-- Reads a workload's status. -/
def DeploymentStatus.decode : Decoder DeploymentStatus := fun v => do
  let ms ← shaped ["latestVersion", "observedGeneration", "replicas", "availableReplicas"] 0 v
  let latestVersion ← optional asInt64 ms "latestVersion"
  let observedGeneration ← optional asInt64 ms "observedGeneration"
  let replicas ← optional asInt32 ms "replicas"
  let availableReplicas ← optional asInt32 ms "availableReplicas"
  some { latestVersion, observedGeneration, replicas, availableReplicas }

/-- Writes a workload's status. -/
def DeploymentStatus.encode (s : DeploymentStatus) : Json :=
  objectOf [
    ifSome "latestVersion" ofInt s.latestVersion,
    ifSome "observedGeneration" ofInt s.observedGeneration,
    ifSome "replicas" ofInt s.replicas,
    ifSome "availableReplicas" ofInt s.availableReplicas]

namespace DeploymentConfig

/-- Reads a workload. -/
def decode : Decoder DeploymentConfig := fun v => do
  let ms ← shaped ["metadata", "spec", "status"] 3 v
  let metadata ← required ObjectMeta.decode ms "metadata"
  let spec ← required DeploymentSpec.decode ms "spec"
  let status ← optional DeploymentStatus.decode ms "status"
  some { metadata, spec, status }

/-- Writes a workload. -/
def encode (d : DeploymentConfig) : Json :=
  objectOf (Resource.header DeploymentConfig ++ [
    always "metadata" d.metadata.encode,
    always "spec" d.spec.encode,
    ifSome "status" DeploymentStatus.encode d.status])

/-! ## Parts of a workload -/

/-- The name of the workload, empty if it has none. -/
def name (d : DeploymentConfig) : String := d.metadata.name.getD ""

/-- The value of an annotation. -/
def annotated (d : DeploymentConfig) (key : String) : Option String :=
  d.metadata.annotations.bind (·.find? key)

/-- The pod specification, if there is a template that has one. -/
def podSpec? (d : DeploymentConfig) : Option PodSpec := d.spec.template.bind (·.spec)

/-- The pod specification, an empty one where the workload has none. -/
def podSpec (d : DeploymentConfig) : PodSpec := d.podSpec?.getD {}

/-- The workload with another pod specification. -/
def withPodSpec (d : DeploymentConfig) (s : PodSpec) : DeploymentConfig :=
  let template := d.spec.template.getD {}
  { d with spec := { d.spec with template := some { template with spec := some s } } }

/-- The workload with its pod specification changed. -/
def modifyPodSpec (d : DeploymentConfig) (f : PodSpec → PodSpec) : DeploymentConfig :=
  d.withPodSpec (f d.podSpec)

/-- The workload with an empty pod specification where it has none. -/
def filled (d : DeploymentConfig) : DeploymentConfig := d.withPodSpec d.podSpec

/-- The containers of the pods. -/
def containers (d : DeploymentConfig) : List Container := d.podSpec.containers

/-- The volumes of the pods. -/
def volumes (d : DeploymentConfig) : List Volume := d.podSpec.volumes.getD []

/-- The init containers of the pods. -/
def initContainers (d : DeploymentConfig) : List Container := d.podSpec.initContainers.getD []

@[simp] theorem podSpec?_withPodSpec (d : DeploymentConfig) (s : PodSpec) :
    (d.withPodSpec s).podSpec? = some s := rfl

@[simp] theorem podSpec_withPodSpec (d : DeploymentConfig) (s : PodSpec) :
    (d.withPodSpec s).podSpec = s := rfl

@[simp] theorem metadata_withPodSpec (d : DeploymentConfig) (s : PodSpec) :
    (d.withPodSpec s).metadata = d.metadata := rfl

end DeploymentConfig

end InnerLoop
