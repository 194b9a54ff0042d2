import InnerLoop.Object.Meta

/-!
# Builds and build configs

- `BuildPhase`: how far a build has come; a phase that is not known is `unknown`.
- `Build`: one run of a build config. Its source and strategy are kept as they are.
- `BuildConfig`: what builds are made from, with the number of the latest one.
-/

namespace InnerLoop

open Json

/-- How far a build has come. -/
inductive BuildPhase where
  | new | pending | running | complete | failed | error | cancelled | unknown
  deriving DecidableEq, Inhabited, Repr

namespace BuildPhase

/-- The written form of a phase. -/
def render : BuildPhase → String
  | .new => "New"
  | .pending => "Pending"
  | .running => "Running"
  | .complete => "Complete"
  | .failed => "Failed"
  | .error => "Error"
  | .cancelled => "Cancelled"
  | .unknown => "Unknown"

/-- The phase of a written form. -/
def ofText : String → BuildPhase
  | "New" => .new
  | "Pending" => .pending
  | "Running" => .running
  | "Complete" => .complete
  | "Failed" => .failed
  | "Error" => .error
  | "Cancelled" => .cancelled
  | _ => .unknown

/-- Whether a build in this phase can no longer change. -/
def isTerminal : BuildPhase → Bool
  | .complete | .failed | .error | .cancelled => true
  | _ => false

/-- Reads a phase. -/
def decode : Decoder BuildPhase := asWord (fun s => some (ofText s)) .new

@[simp] theorem ofText_render (p : BuildPhase) : ofText p.render = p := by cases p <;> rfl

end BuildPhase

/-! ## Builds -/

/-- What a build runs. -/
structure BuildSpec where
  source : Option Json := none
  strategy : Option Json := none
  deriving Inhabited

/-- How far a build has come, and a word about it. -/
structure BuildStatus where
  phase : BuildPhase := .new
  message : Option String := none
  deriving DecidableEq, Inhabited

/-- One run of a build config. -/
structure Build where
  metadata : ObjectMeta := {}
  spec : BuildSpec := {}
  status : Option BuildStatus := none
  deriving Inhabited

instance : Resource Build where
  kind := "Build"
  apiVersion := "build.openshift.io/v1"
  metadata := Build.metadata
  withMetadata m b := { b with metadata := m }

/-- Reads a build's specification. -/
def BuildSpec.decode : Decoder BuildSpec := fun v => do
  let ms ← shaped ["source", "strategy"] 0 v
  let source ← optional asJson ms "source"
  let strategy ← optional asJson ms "strategy"
  some { source, strategy }

/-- Writes a build's specification. -/
def BuildSpec.encode (s : BuildSpec) : Json :=
  objectOf [ifSome "source" id s.source, ifSome "strategy" id s.strategy]

/-- Reads a build's status. -/
def BuildStatus.decode : Decoder BuildStatus := fun v => do
  let ms ← shaped ["phase", "message"] 0 v
  let phase ← present BuildPhase.decode ms "phase" .new
  let message ← optional asText ms "message"
  some { phase, message }

/-- Writes a build's status. -/
def BuildStatus.encode (s : BuildStatus) : Json :=
  objectOf [always "phase" (.text s.phase.render), ifSome "message" .text s.message]

/-- Reads a build. -/
def Build.decode : Decoder Build := fun v => do
  let ms ← shaped ["metadata", "spec", "status"] 3 v
  let metadata ← required ObjectMeta.decode ms "metadata"
  let spec ← required BuildSpec.decode ms "spec"
  let status ← optional BuildStatus.decode ms "status"
  some { metadata, spec, status }

/-- Writes a build. -/
def Build.encode (b : Build) : Json :=
  objectOf (Resource.header Build ++ [
    always "metadata" b.metadata.encode,
    always "spec" b.spec.encode,
    ifSome "status" BuildStatus.encode b.status])

/-- The phase of a build; one without a status is new. -/
def Build.phase (b : Build) : BuildPhase := (b.status.map (·.phase)).getD .new

/-! ## Build configs -/

/-- What builds are made from. -/
structure BuildConfigSpec where
  source : Option Json := none
  strategy : Option Json := none
  output : Option Json := none
  deriving Inhabited

/-- Which build was started last. -/
structure BuildConfigStatus where
  lastVersion : Int := 0
  deriving DecidableEq, Inhabited

/-- What builds are made from, and which was the last. -/
structure BuildConfig where
  metadata : ObjectMeta := {}
  spec : BuildConfigSpec := {}
  status : Option BuildConfigStatus := none
  deriving Inhabited

instance : Resource BuildConfig where
  kind := "BuildConfig"
  apiVersion := "build.openshift.io/v1"
  metadata := BuildConfig.metadata
  withMetadata m b := { b with metadata := m }

/-- Reads a build config's specification. -/
def BuildConfigSpec.decode : Decoder BuildConfigSpec := fun v => do
  let ms ← shaped ["source", "strategy", "output"] 0 v
  let source ← optional asJson ms "source"
  let strategy ← optional asJson ms "strategy"
  let output ← optional asJson ms "output"
  some { source, strategy, output }

/-- Writes a build config's specification. -/
def BuildConfigSpec.encode (s : BuildConfigSpec) : Json :=
  objectOf [ifSome "source" id s.source, ifSome "strategy" id s.strategy,
    ifSome "output" id s.output]

/-- Reads a build config's status. -/
def BuildConfigStatus.decode : Decoder BuildConfigStatus := fun v => do
  let ms ← shaped ["lastVersion"] 0 v
  let lastVersion ← present asInt64 ms "lastVersion" 0
  some { lastVersion }

/-- Writes a build config's status. -/
def BuildConfigStatus.encode (s : BuildConfigStatus) : Json :=
  objectOf [always "lastVersion" (ofInt s.lastVersion)]

/-- Reads a build config. -/
def BuildConfig.decode : Decoder BuildConfig := fun v => do
  let ms ← shaped ["metadata", "spec", "status"] 3 v
  let metadata ← required ObjectMeta.decode ms "metadata"
  let spec ← required BuildConfigSpec.decode ms "spec"
  let status ← optional BuildConfigStatus.decode ms "status"
  some { metadata, spec, status }

/-- Writes a build config. -/
def BuildConfig.encode (b : BuildConfig) : Json :=
  objectOf (Resource.header BuildConfig ++ [
    always "metadata" b.metadata.encode,
    always "spec" b.spec.encode,
    ifSome "status" BuildConfigStatus.encode b.status])

end InnerLoop
