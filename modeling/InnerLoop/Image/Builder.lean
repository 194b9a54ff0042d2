import InnerLoop.Image.Reference
import InnerLoop.Image.Metadata
import InnerLoop.Workload.Env
import InnerLoop.Workload.Port

/-!
# Builder images

A builder image says by its labels where its build scripts are, where it expects sources and where
it puts what it built.

- `BuilderImage.ports`: the ports that the image exposes.
- `BuilderImage.paths`: the locations that its labels name.
- `BuilderImage.bootstrapEnv`: those locations as environment variables for the supervisor.
-/

namespace InnerLoop

/-- An image with what is known of it. -/
structure BuilderImage where
  reference : ImageReference
  metadata : ImageMetadata
  deriving DecidableEq, Inhabited

/-- Where the scripts and directories of a builder image are. -/
structure BuilderPaths where
  /-- How the scripts are reached: `image://`, `file://` or `http(s)://`. -/
  scriptsProtocol : String := ""
  scriptsUrl : String := ""
  /-- Where sources, or built files, are put. -/
  sourcePath : String := ""
  deploymentDir : String := ""
  deriving DecidableEq, Inhabited, Repr

namespace BuilderImage

/-- The label that says where the scripts are. -/
def scriptsUrlLabel : String := "io.openshift.s2i.scripts-url"

/-- The label that says where sources go. -/
def sourcePathLabel : String := "io.openshift.s2i.destination"

/-- The labels that say where built files go, the first one that is there counting. -/
def deploymentDirLabels : List String := ["com.redhat.deployments-dir", "org.jboss.deployments-dir"]

/-- Where sources go when the image does not say. -/
def defaultSourcePath : String := "/tmp"

/-- A port that the image exposes; its protocol must be written out. -/
def exposedPort (text : String) : Except Failure ContainerPort :=
  if (Text.splitAll '/' text.toList).length = 2 then parsePort text
  else .error (.invalid (.exposedPort text))

/-- The ports that the image exposes. -/
def ports (b : BuilderImage) : Except Failure (List ContainerPort) :=
  b.metadata.exposedPorts.mapM exposedPort

/-- The rest of `s` after `start`, if it starts so. -/
def afterStart (start s : String) : Option String :=
  if start.toList.isPrefixOf s.toList then some (String.ofList (s.toList.drop start.length))
  else none

/-- The protocol by which scripts are reached, and where they are. -/
def scriptsLocation (url : String) : Except Failure (String × String) :=
  match afterStart "image://" url with
  | some path => .ok ("image://", path)
  | none =>
    match afterStart "file://" url with
    | some path => .ok ("file://", path)
    | none =>
      if (afterStart "http://" url).isSome ∨ (afterStart "https://" url).isSome then
        .ok ("http(s)://", url)
      else .error (.invalid (.scriptsUrl url))

/-- The locations that the labels name; an image without labels has none. -/
def paths (b : BuilderImage) : Except Failure BuilderPaths :=
  let labels := b.metadata.labels
  if labels.isEmpty then .ok {}
  else do
    let (scriptsProtocol, scriptsUrl) ←
      scriptsLocation ((labels.find? scriptsUrlLabel).getD "")
    return {
      scriptsProtocol
      scriptsUrl
      sourcePath := ((labels.find? sourcePathLabel).filter (· ≠ "")).getD defaultSourcePath
      deploymentDir := (deploymentDirLabels.findSome? labels.find?).getD "" }

/-- The variable that says where the scripts are. -/
def scriptsUrlKey : String := "DEVLOOP_S2I_SCRIPTS_URL"

/-- The variable that says how the scripts are reached. -/
def scriptsProtocolKey : String := "DEVLOOP_S2I_SCRIPTS_PROTOCOL"

/-- The variable that says where sources go. -/
def sourcePathKey : String := "DEVLOOP_S2I_SRC_BIN_PATH"

/-- The variable that says where built files go. -/
def deploymentDirKey : String := "DEVLOOP_S2I_DEPLOYMENT_DIR"

/-- The variables that tell the supervisor the locations. -/
def bootstrapEnv (b : BuilderImage) : Except Failure (List EnvVar) := do
  let p ← b.paths
  return [
    .plain scriptsUrlKey p.scriptsUrl,
    .plain scriptsProtocolKey p.scriptsProtocol,
    .plain sourcePathKey p.sourcePath,
    .plain deploymentDirKey p.deploymentDir]

end BuilderImage

end InnerLoop
