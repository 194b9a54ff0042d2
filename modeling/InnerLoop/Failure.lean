import InnerLoop.Text.Quoted
import InnerLoop.Text.Split
import InnerLoop.Text.Integer
import InnerLoop.Text.Duration

/-!
# Failures and their wording

Every way in which an operation can fail is a value that says what went wrong, and one function per
type puts it into words.

- `FileFault`: a local file could not be read or written.
- `ClusterFault`: the cluster refused a request, or could not be asked.
- `InvalidInput`: an argument does not make sense.
- `Defect`: a workload is not built as it has to be.
- `Failure`: an operation did not do what it was asked to; `Failure.kind` is its kind, looked up
  through the activities that it was reported from, and `Failure.message` its wording.
-/

namespace InnerLoop

/-! ## Local files -/

/-- Why a name cannot stand in an archive. -/
inductive NameFault where
  | absolute
  | parent
  | empty
  | tooLong
  | nulByte
  deriving DecidableEq, Inhabited, Repr

/-- The wording of what is wrong with a name. -/
def NameFault.message : NameFault → String
  | .absolute => "paths in archives must be relative"
  | .parent => "paths in archives must not have `..`"
  | .empty => "paths in archives must have at least one component"
  | .tooLong => "provided value is too long"
  | .nulByte => "provided value contains a nul byte"

/-- Why a local file could not be used. -/
inductive FileFault where
  | notPermitted
  | noEntry
  | exists'
  | notDirectory
  | isDirectory
  | nameTooLong
  | notEmpty
  | tooManyLinks
  /-- A path holds a character that none may hold. -/
  | nulByte
  /-- What lies there is neither a file nor a directory nor a link. -/
  | notArchivable
  /-- A path does not end in a name. -/
  | noFileName
  /-- A socket cannot be put into an archive. -/
  | socket (path : String)
  /-- A name cannot stand in an archive; `written` is as much of it as was accepted. -/
  | badName (fault : NameFault) (written : String)
  /-- What lies at a path could not be looked up. -/
  | atMetadata (path : String) (fault : FileFault)
  /-- A directory could not be walked. -/
  | walking (path : String) (fault : FileFault)
  /-- The other end of the pipe no longer reads. -/
  | brokenPipe
  | other (text : String)
  deriving DecidableEq, Inhabited, Repr

/-- The wording of a file fault. -/
def FileFault.message : FileFault → String
  | .notPermitted => "Operation not permitted (os error 1)"
  | .noEntry => "No such file or directory (os error 2)"
  | .exists' => "File exists (os error 17)"
  | .notDirectory => "Not a directory (os error 20)"
  | .isDirectory => "Is a directory (os error 21)"
  | .nameTooLong => "File name too long (os error 36)"
  | .notEmpty => "Directory not empty (os error 39)"
  | .tooManyLinks => "Too many levels of symbolic links (os error 40)"
  | .nulByte => "file name contained an unexpected NUL byte"
  | .notArchivable => "not a regular file or symlink"
  | .noFileName => "path has no file name"
  | .socket path => path ++ ": socket can not be archived"
  | .badName fault written => fault.message ++ " when setting path for " ++ written
  | .atMetadata path fault => fault.message ++ " when getting metadata for " ++ path
  | .walking path fault => "IO error for operation on " ++ path ++ ": " ++ fault.message
  | .brokenPipe => "broken pipe"
  | .other text => text

/-! ## The cluster -/

/-- What an API server says about a request that it refuses. -/
structure ApiStatus where
  status : String := ""
  message : String := ""
  reason : String := ""
  code : Nat := 0
  deriving DecidableEq, Inhabited, Repr

/-- A refusal in words: the message and the reason, then the whole answer. -/
def ApiStatus.describe (s : ApiStatus) : String :=
  "ApiError: " ++ s.message ++ ": " ++ s.reason ++
    " (ErrorResponse \x7b status: " ++ Text.quoted s.status ++
    ", message: " ++ Text.quoted s.message ++
    ", reason: " ++ Text.quoted s.reason ++
    ", code: " ++ toString s.code ++ " \x7d)"

/-- Why a request to the cluster failed. -/
inductive ClusterFault where
  /-- The server refused the request. -/
  | api (status : ApiStatus)
  /-- The request could not be made, or its answer could not be read. -/
  | transport
  /-- There is no such object. -/
  | notFound (kind name : String)
  /-- The object is not the one that was read, or exists already. -/
  | conflict (kind name : String)
  /-- A remote command failed. -/
  | exec (message : String)
  /-- A stream to or from a remote command broke. -/
  | io (text : String)
  /-- A value could not be written or read as JSON. -/
  | serialization (text : String)
  /-- A watch could not be opened. -/
  | watch (text : String)
  deriving DecidableEq, Inhabited, Repr

namespace ClusterFault

/-- The wording of a cluster fault. -/
def message : ClusterFault → String
  | .api s => "Kubernetes API error: " ++ s.describe
  | .transport => "Kubernetes API error"
  | .notFound kind name => kind ++ " " ++ name ++ " not found"
  | .conflict kind name => "conflict updating " ++ kind ++ " " ++ name
  | .exec m => "exec failed: " ++ m
  | .io t => "I/O error: " ++ t
  | .serialization t => "Serialization error: " ++ t
  | .watch t => "watch error: " ++ t

/-- What a refusal means for a named object: code 404 that it is missing, code 409 that it is not
the expected one. -/
def ofStatus (kind name : String) (s : ApiStatus) : ClusterFault :=
  if s.code = 404 then .notFound kind name
  else if s.code = 409 then .conflict kind name
  else .api s

/-- Whether the object is missing. -/
def isNotFound : ClusterFault → Bool
  | .notFound .. => true
  | _ => false

/-- Whether the object is not the expected one. -/
def isConflict : ClusterFault → Bool
  | .conflict .. => true
  | _ => false

end ClusterFault

/-! ## Arguments and workloads -/

/-- What is wrong with an argument. -/
inductive InvalidInput where
  | imageReference (image : String)
  | exposedPort (port : String)
  | portText (spec : String)
  | portNumber (number : String) (fault : Text.IntegerFault)
  | portRange (number : Int)
  | portProtocol (protocol : String)
  | envWithoutValue (spec : String)
  | envWithoutName (spec : String)
  | envRepeated (name : String)
  | scriptsUrl (url : String)
  /-- The wanted workload has no container of its name. -/
  | noWantedContainer (name : String)
  /-- The wanted workload lacks an annotation that has to be there. -/
  | noWantedMark (key : String)
  | claimMounted (claim workload : String)
  | other (text : String)
  deriving DecidableEq, Inhabited, Repr

/-- The wording of what is wrong with an argument. -/
def InvalidInput.message : InvalidInput → String
  | .imageReference image => "invalid image reference " ++ image
  | .exposedPort port => "invalid exposed port " ++ port
  | .portText spec => "unable to parse the port string " ++ spec
  | .portNumber number fault => "invalid port number " ++ number ++ ": " ++ fault.message
  | .portRange number => "port " ++ toString number ++ " out of range"
  | .portProtocol protocol => "invalid port protocol " ++ protocol
  | .envWithoutValue spec => "invalid env " ++ spec ++ ", expected VariableName=Value"
  | .envWithoutName spec => "invalid env " ++ spec ++ ", empty name"
  | .envRepeated name => "multiple values found for " ++ name
  | .scriptsUrl url => "unknown scripts url " ++ Text.quoted url
  | .noWantedContainer name => "desired descriptor has no container named " ++ name
  | .noWantedMark key => "desired descriptor lacks the " ++ key ++ " annotation"
  | .claimMounted claim workload =>
    "PersistentVolumeClaim " ++ claim ++ " is already mounted on DeploymentConfig " ++ workload
  | .other text => text

/-- What is wrong with a workload. -/
inductive Defect where
  | noContainer (name : String)
  | severalContainers (name : String)
  | noEmptyDir (volume : String)
  | noClaimVolume (volume claim : String)
  | noMount (volume container : String)
  | severalVolumes (claim : String) (volumes : List String)
  | other (text : String)
  deriving DecidableEq, Inhabited, Repr

/-- The wording of what is wrong with a workload. -/
def Defect.message : Defect → String
  | .noContainer name => "no container named " ++ name
  | .severalContainers name => "more than one container named " ++ name
  | .noEmptyDir volume => "emptyDir volume " ++ volume ++ " not found"
  | .noClaimVolume volume claim => "volume " ++ volume ++ " bound to claim " ++ claim ++ " not found"
  | .noMount volume container =>
    "volume mount " ++ volume ++ " not found on container " ++ container
  | .severalVolumes claim volumes =>
    toString volumes.length ++ " volumes bound to claim " ++ claim ++ ": " ++
      Text.join ", " volumes
  | .other text => text

/-! ## Operations -/

/-- What was being done when something failed. -/
inductive Activity where
  | getWorkload (name : String)
  | patch (name : String)
  | confirmUpdate (name : String)
  | attachClaim (name : String)
  | detachClaim (name : String)
  | updateAnnotations (name : String)
  | updateEnv (name : String)
  | resolveBuilder (image : String)
  | instantiate (name : String)
  | rebuild (name : String)
  | push (name : String)
  | createTarget (target pod : String)
  | pushToPod (pod : String)
  | restart (pod : String)
  | computeDevMode (name : String)
  | switchToDev (name : String)
  | switchToBuild (name : String)
  | createClaim (claim : String)
  | deleteClaim (claim : String)
  | other (text : String)
  deriving DecidableEq, Inhabited, Repr

/-- The wording of an activity. -/
def Activity.describe : Activity → String
  | .getWorkload name => "get DeploymentConfig " ++ name
  | .patch name => "patch DeploymentConfig " ++ name
  | .confirmUpdate name => "confirm update of DeploymentConfig " ++ name
  | .attachClaim name => "attach claim on DeploymentConfig " ++ name
  | .detachClaim name => "detach claim on DeploymentConfig " ++ name
  | .updateAnnotations name => "update annotations on DeploymentConfig " ++ name
  | .updateEnv name => "update env on DeploymentConfig " ++ name
  | .resolveBuilder image => "resolve builder image " ++ image
  | .instantiate name => "instantiate BuildConfig " ++ name
  | .rebuild name => "rebuild " ++ name
  | .push name => "push " ++ name
  | .createTarget target pod => "create " ++ target ++ " in pod " ++ pod
  | .pushToPod pod => "push to pod " ++ pod
  | .restart pod => "assemble and restart in pod " ++ pod
  | .computeDevMode name => "compute dev mode for " ++ name
  | .switchToDev name => "switch DeploymentConfig " ++ name ++ " to dev mode"
  | .switchToBuild name => "switch DeploymentConfig " ++ name ++ " to build mode"
  | .createClaim claim => "create PersistentVolumeClaim " ++ claim
  | .deleteClaim claim => "delete PersistentVolumeClaim " ++ claim
  | .other text => text

/-- The kinds of failure that a caller can tell apart. -/
inductive FailureKind where
  | notFound | conflict | timeout | watchTerminated | conditionFailed | corruption | malformed
  | invalid | partialCompletion | cluster | io
  deriving DecidableEq, Inhabited, Repr

/-- The name of a kind. -/
def FailureKind.render : FailureKind → String
  | .notFound => "NotFound"
  | .conflict => "Conflict"
  | .timeout => "Timeout"
  | .watchTerminated => "WatchTerminated"
  | .conditionFailed => "ConditionFailed"
  | .corruption => "Corruption"
  | .malformed => "Malformed"
  | .invalid => "Invalid"
  | .partialCompletion => "PartialCompletion"
  | .cluster => "Cluster"
  | .io => "Io"

/-- Why an operation failed. -/
inductive Failure where
  /-- An object is missing, and is never made on the way. -/
  | notFound (kind name : String)
  /-- Every attempt to write an object met another writer. -/
  | conflict (kind name : String) (attempts : Nat)
  /-- What was waited for was not seen in time. -/
  | timeout (what : String) (after : Duration)
  /-- The watch ended before what was waited for was seen. -/
  | watchTerminated (what reason : String)
  /-- What was waited for can no longer happen. -/
  | conditionFailed (what reason : String)
  /-- An object is not built as it has to be. -/
  | corruption (kind name : String) (defect : Defect)
  /-- A local file could not be put into an archive. -/
  | malformed (path : String) (fault : FileFault)
  /-- An argument does not make sense. -/
  | invalid (input : InvalidInput)
  /-- An earlier step took effect before a later one failed. -/
  | partialCompletion (completed stage : Activity) (cause : Failure)
  /-- A failure, and what was being done. -/
  | during (activity : Activity) (cause : Failure)
  /-- The cluster failed in a way that has no kind of its own. -/
  | cluster (fault : ClusterFault)
  /-- A local file could not be used. -/
  | io (fault : FileFault)
  deriving DecidableEq, Inhabited, Repr

namespace Failure

/-- The kind of a failure, whatever was being done. -/
def kind : Failure → FailureKind
  | .notFound .. => .notFound
  | .conflict .. => .conflict
  | .timeout .. => .timeout
  | .watchTerminated .. => .watchTerminated
  | .conditionFailed .. => .conditionFailed
  | .corruption .. => .corruption
  | .malformed .. => .malformed
  | .invalid _ => .invalid
  | .partialCompletion .. => .partialCompletion
  | .during _ cause => cause.kind
  | .cluster (.notFound ..) => .notFound
  | .cluster (.conflict ..) => .conflict
  | .cluster _ => .cluster
  | .io _ => .io

/-- The failure without what was being done. -/
def root : Failure → Failure
  | .during _ cause => cause.root
  | f => f

/-- The wording of a failure. -/
def message : Failure → String
  | .notFound kind name => kind ++ " " ++ name ++ " not found"
  | .conflict kind name attempts =>
    kind ++ " " ++ name ++ ": update conflicted " ++ toString attempts ++ " times, giving up"
  | .timeout what after => "timed out after " ++ after.render ++ " waiting for " ++ what
  | .watchTerminated what reason => "watch for " ++ what ++ " terminated: " ++ reason
  | .conditionFailed what reason => what ++ " failed: " ++ reason
  | .corruption kind name defect => "corrupt " ++ kind ++ " " ++ name ++ ": " ++ defect.message
  | .malformed path fault => "cannot archive " ++ path ++ ": " ++ fault.message
  | .invalid input => "invalid input: " ++ input.message
  | .partialCompletion completed stage cause =>
    completed.describe ++ " succeeded, but " ++ stage.describe ++ " failed: " ++ cause.message
  | .during activity cause => activity.describe ++ ": " ++ cause.message
  | .cluster fault => "cluster error: " ++ fault.message
  | .io fault => "I/O error: " ++ fault.message

/-- The failure that a cluster fault is: a missing object is one by itself. -/
def ofCluster : ClusterFault → Failure
  | .notFound kind name => .notFound kind name
  | fault => .cluster fault

/-- A workload that is not built as it has to be. -/
def corrupt (name : String) (defect : Defect) : Failure :=
  .corruption "DeploymentConfig" name defect

/-- A result, with what was being done added to a failure. -/
def within {α : Type} (activity : Activity) (r : Except Failure α) : Except Failure α :=
  r.mapError (.during activity)

@[simp] theorem kind_during (a : Activity) (f : Failure) : (during a f).kind = f.kind := rfl

@[simp] theorem kind_root (f : Failure) : f.root.kind = f.kind := by
  fun_induction root f with
  | case1 _ _ ih => exact ih
  | case2 => rfl

end Failure

end InnerLoop
