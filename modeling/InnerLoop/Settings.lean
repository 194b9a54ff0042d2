import InnerLoop.Backoff
import InnerLoop.Failure
import InnerLoop.SortedMap
import InnerLoop.Text.Blank

/-!
# Settings

How long operations wait, what they create, and how they try again.

- `Settings`: what operations are told.
- `Config`: settings, with where to work and how often to look for changed files.
- `Config.variableNames`, `Config.ofVariables`: the configuration that environment variables
  describe.
-/

namespace InnerLoop

/-- What operations are told. Times are in milliseconds. -/
structure Settings where
  /-- How long to wait for a written workload to be seen. -/
  updateTimeout : Nat := 120000
  /-- How long to wait for a pod to run. -/
  podTimeout : Nat := 120000
  /-- How long to wait for a build to end. -/
  buildTimeout : Nat := 1800000
  /-- How long to wait for a secret to be there. -/
  secretTimeout : Nat := 120000
  /-- How long to wait for a claim to be gone. -/
  deleteTimeout : Nat := 60000
  /-- The size of the claim that dev mode keeps the application in. -/
  claimSize : String := "1Gi"
  /-- The image that brings the supervisor along. -/
  supervisorImage : String := "quay.io/devloop/supervisord:0.3.0"
  backoff : Backoff := .standard
  deriving DecidableEq, Inhabited, Repr

/-- Why a configuration is not valid. -/
inductive ConfigFault where
  /-- The value of a variable is not a number. -/
  | notANumber (key value : String) (fault : Text.IntegerFault)
  /-- The value of a variable is zero. -/
  | notPositive (key : String)
  deriving DecidableEq, Inhabited, Repr

/-- The wording of what is wrong with a configuration. -/
def ConfigFault.message : ConfigFault → String
  | .notANumber key value fault => key ++ "=" ++ Text.quoted value ++ ": " ++ fault.message
  | .notPositive key => key ++ " must be positive"

/-- What a run of the program is told. -/
structure Config where
  /-- The namespace to work in, if one is given. -/
  ns : Option String := none
  settings : Settings := {}
  /-- How often to look for changed files, in milliseconds. -/
  watchInterval : Nat := 1000
  deriving DecidableEq, Inhabited, Repr

namespace Config

/-- The configuration with a namespace that is asked for, if one is. -/
def within (ns : Option String) (c : Config) : Config := { c with ns := ns.or c.ns }

/-- The variables that a configuration can be described by. -/
def variableNames : List String := [
  "DEVLOOP_NAMESPACE", "DEVLOOP_UPDATE_TIMEOUT_SECS", "DEVLOOP_POD_TIMEOUT_SECS",
  "DEVLOOP_BUILD_TIMEOUT_SECS", "DEVLOOP_SECRET_TIMEOUT_SECS", "DEVLOOP_DELETE_TIMEOUT_SECS",
  "DEVLOOP_WATCH_INTERVAL_MS", "DEVLOOP_CLAIM_SIZE", "DEVLOOP_SUPERVISOR_IMAGE"]

/-- The number in a variable, or `default` if it is not set. -/
def number (vars : TextMap) (key : String) (default : Nat) : Except ConfigFault Nat :=
  match vars.find? key with
  | none => .ok default
  | some raw => (Text.readNat64 (Text.trim raw.toList)).mapError (.notANumber key raw)

/-- The seconds in a variable, in milliseconds, or `default` if it is not set. -/
def seconds (vars : TextMap) (key : String) (default : Nat) : Except ConfigFault Nat :=
  match vars.find? key with
  | none => .ok default
  | some _ => (number vars key 0).map (· * 1000)

/-- The configuration that variables describe. -/
def ofVariables (vars : TextMap) : Except ConfigFault Config := do
  let standard : Settings := {}
  let updateTimeout ← seconds vars "DEVLOOP_UPDATE_TIMEOUT_SECS" standard.updateTimeout
  let podTimeout ← seconds vars "DEVLOOP_POD_TIMEOUT_SECS" standard.podTimeout
  let buildTimeout ← seconds vars "DEVLOOP_BUILD_TIMEOUT_SECS" standard.buildTimeout
  let secretTimeout ← seconds vars "DEVLOOP_SECRET_TIMEOUT_SECS" standard.secretTimeout
  let deleteTimeout ← seconds vars "DEVLOOP_DELETE_TIMEOUT_SECS" standard.deleteTimeout
  let watchInterval ← number vars "DEVLOOP_WATCH_INTERVAL_MS" 1000
  if watchInterval = 0 then throw (.notPositive "DEVLOOP_WATCH_INTERVAL_MS")
  return {
    ns := vars.find? "DEVLOOP_NAMESPACE"
    settings := { standard with
      updateTimeout, podTimeout, buildTimeout, secretTimeout, deleteTimeout
      claimSize := (vars.find? "DEVLOOP_CLAIM_SIZE").getD standard.claimSize
      supervisorImage := (vars.find? "DEVLOOP_SUPERVISOR_IMAGE").getD standard.supervisorImage }
    watchInterval }

end Config

end InnerLoop
