import InnerLoop.Settings

/-!
# Why a command fails

- `CommandFault`: the causes, with `CommandFault.message`, their wording.
-/

namespace InnerLoop

/-- Why a command fails. -/
inductive CommandFault where
  | config (fault : ConfigFault)
  /-- An operation failed. -/
  | failed (failure : Failure)
  | cluster (fault : ClusterFault)
  | io (fault : FileFault)
  deriving DecidableEq, Inhabited, Repr

/-- The wording of why a command fails. -/
def CommandFault.message : CommandFault → String
  | .config fault => "Invalid configuration: " ++ fault.message
  | .failed failure => failure.message
  | .cluster fault => "Cluster error: " ++ fault.message
  | .io fault => "I/O error: " ++ fault.message

end InnerLoop
