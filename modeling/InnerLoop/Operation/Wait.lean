import InnerLoop.Program.Basic
import InnerLoop.Settings
import InnerLoop.Watch.Condition

/-!
# Waiting for objects

- `waitForWorkload`: until a workload meets a condition.
- `waitForSecret`: until a secret is there.
- `waitForBuild`: until a build has ended.
- `waitForRunningPod`: until a pod runs.
- `waitForClaimDeletion`: until a claim is gone.
-/

namespace InnerLoop

open Operation

/-- Waits on a new watch for the first object that `check` decides on. -/
def awaitObject (k : Kind) (selector : Selector) (what : String) (timeout : Nat)
    (check : Change → k.Object → Verdict) : Operation k.Object := do
  let handle ← ask (.watch k selector)
  let now ← ask .now
  let ending ← ask (.await k handle (now + timeout) check)
  given (ending.result what (.ofMillis timeout))

/-- Waits until the workload of a name meets a condition. -/
def waitForWorkload (name : String) (condition : Condition) (timeout : Nat) :
    Operation DeploymentConfig :=
  awaitObject .workload (.name name) ("DeploymentConfig " ++ name) timeout
    (workloadVerdict condition)

/-- Waits until the secret of a name is there. -/
def waitForSecret (s : Settings) (name : String) : Operation Secret :=
  awaitObject .secret (.name name) ("Secret " ++ name) s.secretTimeout secretVerdict

/-- Waits until the build of a name has ended. -/
def waitForBuild (s : Settings) (name : String) : Operation Build :=
  awaitObject .build (.name name) ("Build " ++ name) s.buildTimeout buildVerdict

/-- Waits in the background until a pod that a label selector means runs. -/
def waitForRunningPod (s : Settings) (selector : String) : Operation Pod := do
  let handle ← ask (.watch .pod (.labels selector))
  let job ← ask (.startPodWait handle)
  let now ← ask .now
  let ending ← ask (.joinPodWait job (now + s.podTimeout))
  given (ending.result ("pod matching " ++ selector) (.ofMillis s.podTimeout))

/-- Waits until the claim of a name is gone. The watch is opened before looking whether the claim is
there, so that a deletion between the two is seen. -/
def waitForClaimDeletion (s : Settings) (name : String) : Operation Unit := do
  let handle ← ask (.watch .claim (.name name))
  match ← ask (.getClaim name) with
  | .error fault =>
    ask (.dropWatch .claim handle)
    if fault.isNotFound then return () else throw (.ofCluster fault)
  | .ok _ =>
    -- The time runs from here, not from the opening of the watch.
    let now ← ask .now
    let ending ← ask (.await .claim handle (now + s.deleteTimeout) deletionVerdict)
    let _ ← given (ending.result ("deletion of PersistentVolumeClaim " ++ name)
      (.ofMillis s.deleteTimeout))
    return ()

end InnerLoop
