import InnerLoop.Operation.Patch

/-!
# Pushing sources

- `exec`: runs a command in a pod.
- `pushFiles`: sends local files into a directory of a pod, as an archive that a remote command
  reads while it is written.
- `push`: sends them to where the running pod of a component expects them, and restarts the
  application there.
-/

namespace InnerLoop

open Operation

/-- Waits while a command that stopped reading goes on. -/
def linger : Operation Unit := sleep hangUpLinger

/-- Runs a command in a pod. -/
def exec (call : ExecCall) : Program (Except ClusterFault ExecOutput) := do
  match ← Program.question (.beginExec call.pod) with
  | .error fault => return .error fault
  | .ok none =>
    Program.question (.endExec call)
    return .ok {}
  | .ok (some trouble) =>
    if trouble.hangUp then
      let _ ← linger.run
      Program.question (.endExec { call with stdin := [] })
    else Program.question (.endExec call)
    return .error (.exec trouble.message)

/-- Sends the archive of a manifest into a directory of a pod. -/
def sendArchive (m : Manifest) (pod target : String) : Operation Unit := do
  let trouble ← ofCluster (.question (.beginExec pod))
  let writing ← ask (.readFiles m)
  ask .pause
  let transfer ← ask (.transfer trouble writing)
  -- A command that is given up before it ends leaves no trace.
  if transfer.now.exit.isSome then
    if hangsUp trouble then linger
    ask (.endExec {
      pod, command := m.unpackCommand target, stdin := transfer.now.received })
  given transfer.result

/-- Sends what changed below `root`, or all of it, into a directory of a pod. -/
def pushFiles (root : Path) (pod target : String) (changed : List Path) : Operation Manifest := do
  let m ← ask (.buildManifest root changed)
  ask .pause
  let m ← given m
  within (.pushToPod pod) (sendArchive m pod target)
  return m

/-- The remote command that builds pushed sources and restarts the application. -/
def restartCommand : List String := [supervisorDir ++ "/bin/assemble-and-restart"]

/-- Sends what changed below `root`, or all of it, to the running pod of a component, and restarts
the application. -/
def push (s : Settings) (name : String) (root : Path) (changed : List Path) :
    Operation Manifest := do
  let p ← within (.push name) (waitForRunningPod s (podLabel ++ "=" ++ name))
  let pod := Resource.nameOf p
  let d ← within (.getWorkload name) (readWorkload name)
  let target ← given (d.sourceTarget name)
  let _ ← within (.createTarget target pod)
    (ofCluster (exec { pod, command := ["mkdir", "-p", target] }))
  let m ← pushFiles root pod target changed
  let _ ← within (.restart pod) (ofCluster (exec { pod, command := restartCommand }))
  return m

end InnerLoop
