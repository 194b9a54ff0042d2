import InnerLoop.Operation.Patch
import InnerLoop.Workload.Descriptor

/-!
# Switching between the modes

- `switchToDevMode`: patches a workload to dev mode, then creates the claim for the application.
- `switchToBuildMode`: patches it back to build mode, then deletes that claim and waits until it is
  gone.

If the second step fails, the failure says that the first one took effect.
-/

namespace InnerLoop

open Operation

/-- The dev-mode workload that is wanted in view of the live one. -/
def wantedInDevMode (s : Settings) (component : ComponentMeta) (builder : BuilderImage)
    (current : DeploymentConfig) : Except Failure DeploymentConfig := do
  let live ← current.primary component.name
  Failure.within (.computeDevMode component.name)
    (devModeWorkload component current live builder s.supervisorImage)

/-- The build-mode workload that is wanted in view of the live one. -/
def wantedInBuildMode (component : ComponentMeta) (image : ImageReference)
    (current : DeploymentConfig) : Except Failure DeploymentConfig := do
  let live ← current.primary component.name
  return buildModeWorkload component current live image

/-- The labels of the claim for the application of a component. -/
def claimLabels (component : String) : TextMap :=
  .singleton "app.kubernetes.io/instance" component

/-- Creates the claim for the application of a component, unless it is there. -/
def ensureClaim (s : Settings) (component : String) : Operation Unit := do
  let claim := appDataClaim component
  match ← ask (.createClaim claim s.claimSize (claimLabels component)) with
  | .ok _ => return ()
  | .error fault =>
    if fault.isConflict then return ()
    else throw (.partialCompletion (.switchToDev component) (.createClaim claim) (.ofCluster fault))

/-- Switches a component to dev mode. -/
def switchToDevMode (s : Settings) (component : ComponentMeta) (builder : BuilderImage) :
    Operation DeploymentConfig := do
  let d ← patchWorkloadWith s component.name (wantedInDevMode s component builder) none
  ensureClaim s component.name
  return d

/-- Deletes a claim, if it is there, and waits until it is gone. -/
def clearClaim (s : Settings) (claim : String) : Operation Unit := do
  match ← ask (.deleteClaim claim) with
  | .ok () => waitForClaimDeletion s claim
  | .error fault => if fault.isNotFound then return () else throw (.ofCluster fault)

/-- Switches a component back to build mode. -/
def switchToBuildMode (s : Settings) (component : ComponentMeta) (image : ImageReference) :
    Operation DeploymentConfig := do
  let name := component.name
  let d ← patchWorkloadWith s name (wantedInBuildMode component image) (some stripDevMode)
  let claim := appDataClaim name
  ExceptT.mk ((clearClaim s claim).run.bind fun r => .done (r.mapError
    (.partialCompletion (.switchToBuild name) (.deleteClaim claim))))
  return d

end InnerLoop
