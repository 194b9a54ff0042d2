import InnerLoop.Operation.Switch
import InnerLoop.Operation.Push

/-!
# Components

What a developer does to a component, by the component's name.

- `resolveBuilder`: looks up a builder image.
- `rebuild`: starts a build and waits until it has ended.
- `toDevMode`, `toBuildMode`: switch the mode, keeping labels and annotations.
-/

namespace InnerLoop

open Operation

/-- Looks up a builder image. -/
def resolveBuilder (image : String) : Operation BuilderImage := do
  let reference ← given (ImageReference.parse image)
  let metadata ← within (.resolveBuilder image)
    (ofCluster (.question (.imageMetadata reference.ns reference.streamTag)))
  return { reference, metadata }

/-- Starts a build of a component and waits until it has ended. -/
def rebuild (s : Settings) (name : String) : Operation Build := do
  let b ← within (.instantiate name) (ofCluster (.question (.instantiateBuild name)))
  within (.rebuild name) (waitForBuild s (Resource.nameOf b))

/-- The name and marks of the live workload of a component, with another source type. -/
def liveMeta (name sourceType : String) : Operation ComponentMeta := do
  let current ← within (.getWorkload name) (readWorkload name)
  return (ComponentMeta.ofWorkload current).withSourceType sourceType

/-- Switches a component to dev mode. -/
def toDevMode (s : Settings) (name image : String) : Operation DeploymentConfig := do
  let builder ← resolveBuilder image
  let component ← liveMeta name sourceTypeLocal
  switchToDevMode s component builder

/-- Switches a component back to build mode. -/
def toBuildMode (s : Settings) (name image : String) : Operation DeploymentConfig := do
  let reference ← given (ImageReference.parse image)
  let component ← liveMeta name sourceTypeGit
  switchToBuildMode s component reference

end InnerLoop
