import InnerLoop.Failure
import InnerLoop.Object.Workload

/-!
# The primary container

The container of a workload that bears the component's name. There has to be exactly one.

- `primary`: that container.
- `modifyPrimary`: the workload with that container changed.
-/

namespace InnerLoop.DeploymentConfig

/-- The containers of a name. -/
def named (d : DeploymentConfig) (name : String) : List Container :=
  d.containers.filter fun c => c.name = name

/-- The one container named `name`. -/
def primary (d : DeploymentConfig) (name : String) : Except Failure Container :=
  match d.named name with
  | [c] => .ok c
  | [] => .error (.corrupt d.name (.noContainer name))
  | _ => .error (.corrupt d.name (.severalContainers name))

/-- The containers with those named `name` changed. -/
def changeNamed (name : String) (f : Container → Container) (l : List Container) :
    List Container :=
  l.map fun c => if c.name = name then f c else c

/-- The workload with its one container named `name` changed. -/
def modifyPrimary (d : DeploymentConfig) (name : String) (f : Container → Container) :
    Except Failure DeploymentConfig := do
  let _ ← d.primary name
  return d.modifyPodSpec fun s => { s with containers := changeNamed name f s.containers }

end InnerLoop.DeploymentConfig
