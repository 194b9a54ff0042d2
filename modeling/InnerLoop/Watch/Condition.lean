import InnerLoop.Watch.Event
import InnerLoop.Text.Blank
import InnerLoop.Object.Secret
import InnerLoop.Object.Workload
import InnerLoop.Object.Build

/-!
# What is waited for

- `Condition`: an annotation or a label is there, or has a value.
- `workloadVerdict`, `podVerdict`, `secretVerdict`, `buildVerdict`, `deletionVerdict`: what the
  waiters for workloads, pods, secrets, builds and the deletion of claims say to an object.
-/

namespace InnerLoop

/-- A mark of an object. -/
inductive Mark where
  | annotated (key : String)
  | labelled (key : String)
  deriving DecidableEq, Inhabited, Repr

/-- A mark that is waited for, with a value if one is asked for. -/
structure Condition where
  mark : Mark
  expected : Option String
  deriving DecidableEq, Inhabited, Repr

namespace Condition

variable {κ : Type} [Resource κ]

/-- The value of the mark. -/
def actual (c : Condition) (o : κ) : Option String :=
  match c.mark with
  | .annotated key => (Resource.annotationsOf o).find? key
  | .labelled key => (Resource.labelsOf o).find? key

/-- Whether an object bears the mark, with the value that is asked for. -/
def holds (c : Condition) (o : κ) : Bool :=
  match c.actual o with
  | none => false
  | some v => c.expected.all (· == v)

/-- What is said to an object: satisfied if it bears the mark. -/
def verdict (c : Condition) (o : κ) : Verdict := if c.holds o then .satisfied else .pending

end Condition

/-- A workload that meets a condition; a deleted one never will. -/
def workloadVerdict (c : Condition) (change : Change) (d : DeploymentConfig) : Verdict :=
  if change = .deleted then .failed "deleted while waiting" else c.verdict d

/-- A running pod; one that failed, or of which nothing is known, never will run. -/
def podVerdict (change : Change) (p : Pod) : Verdict :=
  if change = .deleted then .pending
  else match p.status.bind (·.phase) with
    | some "Running" => .satisfied
    | some phase =>
      if phase = "Failed" ∨ phase = "Unknown" then
        let message := (p.status.bind (·.message)).getD ""
        .failed (Text.trimmedEnd ("pod " ++ Resource.nameOf p ++ " is " ++ phase ++ " " ++ message))
      else .pending
    | none => .pending

/-- A secret that is there. -/
def secretVerdict (change : Change) (_ : Secret) : Verdict :=
  if change = .deleted then .pending else .satisfied

/-- A complete build; one that ended otherwise, or was deleted, never will be. -/
def buildVerdict (change : Change) (b : Build) : Verdict :=
  if change = .deleted then .failed ("build " ++ Resource.nameOf b ++ " was deleted")
  else match b.phase with
    | .complete => .satisfied
    | .failed | .error | .cancelled =>
      let message := match b.status.bind (·.message) with
        | some m => ": " ++ m
        | none => ""
      .failed ("build " ++ Resource.nameOf b ++ " " ++ b.phase.render ++ message)
    | _ => .pending

/-- A claim that was deleted. -/
def deletionVerdict (change : Change) (_ : Claim) : Verdict :=
  if change = .deleted then .satisfied else .pending

end InnerLoop
