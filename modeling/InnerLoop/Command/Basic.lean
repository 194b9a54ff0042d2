import InnerLoop.Command.Usage
import InnerLoop.Files.Path

/-!
# Commands

- `Command`: what the program can be told to do.
- `Command.usage`: how it is told.
- `Command.parse`: reads arguments.
-/

namespace InnerLoop

/-- What the program can be told to do. -/
inductive Command where
  /-- Push local sources, or the changed ones, into the running container. -/
  | push (component : String) (root : Path) (changed : List Path)
  | toDev (component builderImage : String)
  | toBuild (component image : String)
  | rebuild (component : String)
  /-- Push changed sources as they change. -/
  | watch (component : String) (root : Path)
  | setEnv (component : String) (vars : List String)
  | mountClaim (component claim path : String)
  | unmountClaim (component claim : String)
  deriving DecidableEq, Inhabited, Repr

namespace Command

/-- An argument that has to be there. -/
def needed : Positional := {}

/-- A path that has to be there. -/
def neededPath : Positional := { isPath := true }

/-- A command whose arguments all are texts, one each. -/
def withTexts (n : Nat) (make : List String → Option Command) : Usage Command :=
  .command (List.replicate n needed) fun values => make values.flatten

/-- How the storage of a component is told to change. -/
def storageUsage : Usage Command := .group false [
  ("mount", withTexts 3 fun
    | [component, claim, path] => some (mountClaim component claim path)
    | _ => none),
  ("unmount", withTexts 2 fun
    | [component, claim] => some (unmountClaim component claim)
    | _ => none)]

/-- How the program is told what to do. -/
def usage : Usage Command := .group true [
  ("push", .command [needed, neededPath, { required := false, many := true, isPath := true }] fun
    | [[component], [root], changed] => some (push component ⟨root⟩ (changed.map Path.mk))
    | _ => none),
  ("to-dev", withTexts 2 fun
    | [component, image] => some (toDev component image)
    | _ => none),
  ("to-build", withTexts 2 fun
    | [component, image] => some (toBuild component image)
    | _ => none),
  ("rebuild", withTexts 1 fun
    | [component] => some (rebuild component)
    | _ => none),
  ("watch", .command [needed, neededPath] fun
    | [[component], [root]] => some (watch component ⟨root⟩)
    | _ => none),
  ("env", .command [needed, { many := true }] fun
    | [[component], vars] => some (setEnv component vars)
    | _ => none),
  ("storage", storageUsage)]

/-- The command that arguments name, and the namespace if one is given. -/
def parse (args : List String) : Except UsageFault (Option String × Command) := usage.read args

end Command

end InnerLoop
