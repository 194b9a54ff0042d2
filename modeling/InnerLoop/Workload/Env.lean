import InnerLoop.Failure
import InnerLoop.Object.Pod

/-!
# Environment variables of a container

- `mergeEnv`: the variables after some updates; an update takes the place of the first variable of
  its name, or comes last.
- `parseEnv`: reads `NAME=value` arguments, no name twice.
-/

namespace InnerLoop

/-- A variable with a plain value. -/
def EnvVar.plain (name value : String) : EnvVar := { name, value := some value }

/-- The variables with `update` in the place of the first one of its name, or at the end. -/
def putEnv (update : EnvVar) : List EnvVar → List EnvVar
  | [] => [update]
  | e :: r => if e.name = update.name then update :: r else e :: putEnv update r

/-- The variables after all updates, made in their order. -/
def mergeEnv (existing updates : List EnvVar) : List EnvVar :=
  updates.foldl (fun vars update => putEnv update vars) existing

/-- Reads one argument. -/
def parseEnvVar (spec : String) : Except Failure EnvVar :=
  match Text.splitFirst '=' spec.toList with
  | none => .error (.invalid (.envWithoutValue spec))
  | some ([], _) => .error (.invalid (.envWithoutName spec))
  | some (name, value) => .ok (.plain (String.ofList name) (String.ofList value))

/-- Reads arguments, of which none may have one of the names `seen`. -/
def parseEnvAfter (seen : List String) : List String → Except Failure (List EnvVar)
  | [] => .ok []
  | spec :: r => do
    let var ← parseEnvVar spec
    if var.name ∈ seen then .error (.invalid (.envRepeated var.name))
    else return var :: (← parseEnvAfter (var.name :: seen) r)

/-- Reads arguments. -/
def parseEnv (specs : List String) : Except Failure (List EnvVar) := parseEnvAfter [] specs

end InnerLoop
