import InnerLoop.Command.Basic
import InnerLoop.Operation.Component
import InnerLoop.Operation.WatchLoop

/-!
# Running commands

- `Command.run`: what a command does.
-/

namespace InnerLoop.Command

open CommandProgram

/-- An operation as a command without a result. -/
def quietly {α : Type} (x : Operation α) : CommandProgram Unit := do
  let _ ← ofOperation x
  return ()

/-- What a command does. A command that goes on until it is stopped does so for `rounds` rounds. -/
def run (c : Config) (rounds : Nat) : Command → CommandProgram Unit
  | .push component root changed => quietly (InnerLoop.push c.settings component root changed)
  | .toDev component image => quietly (toDevMode c.settings component image)
  | .toBuild component image => quietly (toBuildMode c.settings component image)
  | .rebuild component => quietly (InnerLoop.rebuild c.settings component)
  | .watch component root => watchLoop c.settings component root c.watchInterval rounds
  | .setEnv component vars => quietly do
    let vars ← Operation.given (parseEnv vars)
    addEnvVars c.settings component vars
  | .mountClaim component claim path => quietly (addClaim c.settings component claim path)
  | .unmountClaim component claim => quietly (removeClaim c.settings claim component)

end InnerLoop.Command
