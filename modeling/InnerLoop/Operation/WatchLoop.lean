import InnerLoop.Operation.Push
import InnerLoop.Command.Fault

/-!
# Pushing changes as they happen

Every interval the files below a directory are looked at, and what changed since the last push is
pushed. A push that fails is tried again with the next changes, unless it is the local files that
are at fault.

- `nextTick`: when to look again.
- `watchRounds`: some rounds of looking and pushing.
- `watchLoop`: the loop.
-/

namespace InnerLoop

/-- A program that may fail as a command does. -/
abbrev CommandProgram (α : Type) := ExceptT CommandFault Program α

namespace CommandProgram

/-- An operation as part of a command. -/
def ofOperation {α : Type} (x : Operation α) : CommandProgram α :=
  ExceptT.mk (x.run.bind fun r => .done (r.mapError .failed))

end CommandProgram

/-- How much too late a look may be before the later ones are put off, in milliseconds. -/
def tickSlack : Nat := 5

/-- When to look again, after a look that was due at `due` and happened at `now`. -/
def nextTick (interval due now : Nat) : Nat :=
  if due + tickSlack < now then now + interval else due + interval

/-- The times of the files below a directory. -/
def scanRoot (root : Path) : CommandProgram Snapshot := do
  let r ← ExceptT.lift (.question (.scan root))
  ExceptT.lift (.question .pause)
  ExceptT.mk (.done (r.mapError .io))

/-- What counts as pushed after a push, of `current` where it was `previous` before: all of it, if
the push did not fail or the local files are at fault. -/
def snapshotAfterPush {α : Type} (previous current : Snapshot) : Except Failure α → Snapshot
  | .ok _ => current
  | .error f => if f.kind = .malformed then current else previous

/-- Looks at the files, and pushes, so many times; the first time when it is `due`. -/
def watchRounds (send : List Path → Operation Manifest) (root : Path) (interval : Nat) :
    (rounds due : Nat) → Snapshot → CommandProgram Unit
  | 0, _, _ => return ()
  | n + 1, due, previous => do
    ExceptT.lift (.question (.sleepUntil due))
    let now ← ExceptT.lift (.question .now)
    let current ← scanRoot root
    let next := nextTick interval due now
    match current.changesSince previous with
    | [] => watchRounds send root interval n next previous
    | changed =>
      let r ← ExceptT.lift (send (changed.map Path.ofNames)).run
      watchRounds send root interval n next (snapshotAfterPush previous current r)

/-- Pushes what changes below `root` to a component, looking `rounds` times. -/
def watchLoop (s : Settings) (name : String) (root : Path) (interval rounds : Nat) :
    CommandProgram Unit := do
  let first ← scanRoot root
  let now ← ExceptT.lift (.question .now)
  watchRounds (push s name root) root interval rounds (now + interval) first

end InnerLoop
