import InnerLoop.Backoff
import InnerLoop.Failure

/-!
# Trying again

A write that meets another writer is tried again, from the read it starts with, after each pause of
a schedule. Whatever else an attempt ends with is the result.

- `retryAfter`: the attempts, with the pauses between them.
- `retryOnConflict`: the attempts that a schedule allows.
-/

namespace InnerLoop

variable {m : Type → Type} [Monad m] {α : Type}

/-- Makes an attempt, and further ones after each of the pauses as long as they meet other writers.
`made` counts the attempts up to this one. -/
def retryAfter (sleep : Nat → m Unit) (kind name : String) (attempt : m (Except Failure α))
    (made : Nat) : (pauses : List Nat) → m (Except Failure α)
  | [] => do
    -- No pause is left, so another conflict is final.
    match ← attempt with
    | .error f => if f.kind = .conflict then return .error (.conflict kind name made) else return .error f
    | .ok a => return .ok a
  | pause :: pauses => do
    match ← attempt with
    | .error f =>
      if f.kind = .conflict then do
        sleep pause
        retryAfter sleep kind name attempt (made + 1) pauses
      else return .error f
    | .ok a => return .ok a

/-- Makes the attempts that a schedule allows, wherever the schedule stands. -/
def retryOnConflict (b : Backoff) (sleep : Nat → m Unit) (kind name : String)
    (attempt : m (Except Failure α)) : m (Except Failure α) :=
  retryAfter sleep kind name attempt 1 b.reset.delays

end InnerLoop
