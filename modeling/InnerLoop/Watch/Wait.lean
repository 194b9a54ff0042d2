import InnerLoop.Watch.Event

/-!
# Waiting on a stream

A wait takes the items of a stream as they come, asks a predicate about each object, and ends with
the first item that decides or when its time is up. An item that is due when the time is up comes
too late.

- `TimedItem`, `StreamEnd`: a stream with its timing.
- `awaitCondition`: the wait, with what it asked and how long it took.
-/

namespace InnerLoop

/-- An item of a stream, and how long after the one before it was taken it comes. -/
structure TimedItem (κ : Type) where
  after : Nat
  item : StreamItem κ

/-- What comes after the last item of a stream. -/
inductive StreamEnd where
  | closed | silent
  deriving DecidableEq, Inhabited, Repr

/-- A finished wait. -/
structure WaitRun (κ : Type) where
  ending : Ending κ
  /-- What the predicate was asked about, and what it said. -/
  asked : List (Change × κ × Verdict)
  /-- When the wait ended. -/
  elapsed : Nat

/-- The run with one more question before it. -/
def WaitRun.asking {κ : Type} (change : Change) (o : κ) (v : Verdict) (run : WaitRun κ) :
    WaitRun κ :=
  { run with asked := (change, o, v) :: run.asked }

section

variable {κ σ : Type} (timeout : Nat) (check : σ → Change → κ → Verdict × σ) (atEnd : StreamEnd)

/-- The wait from the time `now` on, with the predicate in the state `s`. -/
def awaitFrom (now : Nat) (s : σ) : List (TimedItem κ) → WaitRun κ
  | [] =>
    if atEnd = .closed ∧ now < timeout then ⟨.terminated streamClosed, [], now⟩
    else ⟨.timedOut, [], timeout⟩
  | t :: r =>
    let due := now + t.after
    if timeout ≤ due then ⟨.timedOut, [], timeout⟩
    else match t.item with
      | .broken fault => ⟨.terminated fault.message, [], due⟩
      | .event (.error reason) => ⟨.terminated reason, [], due⟩
      | .event (.object change o) =>
        let (v, s) := check s change o
        match v.ending? o with
        | some ending => ⟨ending, [(change, o, v)], due⟩
        | none => (awaitFrom due s r).asking change o v

/-- The wait for at most `timeout` milliseconds. -/
def awaitCondition (s : σ) (items : List (TimedItem κ)) : WaitRun κ :=
  awaitFrom timeout check atEnd 0 s items

end

end InnerLoop
