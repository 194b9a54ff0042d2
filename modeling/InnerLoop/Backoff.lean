/-!
# Pauses between attempts

A bounded Fibonacci schedule: the pauses start with a base, each next one is the sum of the two
before it but never more than a cap, and after a number of attempts there is none.

- `Backoff`: a schedule and how far it has run.
- `Backoff.next`: the pause before the next attempt.
- `Backoff.delays`: all the pauses that are left.
- `fib`: the Fibonacci numbers, from `fib 1 = fib 2 = 1`.
-/

namespace InnerLoop

/-- A schedule of pauses, in milliseconds. -/
structure Backoff where
  base : Nat
  cap : Nat
  /-- How many attempts there are, the first one included. -/
  attempts : Nat
  previous : Nat
  current : Nat
  used : Nat
  deriving DecidableEq, Inhabited, Repr

namespace Backoff

/-- A schedule at its start. -/
def make (base cap attempts : Nat) : Backoff :=
  { base, cap, attempts, previous := 0, current := base, used := 1 }

/-- Five attempts, starting with ten milliseconds and never pausing for more than a second. -/
def standard : Backoff := make 10 1000 5

/-- The pause before the next attempt, if there is one left, and the schedule after it. -/
def next (b : Backoff) : Option (Nat × Backoff) :=
  if b.attempts ≤ b.used then none
  else some (b.current, { b with
    used := b.used + 1
    previous := b.current
    current := min (b.previous + b.current) b.cap })

/-- The schedule back at its start. -/
def reset (b : Backoff) : Backoff := make b.base b.cap b.attempts

/-- The pauses that are left. -/
def delays (b : Backoff) : List Nat :=
  match _ : b.next with
  | none => []
  | some (d, b') => d :: delays b'
termination_by b.attempts - b.used
decreasing_by
  rename_i h
  simp only [next] at h
  split at h
  · simp at h
  · simp only [Option.some.injEq, Prod.mk.injEq] at h
    obtain ⟨-, rfl⟩ := h
    simp only
    omega

end Backoff

/-- The Fibonacci numbers. -/
def fib : Nat → Nat
  | 0 => 0
  | 1 => 1
  | n + 2 => fib n + fib (n + 1)

end InnerLoop
