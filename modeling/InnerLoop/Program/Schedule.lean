import InnerLoop.Program.World

/-!
# Running programs together

A program is run in a world while other steps are taken, one after another, each not before a time
of its own. The program always goes first. When both can only wait, background waits take notice,
then pauses end, and then the clock jumps to the time at which the first of them wakes.

- `Program.drive`: a program run until it ends or is held back.
- `Step`, `Entry`: what is done beside it, and when.
- `runBeside`: the runs together, with their results and times.
- `runAlone`: a program run with nothing beside it.
-/

namespace InnerLoop

/-- The program run until it ends or is held back. -/
def Program.drive {α : Type} : Program α → World → Program α × World
  | .done a, w => (.done a, w)
  | .ask r next, w =>
    match w.answer r with
    | some (reply, w) => drive (next reply) w
    | none => (.ask r next, w)

/-- What is done beside a program. -/
inductive Step (β : Type) where
  /-- Something that takes effect at once. -/
  | act (f : World → β × World)
  | run (p : Program β)

/-- A step, and the earliest time at which it is taken. -/
structure Entry (β : Type) where
  time : Nat
  step : Step β

/-- A result, with the times between which it came about. -/
structure Timed (β : Type) where
  result : β
  start : Nat
  finish : Nat

/-- How long it took. -/
def Timed.length {β : Type} (t : Timed β) : Nat := t.finish - t.start

/-- The steps beside a program: the one that is under way, with when it was taken, and the rest. -/
structure Beside (β : Type) where
  current : Option (Program β × Nat) := none
  rest : List (Entry β) := []
  results : List (Timed β) := []

namespace Beside

variable {β : Type}

/-- Whether all steps were taken. -/
def isDone (b : Beside β) : Bool := b.current.isNone && b.rest.isEmpty

/-- The steps with one more result. -/
def finish (b : Beside β) (result : β) (start : Nat) (w : World) : Beside β :=
  { b with current := none, results := b.results ++ [⟨result, start, w.clock⟩] }

/-- Takes the steps of a list whose time has come, until one is held back. -/
def take (b : Beside β) : List (Entry β) → World → Beside β × World
  | [], w => ({ b with current := none, rest := [] }, w)
  | e :: r, w =>
    if w.clock < e.time then ({ b with current := none, rest := e :: r }, w)
    else match e.step with
      | .act f =>
        let start := w.clock
        let (result, w) := f w
        take (b.finish result start w) r w
      | .run p =>
        let start := w.clock
        match p.drive w with
        | (.done result, w) => take (b.finish result start w) r w
        | (p, w) => ({ b with current := some (p, start), rest := r }, w)

/-- Goes on with the steps until one is held back. -/
def drive (b : Beside β) (w : World) : Beside β × World :=
  match b.current with
  | none => b.take b.rest w
  | some (p, start) =>
    match p.drive w with
    | (.done result, w) => (b.finish result start w).take b.rest w
    | (p, w) => ({ b with current := some (p, start) }, w)

/-- When the steps go on at the latest. -/
def wakesAt (b : Beside β) : Option Nat :=
  match b.current, b.rest with
  | some (.ask r _, _), _ => r.wakesAt
  | _, e :: _ => some e.time
  | _, [] => none

end Beside

/-- The program after its pause, if it is in one. -/
def Program.unpause? {α : Type} : Program α → Option (Program α)
  | .ask .pause next => some (next ())
  | _ => none

/-- When a program goes on at the latest. -/
def Program.wakesAt {α : Type} : Program α → Option Nat
  | .ask r _ => r.wakesAt
  | .done _ => none

/-- The earlier of two times. -/
def earlier : Option Nat → Option Nat → Option Nat
  | some a, some b => some (min a b)
  | a, none => a
  | none, b => b

/-- How a program ended that may have been cut off: its result, or none. -/
structure Outcome (α β : Type) where
  main : Timed (Option α)
  beside : List (Timed β)
  world : World

/-- A run of a program with steps beside it. -/
structure Joint (α β : Type) where
  start : Nat
  /-- The program, or how it ended. -/
  main : Program α ⊕ Timed (Option α)
  beside : Beside β
  world : World

namespace Joint

variable {α β : Type}

/-- Goes on with the program until it ends or is held back; it is cut off at the time `stop`. -/
def driveMain (stop : Option Nat) (j : Joint α β) : Joint α β :=
  match j.main with
  | .inr _ => j
  | .inl p =>
    match p.drive j.world with
    | (.done a, w) => { j with main := .inr ⟨some a, j.start, w.clock⟩, world := w }
    | (.ask r next, w) =>
      if stop.any (· ≤ w.clock) then
        { j with main := .inr ⟨none, j.start, w.clock⟩, world := w.abandon r }
      else { j with main := .inl (.ask r next), world := w }

/-- Goes on with the steps beside the program. -/
def driveBeside (j : Joint α β) : Joint α β :=
  let (b, w) := j.beside.drive j.world
  { j with beside := b, world := w }

/-- How it all ended, if it did. -/
def outcome? (j : Joint α β) : Option (Outcome α β) :=
  match j.main with
  | .inr t => if j.beside.isDone then some ⟨t, j.beside.results, j.world⟩ else none
  | .inl _ => none

/-- The program after its pause, or else the step beside it after its own. -/
def unpause? (j : Joint α β) : Option (Joint α β) :=
  match j.main with
  | .inl p =>
    match p.unpause? with
    | some p => some { j with main := .inl p }
    | none => step
  | .inr _ => step
where
  step : Option (Joint α β) :=
    match j.beside.current with
    | some (p, start) => p.unpause?.map fun p =>
      { j with beside := { j.beside with current := some (p, start) } }
    | none => none

/-- When anything goes on at the latest. -/
def wakesAt (stop : Option Nat) (j : Joint α β) : Option Nat :=
  match j.main with
  | .inl p => earlier (earlier p.wakesAt stop) j.beside.wakesAt
  | .inr _ => j.beside.wakesAt

/-- Whether the program could go on, after what was done beside it. -/
def isReady (j : Joint α β) : Bool :=
  match j.main with
  | .inl (.ask r _) => (j.world.answer r).isSome
  | _ => false

/-- What happens when the program and the steps beside it have gone as far as they could. -/
def wait (stop : Option Nat) (j : Joint α β) : Joint α β :=
  let w := j.world.finishJobs
  -- The steps beside the program may have brought about what it waits for.
  if j.isReady then j
  else if j.world.finishedJobs < w.finishedJobs then { j with world := w }
  else match j.unpause? with
    | some j => j
    | none =>
      -- Nothing can be done at this time, so it is the clock's turn.
      match j.wakesAt stop with
      | some time => { j with world := { j.world with clock := max j.world.clock time } }
      | none => j

/-- Runs on for at most so many turns. -/
def run (stop : Option Nat) : (turns : Nat) → Joint α β → Option (Outcome α β)
  | 0, _ => none
  | n + 1, j =>
    let j := (j.driveMain stop).driveBeside
    match j.outcome? with
    | some o => some o
    | none => run stop n (j.wait stop)

end Joint

/-- Runs a program with steps beside it, for at most so many turns; at the time `stop` the program
is cut off. -/
def runBeside {α β : Type} (turns : Nat) (stop : Option Nat) (p : Program α)
    (entries : List (Entry β)) (w : World) : Option (Outcome α β) :=
  Joint.run stop turns { start := w.clock, main := .inl p, beside := { rest := entries }, world := w }

/-- Runs a program with nothing beside it. -/
def runAlone {α : Type} (turns : Nat) (p : Program α) (w : World) :
    Option (Outcome α Empty) :=
  runBeside turns none p [] w

end InnerLoop
