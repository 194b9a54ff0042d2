import InnerLoop.Failure

/-!
# Watch events

What a watch tells about the objects it is about, and what a waiter makes of it.

- `WatchEvent`: an object was added, changed or deleted, or the watch is dead.
- `StreamItem`: an event, or a break of the stream that carries the events.
- `Verdict`: what a waiter says to one object event.
- `Ending`: how a wait ends, and `Ending.result`, what its caller gets.
-/

namespace InnerLoop

/-- What happened to an object. -/
inductive Change where
  | added | modified | deleted
  deriving DecidableEq, Inhabited, Repr

/-- The written form of a change. -/
def Change.render : Change → String
  | .added => "ADDED"
  | .modified => "MODIFIED"
  | .deleted => "DELETED"

/-- The change of a written form. -/
def Change.ofText? : String → Option Change
  | "ADDED" => some .added
  | "MODIFIED" => some .modified
  | "DELETED" => some .deleted
  | _ => none

@[simp] theorem Change.ofText?_render (c : Change) : ofText? c.render = some c := by
  cases c <;> rfl

/-- One event of a watch. -/
inductive WatchEvent (κ : Type) where
  /-- Something happened to an object, which now is as given. -/
  | object (change : Change) (object : κ)
  /-- The watch is dead. -/
  | error (reason : String)
  deriving Inhabited

/-- What a stream of events delivers. -/
inductive StreamItem (κ : Type) where
  | event (event : WatchEvent κ)
  /-- The stream broke. -/
  | broken (fault : ClusterFault)
  deriving Inhabited

/-- What a waiter says to an object. -/
inductive Verdict where
  /-- Keep waiting. -/
  | pending
  /-- This is what was waited for. -/
  | satisfied
  /-- This will never be what is waited for. -/
  | failed (reason : String)
  deriving DecidableEq, Inhabited, Repr

/-- How a wait ends. -/
inductive Ending (κ : Type) where
  | satisfied (object : κ)
  | failed (reason : String)
  | terminated (reason : String)
  | timedOut
  deriving Inhabited

/-- Why a wait ends when the stream does. -/
def streamClosed : String := "event stream closed"

/-- The result of a wait for `what` of at most `after`. -/
def Ending.result {κ : Type} (what : String) (after : Duration) : Ending κ → Except Failure κ
  | .satisfied o => .ok o
  | .failed reason => .error (.conditionFailed what reason)
  | .terminated reason => .error (.watchTerminated what reason)
  | .timedOut => .error (.timeout what after)

/-- How a verdict on an object ends a wait, if it does. -/
def Verdict.ending? {κ : Type} (o : κ) : Verdict → Option (Ending κ)
  | .pending => none
  | .satisfied => some (.satisfied o)
  | .failed reason => some (.failed reason)

/-- How one event ends a wait, if it does. -/
def WatchEvent.ending? {κ : Type} (check : Change → κ → Verdict) :
    WatchEvent κ → Option (Ending κ)
  | .object change o => (check change o).ending? o
  | .error reason => some (.terminated reason)

/-- How the first decisive event of a queue ends a wait, if there is one. -/
def firstDecisive {κ : Type} (check : Change → κ → Verdict) (queue : List (WatchEvent κ)) :
    Option (Ending κ) :=
  queue.findSome? (·.ending? check)

end InnerLoop
