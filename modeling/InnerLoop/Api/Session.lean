import InnerLoop.Api.Call
import InnerLoop.Text.Blank

/-!
# Running a command in a pod

A request opens a session with the command; frames on numbered channels then carry what it writes,
and how it ended.

- `Execution`: a command that is to be run, and `Execution.request`, the request for it.
- `SessionScript.outcome`: what a session tells of the command.
-/

namespace InnerLoop.Api

open Json

/-- A command that is to be run in a pod. -/
structure Execution where
  pod : String
  container : Option String := none
  command : List String
  /-- What the command is to read, if anything. -/
  input : Option String := none
  /-- Whether the command gets a terminal, which it writes all its output to. -/
  tty : Bool := false
  deriving DecidableEq, Inhabited

/-- A member of a query that is there if something holds. -/
def flag (name : String) (holds : Bool) : Query := if holds then [(name, "true")] else []

/-- The request that opens a session. -/
def Execution.request (e : Execution) (ns : String) : Except ApiFault HttpRequest :=
  toObject .get (collectionOf .pod) ns e.pod
    (flag "stdin" e.input.isSome ++ flag "stdout" true ++ flag "stderr" (!e.tty) ++
      flag "tty" e.tty ++ (e.container.toList.map ("container", ·)) ++
      e.command.map ("command", ·))
    none "/exec"

/-! ## What a session tells -/

/-- How a command ended. -/
structure ExitStatus where
  status : Option String := none
  message : Option String := none
  deriving DecidableEq, Inhabited, Repr

/-- Reads why a command failed. -/
def decodeExitCause : Decoder Unit := fun v => do
  let ms ← object? v
  let _ ← optional asText ms "field"
  let _ ← optional asText ms "message"
  let _ ← optional asText ms "reason"
  some ()

/-- Reads what is told of the end of a command beside how it ended. -/
def decodeExitDetails : Decoder Unit := fun v => do
  let ms ← object? v
  let _ ← optional (asList decodeExitCause) ms "causes"
  let _ ← optional asText ms "group"
  let _ ← optional asText ms "kind"
  let _ ← optional asText ms "name"
  let _ ← optional asInt32 ms "retryAfterSeconds"
  let _ ← optional asText ms "uid"
  some ()

/-- Reads how a command ended. -/
def ExitStatus.decode : Decoder ExitStatus := fun v => do
  let ms ← object? v
  guard (isTagged "v1" "Status" ms)
  let status ← optional asText ms "status"
  let message ← optional asText ms "message"
  let _ ← optional asText ms "reason"
  let _ ← optional asInt32 ms "code"
  let _ ← optional ListMeta.decode ms "metadata"
  let _ ← optional decodeExitDetails ms "details"
  some { status, message }

/-- What was read from a session so far. -/
structure Transcript where
  output : ExecOutput := {}
  exit : Option ExitStatus := none
  deriving DecidableEq, Inhabited

/-- The transcript of some frames. Channel 1 carries the output, channel 2 the error output unless
that goes to a terminal, and channel 3 how the command ended, after which nothing is read. An empty
frame says nothing. -/
def Transcript.ofFrames (tty : Bool) : List (Nat × String) → Transcript → Transcript
  | [], t => t
  | (channel, data) :: r, t =>
    if data = "" then ofFrames tty r t
    else match channel with
      | 1 => ofFrames tty r { t with output := { t.output with stdout := t.output.stdout ++ data } }
      | 2 =>
        if tty then ofFrames tty r t
        else ofFrames tty r { t with output := { t.output with stderr := t.output.stderr ++ data } }
      | 3 => { t with exit := (Written.ofText? data).bind ExitStatus.decode }
      | _ => ofFrames tty r t

/-- What a transcript says of the command: its output, or why it failed. -/
def Transcript.outcome (t : Transcript) : Except ClusterFault ExecOutput :=
  match t.exit with
  | some { status := some "Failure", message } =>
    let message := message.getD ""
    .error (.exec (if t.output.stderr = "" then message
      else message ++ ": " ++ Text.trimmedEnd t.output.stderr))
  | _ => .ok t.output

/-- What a session tells of the command. -/
def SessionScript.outcome (s : SessionScript) (tty : Bool) : Except ClusterFault ExecOutput :=
  (Transcript.ofFrames tty s.frames {}).outcome

/-- What an answer to the request for a session leads to. -/
def Execution.outcome (e : Execution) (a : Answer) : Except ClusterFault ExecOutput :=
  match a.session with
  | some s => s.outcome e.tty
  | none => .error (ApiFault.toCluster .noSession)

/-- What the server reads of the command's input after an answer, if it does. -/
def Execution.inputRead (e : Execution) (a : Answer) : Option String :=
  match a.session, e.input with
  | some { readsInput := true, .. }, some input => some input
  | _, _ => none

end InnerLoop.Api
