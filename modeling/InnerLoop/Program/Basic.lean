import InnerLoop.Cluster.Basic
import InnerLoop.Transfer.Pipe
import InnerLoop.Transfer.Snapshot

/-!
# Programs

An operation is written as a program: a tree that says what is asked of the surroundings next, and
how to go on with each answer. What the surroundings are, and who else acts on them between two
questions, is left open here.

- `Request`, `Request.Reply`: the questions and their answers.
- `Program`: the trees, a monad.
- `Operation`: programs that may fail.
-/

namespace InnerLoop

/-- A question to the surroundings. Times are in milliseconds. -/
inductive Request where
  /-- What time it is. -/
  | now
  /-- Waits until a time. -/
  | sleepUntil (time : Nat)
  /-- Lets everyone else act before going on at the same time. -/
  | pause
  /-- A number that was not given out before. -/
  | mint
  | getWorkload (name : String)
  | updateWorkload (workload : DeploymentConfig)
  | instantiateBuild (config : String)
  | getClaim (name : String)
  | createClaim (name size : String) (labels : TextMap)
  | deleteClaim (name : String)
  /-- What is known of an image, in the client's own namespace unless another one is given. -/
  | imageMetadata (ns : Option String) (tag : String)
  /-- Opens a watch. -/
  | watch (kind : Kind) (selector : Selector)
  /-- Gives a watch up. -/
  | dropWatch (kind : Kind) (handle : Nat)
  /-- Waits on a watch, and gives it up in the end. Time being up comes before any event. -/
  | await (kind : Kind) (handle deadline : Nat) (check : Change → kind.Object → Verdict)
  /-- Starts to wait on a watch for pods in the background. -/
  | startPodWait (handle : Nat)
  /-- Waits for a background wait. Its result comes before time being up. -/
  | joinPodWait (job deadline : Nat)
  /-- Starts a command in a pod, and answers the trouble that it meets. -/
  | beginExec (pod : String)
  /-- Ends a command in a pod with what it read. -/
  | endExec (call : ExecCall)
  /-- The times of the files below a directory. -/
  | scan (root : Path)
  /-- What is to be transferred. -/
  | buildManifest (root : Path) (changed : List Path)
  /-- The writing of an archive. -/
  | readFiles (manifest : Manifest)
  /-- How a writing and a command that meets some trouble, or none, get along with each other. -/
  | transfer (trouble : Option ExecTrouble) (writing : Writing)

/-- The answers to a question. -/
abbrev Request.Reply : Request → Type
  | now => Nat
  | sleepUntil _ => Unit
  | pause => Unit
  | mint => Nat
  | getWorkload _ => Except ClusterFault DeploymentConfig
  | updateWorkload _ => Except ClusterFault DeploymentConfig
  | instantiateBuild _ => Except ClusterFault Build
  | getClaim _ => Except ClusterFault Claim
  | createClaim .. => Except ClusterFault Claim
  | deleteClaim _ => Except ClusterFault Unit
  | imageMetadata .. => Except ClusterFault ImageMetadata
  | watch .. => Nat
  | dropWatch .. => Unit
  | await kind .. => Ending kind.Object
  | startPodWait _ => Nat
  | joinPodWait .. => Ending Pod
  | beginExec _ => Except ClusterFault (Option ExecTrouble)
  | endExec _ => Unit
  | scan _ => Except FileFault Snapshot
  | buildManifest .. => Except Failure Manifest
  | readFiles _ => Writing
  | transfer _ writing => Settlement writing

/-- A tree of questions that ends in an `α`. -/
inductive Program (α : Type) where
  | done (result : α)
  | ask (request : Request) (next : request.Reply → Program α)

namespace Program

variable {α β γ : Type}

/-- The program that goes on with `f` once `p` is done. -/
def bind : Program α → (α → Program β) → Program β
  | done a, f => f a
  | ask r next, f => ask r fun reply => bind (next reply) f

instance : Monad Program where
  pure := done
  bind := bind

theorem bind_done (p : Program α) : p.bind done = p := by
  induction p with
  | done => rfl
  | ask r next ih => simp only [bind, ih]

theorem bind_assoc (p : Program α) (f : α → Program β) (g : β → Program γ) :
    (p.bind f).bind g = p.bind fun a => (f a).bind g := by
  induction p with
  | done => rfl
  | ask r next ih => simp only [bind, ih]

instance : LawfulMonad Program :=
  LawfulMonad.mk' Program bind_done (fun _ _ => rfl) bind_assoc

/-- The program that asks one question. -/
def question (r : Request) : Program r.Reply := ask r done

end Program

/-- A program that may fail. -/
abbrev Operation (α : Type) := ExceptT Failure Program α

namespace Operation

variable {α : Type}

/-- The operation that asks one question. -/
def ask (r : Request) : Operation r.Reply := ExceptT.lift (.question r)

/-- The operation with a result that is known. -/
def given (r : Except Failure α) : Operation α := ExceptT.mk (.done r)

/-- The operation that a request to the cluster is. -/
def ofCluster (p : Program (Except ClusterFault α)) : Operation α :=
  ExceptT.mk (p.bind fun r => .done (r.mapError .ofCluster))

/-- The operation, with what was being done added to its failure. -/
def within (activity : Activity) (x : Operation α) : Operation α :=
  ExceptT.mk (x.run.bind fun r => .done (Failure.within activity r))

/-- Waits for some milliseconds. -/
def sleep (time : Nat) : Operation Unit := do
  let now ← ask .now
  ask (.sleepUntil (now + time))

end Operation

end InnerLoop
