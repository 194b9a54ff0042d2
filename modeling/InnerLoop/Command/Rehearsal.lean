import InnerLoop.Command.Run
import InnerLoop.Json.Parser
import InnerLoop.Json.Render
import InnerLoop.Program.Schedule

/-!
# Rehearsing commands

A command can be tried before it is run for good: on a cluster in memory that holds the objects that
it is shown, and on files that are written down beside them. Time is only counted then, so that
nothing has to be waited for.

- `World.show?`: a world with one more object, or file, in it.
- `rehearse`: the run of a command in a world, with the cluster after it.
- `Cluster.written`: the objects of a cluster, as they are written.
-/

namespace InnerLoop

/-- Puts a written object in its place in a world. A file is written as an object too, of the kind
`File`, with its `path` and its `content`. -/
def World.show? (w : World) (v : Json) : Option World := do
  match ← (v.get "kind").as? Json.asText with
  | "DeploymentConfig" => put .workload w
  | "Pod" => put .pod w
  | "Secret" => put .secret w
  | "Build" => put .build w
  | "PersistentVolumeClaim" => put .claim w
  | "BuildConfig" =>
    let b ← v.as? BuildConfig.decode
    return w.modifyCluster fun c => { c with buildConfigs := (c.buildConfigs.upsert b).2 }
  | "File" =>
    let path ← (v.get "path").as? Json.asText
    let content ← (v.get "content").as? Json.asText
    return { w with files := w.files.write ⟨path⟩ (.file (Text.bytesOf content) 0o644 ⟨0, 0⟩) }
  | _ => none
where
  put (k : Kind) (w : World) : Option World := do
    let o ← v.as? k.decode
    return w.modifyCluster fun c => c.withStore k ((c.store k).upsert o).2

/-- The world that lines describe, one object each; lines without anything on them say nothing. -/
def World.ofLines? (ns : String) (lines : List String) : Option World :=
  (lines.filter fun l => !(Text.trim l.toList).isEmpty).foldlM
    (fun w l => (Json.parse? l).bind w.show?) { cluster := { ns } }

/-- The objects of a cluster, as they are written: those of each kind in the order of their names. -/
def Cluster.written (c : Cluster) : List Json :=
  c.workloads.objects.values.map DeploymentConfig.encode ++
    c.buildConfigs.objects.values.map BuildConfig.encode ++
    c.builds.objects.values.map Build.encode ++
    c.claims.objects.values.map Claim.encode

/-- Why a rehearsal says nothing about its command. -/
inductive RehearsalFault where
  /-- A line is not the text of an object. -/
  | badScene
  /-- The command did not end in the turns that it was given. -/
  | endless
  deriving DecidableEq, Inhabited, Repr

/-- The wording of why a rehearsal says nothing about its command. -/
def RehearsalFault.message : RehearsalFault → String
  | .badScene => "there is not one object to a line"
  | .endless => "the command does not end"

/-- How many turns a rehearsal may take. -/
def rehearsalTurns : Nat := 1000000

/-- How many rounds a command goes on in a rehearsal that goes on until it is stopped. -/
def rehearsalRounds : Nat := 10

/-- Runs a command in the world that lines describe. -/
def rehearse (c : Config) (command : Command) (lines : List String) :
    Except RehearsalFault (Except CommandFault Cluster) :=
  match World.ofLines? (c.ns.getD "default") lines with
  | none => .error .badScene
  | some w =>
    match runAlone rehearsalTurns (command.run c rehearsalRounds).run w with
    | none => .error .endless
    | some o =>
      match o.main.result with
      | none => .error .endless
      | some r => .ok (r.map fun _ => o.world.cluster)

end InnerLoop
