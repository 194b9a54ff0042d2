import InnerLoop.Cluster.Store
import InnerLoop.Object.Secret
import InnerLoop.Object.Workload
import InnerLoop.Object.Build
import InnerLoop.Image.Metadata

/-!
# A cluster in memory

One namespace of a cluster: a store for every kind of object, the images that can be looked up, and
the commands that were run in pods. Some troubles can be arranged beforehand.

- `Cluster`: the state.
- `Kind`: the kinds that can be watched, with the reading and writing of their objects, and
  `Cluster.store`, their stores.
- `Cluster.updateWorkload`, `Cluster.instantiateBuild`, `Cluster.createClaim`,
  `Cluster.deleteClaim`, `Cluster.imageMetadata`: the requests that are more than a look-up.
-/

namespace InnerLoop

/-- The kinds of objects that can be watched. -/
inductive Kind where
  | workload | pod | secret | build | claim
  deriving DecidableEq, Inhabited, Repr

/-- The objects of a kind. -/
abbrev Kind.Object : Kind → Type
  | .workload => DeploymentConfig
  | .pod => Pod
  | .secret => Secret
  | .build => Build
  | .claim => Claim

instance Kind.resource : (k : Kind) → Resource k.Object
  | .workload => inferInstanceAs (Resource DeploymentConfig)
  | .pod => inferInstanceAs (Resource Pod)
  | .secret => inferInstanceAs (Resource Secret)
  | .build => inferInstanceAs (Resource Build)
  | .claim => inferInstanceAs (Resource Claim)

/-- Reads an object of a kind. -/
def Kind.decode : (k : Kind) → Json.Decoder k.Object
  | .workload => DeploymentConfig.decode
  | .pod => Pod.decode
  | .secret => Secret.decode
  | .build => Build.decode
  | .claim => Claim.decode

/-- Writes an object of a kind. -/
def Kind.encode : (k : Kind) → k.Object → Json
  | .workload => DeploymentConfig.encode
  | .pod => Pod.encode
  | .secret => Secret.encode
  | .build => Build.encode
  | .claim => Claim.encode

/-- A command that was run in a pod. -/
structure ExecCall where
  pod : String
  container : Option String := none
  command : List String
  /-- All that the command read. -/
  stdin : List UInt8 := []
  tty : Bool := false
  deriving DecidableEq, Inhabited

/-- What a command wrote. -/
structure ExecOutput where
  stdout : String := ""
  stderr : String := ""
  deriving DecidableEq, Inhabited, Repr

/-- A failure that the next command is to meet. -/
structure ExecTrouble where
  message : String
  /-- Whether the command stops reading at once, and fails only a little later. -/
  hangUp : Bool
  deriving DecidableEq, Inhabited, Repr

/-- How a command exits that meets some trouble, or none. -/
def exitOf : Option ExecTrouble → Except ClusterFault Unit
  | some trouble => .error (.exec trouble.message)
  | none => .ok ()

/-- Whether a command that meets some trouble, or none, stops reading at once. -/
def hangsUp (trouble : Option ExecTrouble) : Bool := trouble.any (·.hangUp)

/-- How long a command that stopped reading goes on, in milliseconds. -/
def hangUpLinger : Nat := 20

/-- One namespace of a cluster. -/
structure Cluster where
  ns : String
  workloads : Store DeploymentConfig := {}
  pods : Store Pod := {}
  secrets : Store Secret := {}
  builds : Store Build := {}
  buildConfigs : Store BuildConfig := {}
  claims : Store Claim := {}
  /-- What is known of images, by namespace and stream tag. -/
  images : List ((String × String) × ImageMetadata) := []
  /-- How many of the next updates of workloads meet another writer. -/
  pendingConflicts : Nat := 0
  /-- How often an update of a workload was tried. -/
  updateAttempts : Nat := 0
  /-- Whether claims cannot be created. -/
  claimQuotaSpent : Bool := false
  /-- Whether claims stay although they are deleted. -/
  claimsHeld : Bool := false
  execCalls : List ExecCall := []
  execTroubles : List ExecTrouble := []
  deriving Inhabited

namespace Cluster

/-- The store of a kind. -/
def store (c : Cluster) : (k : Kind) → Store k.Object
  | .workload => c.workloads
  | .pod => c.pods
  | .secret => c.secrets
  | .build => c.builds
  | .claim => c.claims

/-- The cluster with another store of a kind. -/
def withStore (c : Cluster) : (k : Kind) → Store k.Object → Cluster
  | .workload, s => { c with workloads := s }
  | .pod, s => { c with pods := s }
  | .secret, s => { c with secrets := s }
  | .build, s => { c with builds := s }
  | .claim, s => { c with claims := s }

/-- Ends all watches. -/
def closeWatches (c : Cluster) : Cluster :=
  { c with
    workloads := c.workloads.closeWatches
    pods := c.pods.closeWatches
    secrets := c.secrets.closeWatches
    builds := c.builds.closeWatches
    claims := c.claims.closeWatches }

/-- How many watches can still be told something. -/
def activeWatches (c : Cluster) : Nat :=
  c.workloads.activeWatches + c.pods.activeWatches + c.secrets.activeWatches +
    c.builds.activeWatches + c.claims.activeWatches

/-- Writes a workload; a conflict that was arranged comes first. -/
def updateWorkload (c : Cluster) (d : DeploymentConfig) :
    Except ClusterFault DeploymentConfig × Cluster :=
  let c := { c with updateAttempts := c.updateAttempts + 1 }
  -- The other writer that was arranged gets there first, whatever the store holds.
  match c.pendingConflicts with
  | n + 1 => (.error (.conflict "DeploymentConfig" d.name), { c with pendingConflicts := n })
  | 0 =>
    match c.workloads.replace d with
    | .ok (d, s) => (.ok d, { c with workloads := s })
    | .error fault => (.error fault, c)

/-- The build of a number of a build config. -/
def newBuild (config : String) (version : Int) : Build where
  metadata := {
    name := some (config ++ "-" ++ toString version)
    labels := some (.ofList [("buildconfig", config), ("openshift.io/build-config.name", config)]) }
  status := some {}

/-- Starts a new build of a build config. -/
def instantiateBuild (c : Cluster) (config : String) : Except ClusterFault Build × Cluster :=
  match c.buildConfigs.modify config fun b =>
      { b with status := some { lastVersion := (b.status.getD {}).lastVersion + 1 } } with
  | .error fault => (.error fault, c)
  | .ok (b, s) =>
    let c := { c with buildConfigs := s }
    match c.builds.create (newBuild config (b.status.getD {}).lastVersion) with
    | .error fault => (.error fault, c)
    | .ok (build, s) => (.ok build, { c with builds := s })

/-- Creates a claim for storage of a size. -/
def createClaim (c : Cluster) (name size : String) (labels : TextMap) :
    Except ClusterFault Claim × Cluster :=
  if c.claimQuotaSpent then (.error (.exec ("quota exceeded creating claim " ++ name)), c)
  else
    let claim : Claim := {
      metadata := { name := some name, ns := some c.ns, labels := some labels }
      spec := some (.ofSize size) }
    match c.claims.create claim with
    | .error fault => (.error fault, c)
    | .ok (claim, s) => (.ok claim, { c with claims := s })

/-- Deletes a claim; one that is held stays. -/
def deleteClaim (c : Cluster) (name : String) : Except ClusterFault Unit × Cluster :=
  if c.claimsHeld then ((c.claims.get name).map fun _ => (), c)
  else match c.claims.remove name with
    | .error fault => (.error fault, c)
    | .ok (_, s) => (.ok (), { c with claims := s })

/-- What is known of an image. -/
def imageMetadata (c : Cluster) (ns tag : String) : Except ClusterFault ImageMetadata :=
  match c.images.lookup (ns, tag) with
  | some m => .ok m
  | none => .error (.notFound "ImageStreamTag" (ns ++ "/" ++ tag))

/-- The cluster with something known of an image. -/
def setImage (c : Cluster) (ns tag : String) (m : ImageMetadata) : Cluster :=
  { c with images := ((ns, tag), m) :: c.images }

/-- Starts a command in a pod. The trouble that was arranged first is the one that it meets. -/
def beginExec (c : Cluster) (pod : String) :
    Except ClusterFault (Option ExecTrouble) × Cluster :=
  if !c.pods.contains pod then (.error (.notFound "Pod" pod), c)
  else (.ok c.execTroubles.head?, { c with execTroubles := c.execTroubles.tail })

/-- Keeps a command that has ended. -/
def recordExec (c : Cluster) (call : ExecCall) : Cluster :=
  { c with execCalls := c.execCalls ++ [call] }

/-- The names of all builds, in their order. -/
def buildNames (c : Cluster) : List String :=
  (c.builds.list (.labels "")).filterMap (·.metadata.name)

end Cluster

end InnerLoop
