import InnerLoop.Api.Answer
import InnerLoop.Api.Target
import InnerLoop.Cluster.Basic

/-!
# Calls to an API server

A call is one request and a way to read its answer. It is data: who sends the request, and what
answers it, is left open here.

- `HttpRequest`: a request.
- `Collection`: the place where a server keeps the objects of a kind.
- `Call`: a request, or why there is none, and the reading of its answer.
- `getObject`, `updateWorkload`, `listPods`, `createClaim`, `deleteClaim`, `instantiateBuild`,
  `imageMetadata`: the calls of a client.
-/

namespace InnerLoop.Api

open Json

/-! ## Requests -/

/-- What a request does to its target. -/
inductive Method where
  | get | post | put | delete
  deriving DecidableEq, Inhabited, Repr

/-- The written form of a method. -/
def Method.render : Method → String
  | .get => "GET"
  | .post => "POST"
  | .put => "PUT"
  | .delete => "DELETE"

/-- A request to a server. -/
structure HttpRequest where
  method : Method
  target : Target
  body : Option Json := none
  deriving Inhabited

/-- Where a server keeps the objects of a kind. -/
structure Collection where
  /-- The API version of the kind, with its group in front unless it is a core kind. -/
  apiVersion : String
  /-- The name of the kind's collections. -/
  plural : String
  deriving DecidableEq, Inhabited, Repr

/-- The path of a collection in a namespace. -/
def Collection.path (c : Collection) (ns : String) : String :=
  (if '/' ∈ c.apiVersion.toList then "/apis/" else "/api/") ++ c.apiVersion ++
    "/namespaces/" ++ ns ++ "/" ++ c.plural

/-- The collection of a kind that can be watched. -/
def collectionOf (k : Kind) : Collection where
  apiVersion := Resource.apiVersion k.Object
  plural := match k with
    | .workload => "deploymentconfigs"
    | .pod => "pods"
    | .secret => "secrets"
    | .build => "builds"
    | .claim => "persistentvolumeclaims"

/-- The collection of build configs. -/
def buildConfigCollection : Collection where
  apiVersion := Resource.apiVersion BuildConfig
  plural := "buildconfigs"

/-- The collection of image stream tags. -/
def streamTagCollection : Collection := ⟨"image.openshift.io/v1", "imagestreamtags"⟩

/-- The query that picks the objects of a selector. -/
def selectorQuery : Selector → Query
  | s@(.name _) => [("fieldSelector", s.render)]
  | s@(.labels _) => [("labelSelector", s.render)]

/-- A request whose target is given as text. -/
def requestTo (method : Method) (target : List Char) (body : Option Json := none) :
    Except ApiFault HttpRequest :=
  match Target.parse? target with
  | some target => .ok { method, target, body }
  | none => .error .badTarget

/-- A request to a whole collection. -/
def toCollection (method : Method) (c : Collection) (ns : String) (query : Query)
    (body : Option Json := none) : Except ApiFault HttpRequest :=
  requestTo method (Target.write (c.path ns) query) body

/-- A request to an object of a collection, or to a part of it. -/
def toObject (method : Method) (c : Collection) (ns name : String) (query : Query)
    (body : Option Json := none) (part : String := "") : Except ApiFault HttpRequest :=
  if name = "" then .error .noName
  else requestTo method (Target.write (c.path ns ++ "/" ++ name ++ part) query) body

/-! ## Calls -/

/-- A request, and what its answer means. -/
structure Call (α : Type) where
  /-- The request, or why it cannot be made. -/
  request : Except ApiFault HttpRequest
  /-- The result that an answer gives. -/
  read : Answer → Except ApiFault α
  /-- What a fault means to the caller. -/
  explain : ApiFault → ClusterFault

/-- Reads an object of a name. -/
def getObject (k : Kind) (ns name : String) : Call k.Object where
  request :=
    if name = "" then .error .noName
    else requestTo .get (((collectionOf k).path ns ++ "/" ++ name).toList)
  read := Answer.read k.decode
  explain := ApiFault.forObject (Resource.kind k.Object) name

/-- Replaces a workload. -/
def updateWorkload (ns : String) (d : DeploymentConfig) : Call DeploymentConfig where
  request := toObject .put (collectionOf .workload) ns d.name [] (some d.encode)
  read := Answer.read DeploymentConfig.decode
  explain := ApiFault.forObject "DeploymentConfig" d.name

/-- Reads the objects in a list; null stands for none. -/
def decodeItems {α : Type} (item : Decoder α) : Decoder (List α)
  | .null => some []
  | w => asList item w

/-- What a list says about itself. -/
structure ListMeta where
  /-- Where the next part of the list goes on. -/
  resume : Option String := none
  resourceVersion : Option String := none
  deriving DecidableEq, Inhabited, Repr

/-- Reads what a list says about itself. -/
def ListMeta.decode : Decoder ListMeta := fun v => do
  let ms ← object? v
  let resume ← optional asText ms "continue"
  let resourceVersion ← optional asText ms "resourceVersion"
  let _ ← optional asInt64 ms "remainingItemCount"
  let _ ← optional asText ms "selfLink"
  some { resume, resourceVersion }

/-- A part of a list of objects. -/
structure ObjectList (α : Type) where
  metadata : ListMeta := {}
  items : List α
  deriving Inhabited

/-- Reads a part of a list of objects. -/
def ObjectList.decode {α : Type} (item : Decoder α) : Decoder (ObjectList α) := fun v => do
  let (ms, _) ← open? ["metadata", "items"] v
  let metadata ← present ListMeta.decode ms "metadata" {}
  let items ← required (decodeItems item) ms "items"
  some { metadata, items }

/-- Lists the pods of a selector. -/
def listPods (ns : String) (s : Selector) : Call (List Pod) where
  request := toCollection .get (collectionOf .pod) ns (selectorQuery s)
  read a := (a.read (ObjectList.decode Pod.decode)).map (·.items)
  explain := ApiFault.toCluster

/-- Starts a new build of a build config. -/
def instantiateBuild (ns config : String) : Call Build where
  request :=
    let body : Json := .record [
      ("kind", .text "BuildRequest"), ("apiVersion", .text buildConfigCollection.apiVersion),
      ("metadata", .record [("name", .text config)])]
    toObject .post buildConfigCollection ns config [] (some body) "/instantiate"
  read := Answer.read Build.decode
  explain := ApiFault.forObject "BuildConfig" config

/-- The claim that is created under a name, for storage of a size. -/
def newClaim (name size : String) (labels : TextMap) : Claim where
  metadata := { name := some name, labels := some labels }
  spec := some (.ofSize size)

/-- Creates a claim for storage of a size. -/
def createClaim (ns name size : String) (labels : TextMap) : Call Claim where
  request := toCollection .post (collectionOf .claim) ns [] (some (newClaim name size labels).encode)
  read := Answer.read Claim.decode
  explain := ApiFault.forObject "PersistentVolumeClaim" name

/-- The two words for how a request went. -/
def outcome? : String → Option Unit
  | "Success" => some ()
  | "Failure" => some ()
  | _ => none

/-- Reads why a request failed. -/
def decodeCause : Decoder Unit := fun v => do
  let ms ← shaped ["reason", "message", "field"] 0 v
  let _ ← present asText ms "reason" ""
  let _ ← present asText ms "message" ""
  let _ ← present asText ms "field" ""
  some ()

/-- Reads what a request was about, and why it failed. -/
def decodeDetails : Decoder Unit := fun v => do
  let ms ← shaped ["name", "group", "kind", "uid", "causes", "retryAfterSeconds"] 0 v
  let _ ← present asText ms "name" ""
  let _ ← present asText ms "group" ""
  let _ ← present asText ms "kind" ""
  let _ ← present asText ms "uid" ""
  let _ ← present (asList decodeCause) ms "causes" []
  let _ ← present (asIntBetween 0 (Int.pow 2 32 - 1)) ms "retryAfterSeconds" 0
  some ()

/-- Reads a word about how a request went. -/
def decodeOutcome : Decoder Unit := fun v => do
  let ms ← shaped ["status", "code", "message", "reason", "details"] 0 v
  let _ ← optional (asWord outcome? ()) ms "status"
  let _ ← present (asIntBetween 0 65535) ms "code" 0
  let _ ← present asText ms "message" ""
  let _ ← present asText ms "reason" ""
  let _ ← optional decodeDetails ms "details"
  some ()

/-- Reads the answer to a deletion: a word about it, or the object that is to go. All of the answer
has to stand for something, since its kind is asked for first. -/
def decodeDeletion : Decoder Unit := fun v => do
  let body ← asJson v
  match body.get "kind" with
  | .text "Status" => decodeOutcome v
  | _ => (Claim.decode v).map fun _ => ()

/-- Deletes a claim. -/
def deleteClaim (ns name : String) : Call Unit where
  request := toObject .delete (collectionOf .claim) ns name [] (some (.record []))
  read := Answer.read decodeDeletion
  explain := ApiFault.forObject "PersistentVolumeClaim" name

/-- Reads what is known of an image from an image stream tag. -/
def decodeStreamTag : Decoder ImageMetadata := fun v => do
  let (ms, more) ← open? ["metadata"] v
  let _ ← present ObjectMeta.decode ms "metadata" {}
  some (.ofStreamTag (.record more))

/-- Reads what is known of an image. -/
def imageMetadata (ns tag : String) : Call ImageMetadata where
  request :=
    if tag = "" then .error .noName
    else requestTo .get ((streamTagCollection.path ns ++ "/" ++ tag).toList)
  read := Answer.read decodeStreamTag
  explain := ApiFault.forObject "ImageStreamTag" tag

end InnerLoop.Api
