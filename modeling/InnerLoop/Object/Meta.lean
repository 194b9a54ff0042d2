import InnerLoop.Json.Decode

/-!
# Object metadata

What every stored object carries: its name, labels, annotations and the version that the store
gave it.

- `ObjectMeta`: the metadata, read from and written to JSON.
- `Resource`: the objects that have metadata and belong to a named kind.
- `Resource.nameOf`: the name an object is filed under.
-/

namespace InnerLoop

/-- The metadata of an object. -/
structure ObjectMeta where
  name : Option String := none
  ns : Option String := none
  labels : Option TextMap := none
  annotations : Option TextMap := none
  resourceVersion : Option String := none
  uid : Option String := none
  generation : Option Int := none
  generateName : Option String := none
  deriving DecidableEq, Inhabited

namespace ObjectMeta

open Json in
/-- Reads metadata. -/
def decode : Decoder ObjectMeta := fun v => do
  let ms ← object? v
  let name ← optional asText ms "name"
  let ns ← optional asText ms "namespace"
  let labels ← optional asTextMap ms "labels"
  let annotations ← optional asTextMap ms "annotations"
  let resourceVersion ← optional asText ms "resourceVersion"
  let uid ← optional asText ms "uid"
  let generation ← optional asInt64 ms "generation"
  let generateName ← optional asText ms "generateName"
  some {
    name, ns, labels, annotations, resourceVersion, uid, generation, generateName }

open Json in
/-- Writes metadata. -/
def encode (m : ObjectMeta) : Json :=
  objectOf [
    ifSome "name" .text m.name,
    ifSome "namespace" .text m.ns,
    ifSome "labels" ofTextMap m.labels,
    ifSome "annotations" ofTextMap m.annotations,
    ifSome "resourceVersion" .text m.resourceVersion,
    ifSome "uid" .text m.uid,
    ifSome "generation" ofInt m.generation,
    ifSome "generateName" .text m.generateName]

end ObjectMeta

/-- An object of a kind that the cluster stores. -/
class Resource (κ : Type) where
  /-- The name of the kind. -/
  kind : String
  /-- The API version that objects of the kind are written with. -/
  apiVersion : String
  /-- An object's metadata. -/
  metadata : κ → ObjectMeta
  /-- The object with other metadata. -/
  withMetadata : ObjectMeta → κ → κ

namespace Resource

variable {κ : Type} [Resource κ]

/-- The name under which an object is filed: its own, else the one it asks names to be generated
from. -/
def nameOf (o : κ) : String :=
  let m := metadata o
  (m.name.or m.generateName).getD ""

/-- The labels of an object. -/
def labelsOf (o : κ) : TextMap := (metadata o).labels.getD .empty

/-- The annotations of an object. -/
def annotationsOf (o : κ) : TextMap := (metadata o).annotations.getD .empty

/-- The version that the store gave an object. -/
def versionOf (o : κ) : Option String := (metadata o).resourceVersion

/-- The object with a store version. -/
def withVersion (version : String) (o : κ) : κ :=
  withMetadata { metadata o with resourceVersion := some version } o

end Resource

/-- The members that name the kind of a written object. -/
def Resource.header (κ : Type) [Resource κ] : List (Option (String × Json)) := [
  Json.always "apiVersion" (.text (Resource.apiVersion κ)),
  Json.always "kind" (.text (Resource.kind κ))]

end InnerLoop
