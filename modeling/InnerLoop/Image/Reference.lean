import InnerLoop.Failure

/-!
# Image references

`[namespace/]name[:tag|@digest]`, the way an image is named on the command line and in a container.

- `ImageReference.parse`: reads a reference; without tag and digest the tag is `latest`.
- `ImageReference.render`: writes it.
- `ImageReference.streamTag`: the name and tag by which its stream is looked up.
-/

namespace InnerLoop

/-- The parts of a reference to an image. -/
structure ImageReference where
  ns : Option String
  name : String
  tag : Option String
  digest : Option String
  deriving DecidableEq, Inhabited, Repr

namespace ImageReference

/-- What follows the path: a digest after the first `@`, else a tag after the first `:`, else the
tag `latest`. A digest holds no further `@`, a tag no further `:`, and neither is empty. -/
def splitVersion (cs : List Char) : Option (List Char × Option (List Char) × Option (List Char)) :=
  match Text.splitFirst '@' cs with
  | some (path, digest) =>
    if digest = [] ∨ '@' ∈ digest then none else some (path, none, some digest)
  | none =>
    match Text.splitFirst ':' cs with
    | some (path, tag) => if tag = [] ∨ ':' ∈ tag then none else some (path, some tag, none)
    | none => some (cs, some "latest".toList, none)

/-- The namespace before the first `/` of a path, and the name after it. Neither is empty, and the
name holds no further `/`. -/
def splitPath (cs : List Char) : Option (Option (List Char) × List Char) :=
  let (ns, name) := match Text.splitFirst '/' cs with
    | some (ns, name) => (some ns, name)
    | none => (none, cs)
  if name = [] ∨ '/' ∈ name ∨ ns = some [] then none else some (ns, name)

/-- Reads a reference. -/
def parse (image : String) : Except Failure ImageReference :=
  match splitVersion image.toList with
  | none => .error (.invalid (.imageReference image))
  | some (path, tag, digest) =>
    match splitPath path with
    | none => .error (.invalid (.imageReference image))
    | some (ns, name) => .ok {
        ns := ns.map String.ofList
        name := String.ofList name
        tag := tag.map String.ofList
        digest := digest.map String.ofList }

/-- The name with its digest, or else its tag. -/
def streamTag (r : ImageReference) : String :=
  match r.tag, r.digest with
  | _, some digest => r.name ++ "@" ++ digest
  | some tag, none => r.name ++ ":" ++ tag
  | none, none => r.name ++ ":latest"

/-- The reference as it stands in a container. -/
def render (r : ImageReference) : String :=
  match r.ns with
  | some ns => ns ++ "/" ++ r.streamTag
  | none => r.streamTag

end ImageReference

end InnerLoop
