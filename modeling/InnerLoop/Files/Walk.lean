import InnerLoop.Files.Tree

/-!
# Walking a directory

A walk visits a path and, if it leads to a directory, all that lies below it; links below it are
visited and not followed. A link that the walk starts at is visited as a link, but the directory
behind it is walked.

- `FileTree.walk`: the visits, each directory before its contents and siblings by their names.
- `Visit.path`: the path by which a visited node is reached.
-/

namespace InnerLoop

/-- One node met on a walk. -/
structure Visit where
  /-- The names that lead to it from where the walk started. -/
  names : Location
  node : Node
  deriving DecidableEq, Inhabited

/-- The path of a visited node, if the walk started at `root`. -/
def Visit.path (root : Path) (v : Visit) : Path := root.extend v.names

namespace FileTree

/-- The visits below a location. -/
def visitsBelow (t : FileTree) (l : Location) : List Visit :=
  (t.below l).map fun e => ⟨e.1, e.2⟩

/-- Walks the path `root`. It fails only if there is nothing to start at. -/
def walk (t : FileTree) (root : Path) : Except FileFault (List Visit) := do
  let (l, n) ← t.lstat root
  match n with
  | .dir _ => return ⟨[], n⟩ :: t.visitsBelow l
  | .symlink .. =>
    let (target, m) ← t.stat root
    if m.isDir then return ⟨[], n⟩ :: t.visitsBelow target
    else return [⟨[], n⟩]
  | _ => return [⟨[], n⟩]

end FileTree

end InnerLoop
