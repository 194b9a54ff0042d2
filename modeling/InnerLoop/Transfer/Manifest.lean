import InnerLoop.Files.Walk

/-!
# What is transferred

A manifest lists what one transfer sends: where each entry is read from, its name in the archive
and its kind. A single changed file is sent by itself, under its base name. Otherwise the whole
local root is sent, every name starting with the segment of the root, which the unpacking command
drops again.

- `Manifest.build`: the manifest for some changed paths.
- `Manifest.resolve`: the path that a changed path means.
- `Manifest.unpackCommand`: the remote command that unpacks the archive.
-/

namespace InnerLoop

/-- How an archive maps onto its target directory. -/
inductive TransferMode where
  /-- One file, under its base name. -/
  | singleFile
  /-- The whole local root, under its own segment. -/
  | subtree
  deriving DecidableEq, Inhabited, Repr

/-- What an entry is. -/
inductive EntryKind where
  | file
  | dir
  /-- A link, sent as a link. -/
  | symlink
  deriving DecidableEq, Inhabited, Repr

/-- One entry of a manifest. -/
structure ManifestEntry where
  /-- Where the entry is read from. -/
  source : Path
  /-- The name in the archive. -/
  name : String
  kind : EntryKind
  deriving DecidableEq, Inhabited, Repr

/-- What one transfer sends. -/
structure Manifest where
  mode : TransferMode
  entries : List ManifestEntry
  deriving DecidableEq, Inhabited, Repr

/-- The kind of entry that a node becomes; a socket becomes none. -/
def Node.entryKind? : Node → Option EntryKind
  | .file .. => some .file
  | .dir _ => some .dir
  | .symlink .. => some .symlink
  | .socket _ => none

namespace Manifest

/-- What a failure to read `p` is. -/
def unreadable {α : Type} (p : Path) (r : Except FileFault α) : Except Failure α :=
  r.mapError (.malformed p.text)

/-- The first segment of every name: the base name of the root, looked up if the root does not show
it. -/
def rootSegment (t : FileTree) (root : Path) : Except Failure String :=
  match root.fileName with
  | some name => .ok name
  | none => do
    let (l, _) ← unreadable root (t.stat root)
    return l.getLast?.getD "root"

/-- The path that a changed path means: one below the root, unless it names nothing there and is
itself the path of something below a relative root. -/
def resolve (t : FileTree) (root p : Path) : Path :=
  if p.isAbsolute then p
  else
    let joined := root.join p
    -- A path that starts with the root already only counts where the joined one names nothing.
    if t.existsAt joined ∨ root.isAbsolute then joined
    else if root.moves ≠ [] ∧ root.moves.isPrefixOf p.moves ∧ t.existsAt p then p
    else joined

/-- The manifest of one file or link. -/
def singleFile (t : FileTree) (p : Path) : Except Failure Manifest := do
  let (_, n) ← unreadable p (t.lstat p)
  match n.entryKind? with
  | none => throw (.malformed p.text .notArchivable)
  | some kind =>
    match p.fileName with
    | none => throw (.malformed p.text .noFileName)
    | some name => return { mode := .singleFile, entries := [⟨p, withSlashes name, kind⟩] }

/-- The name of a visited node in the archive. -/
def visitName (segment : String) (v : Visit) : String :=
  if v.names = [] then segment else segment ++ "/" ++ (Path.ofNames v.names).entryName

/-- The entry for a visited node, if it becomes one. -/
def entryOf? (root : Path) (segment : String) (v : Visit) : Option ManifestEntry :=
  v.node.entryKind?.map fun kind => ⟨v.path root, visitName segment v, kind⟩

/-- The manifest of the whole root. -/
def wholeRoot (t : FileTree) (root : Path) : Except Failure Manifest := do
  let segment ← rootSegment t root
  let visits ← unreadable root (t.walk root)
  return { mode := .subtree, entries := visits.filterMap (entryOf? root segment) }

/-- Whether a path leads to something that is no directory. -/
def isLeaf (t : FileTree) (p : Path) : Bool :=
  match t.lstat p with
  | .ok (_, n) => !n.isDir
  | .error _ => false

/-- The manifest for some changed paths. One path that leads to a file or a link is sent by itself.
Otherwise the whole root is sent, or nothing if all of the paths have disappeared. -/
def build (t : FileTree) (root : Path) (changed : List Path) : Except Failure Manifest :=
  let resolved := changed.map (resolve t root)
  let other : Except Failure Manifest :=
    if resolved ≠ [] ∧ !resolved.any t.existsAt then .ok { mode := .subtree, entries := [] }
    else wholeRoot t root
  match resolved with
  | [p] => if isLeaf t p then singleFile t p else other
  | _ => other

/-- The remote command that unpacks the archive into a directory. -/
def unpackCommand (m : Manifest) (target : String) : List String :=
  ["tar", "xf", "-", "-C", target] ++ if m.mode = .subtree then ["--strip", "1"] else []

/-- Whether nothing is sent. -/
def isEmpty (m : Manifest) : Bool := m.entries.isEmpty

end Manifest

end InnerLoop
