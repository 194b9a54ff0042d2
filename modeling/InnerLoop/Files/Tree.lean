import InnerLoop.Failure
import InnerLoop.SortedMap
import InnerLoop.Files.Path

/-!
# A tree of files

A file system holds, for every location below its root, a file, a directory, a symbolic link or a
socket. A path is looked up from the root or from the working directory, step by step; links on the
way are followed, and at most `maxLinks` of them.

- `FileTree`: the nodes by their locations, and the working directory.
- `FileTree.lstat`, `FileTree.stat`: the node that a path leads to, without and with following a
  link that the path ends in.
- `FileTree.below`: all that lies below a directory, in the order of a sorted walk.
- `FileTree.write`, `FileTree.makeDir`, `FileTree.delete`: changes of the tree.
-/

namespace InnerLoop

/-- A point in time. -/
structure Timestamp where
  secs : Int
  nanos : Nat := 0
  deriving DecidableEq, Inhabited, Repr

/-- What lies at a location. -/
inductive Node where
  | file (content : List UInt8) (mode : Nat) (modified : Timestamp)
  | dir (mode : Nat)
  | symlink (target : String) (modified : Timestamp)
  | socket (modified : Timestamp)
  deriving DecidableEq, Inhabited

/-- Whether a node is a directory. -/
def Node.isDir : Node → Bool
  | dir _ => true
  | _ => false

/-- The permissions of a directory that is made on the way. -/
def defaultDirMode : Nat := 0o755

/-- The names that lead from the root of the file system to a place in it. -/
abbrev Location := List String

/-- The files of a machine. -/
structure FileTree where
  /-- What lies below the root. -/
  nodes : SortedMap Location Node := {}
  /-- Where relative paths start. -/
  workDir : Location := []
  /-- How many changes were made. -/
  changes : Nat := 0
  deriving Inhabited

namespace FileTree

/-- What lies at a location; the root is a directory. -/
def node? (t : FileTree) (l : Location) : Option Node :=
  if l = [] then some (.dir defaultDirMode) else t.nodes.find? l

/-! ## Looking up -/

/-- How many links are followed for one path. -/
def maxLinks : Nat := 40

/-- How many bytes a name may have. -/
def maxName : Nat := 255

/-- How many bytes a path may have, less one. -/
def maxPath : Nat := 4096

/-- The segments that a path is looked up by. A slash at the end asks for a directory, as `.`
would. -/
def steps (p : Path) : List String := p.segments ++ if p.endsInSlash then ["."] else []

/-- Where looking up a path starts, if `here` is the current directory. -/
def start (here : Location) (p : Path) : Location := if p.isAbsolute then [] else here

/-- Goes on from the location `here` by some segments. A link on the way is left to `again`, with
where it leads from and all that is to do from there. -/
def advance (t : FileTree) (followLast : Bool)
    (again : Location → List String → Except FileFault (Location × Node)) (here : Location) :
    List String → Except FileFault (Location × Node)
  | [] =>
    match t.node? here with
    | some n => .ok (here, n)
    | none => .error .noEntry
  | s :: r =>
    match t.node? here with
    | none => .error .noEntry
    | some n =>
      if !n.isDir then .error .notDirectory
      else if s = "." then advance t followLast again here r
      else if s = ".." then advance t followLast again here.dropLast r
      else if maxName < s.utf8ByteSize then .error .nameTooLong
      else match t.node? (here ++ [s]) with
        | some (.symlink target modified) =>
          -- A link that is not the last step is followed in any case.
          if r = [] ∧ !followLast then .ok (here ++ [s], .symlink target modified)
          else again (start here ⟨target⟩) (steps ⟨target⟩ ++ r)
        | _ => advance t followLast again (here ++ [s]) r

/-- Goes on from a location by some segments, following at most `links` links. -/
def follow (t : FileTree) (followLast : Bool) :
    (links : Nat) → Location → List String → Except FileFault (Location × Node)
  | 0 => advance t followLast fun _ _ => .error .tooManyLinks
  | n + 1 => advance t followLast (follow t followLast n)

/-- Looks a path up. -/
def find (t : FileTree) (followLast : Bool) (p : Path) : Except FileFault (Location × Node) :=
  if '\x00' ∈ p.chars then .error .nulByte
  else if p.text = "" then .error .noEntry
  else if maxPath ≤ p.text.utf8ByteSize then .error .nameTooLong
  else follow t followLast maxLinks (start t.workDir p) (steps p)

/-- What a path leads to; a link that it ends in is not followed. -/
def lstat (t : FileTree) (p : Path) : Except FileFault (Location × Node) := t.find false p

/-- What a path leads to once every link is followed. -/
def stat (t : FileTree) (p : Path) : Except FileFault (Location × Node) := t.find true p

/-- Whether a path leads to anything. -/
def existsAt (t : FileTree) (p : Path) : Bool := (t.lstat p).toBool

/-- What lies below a location, by the names that lead on from there. Whatever lies in a directory
comes after it, and what lies in one directory in the order of its names. -/
def below (t : FileTree) (l : Location) : List (Location × Node) :=
  t.nodes.entries.filterMap fun e =>
    if l.isPrefixOf e.1 ∧ l ≠ e.1 then some (e.1.drop l.length, e.2) else none

/-! ## Changes -/

/-- The tree with `n` at a location. -/
def put (t : FileTree) (l : Location) (n : Node) : FileTree :=
  { t with nodes := t.nodes.insert l n, changes := t.changes + 1 }

/-- The tree without a location and what lies below it. -/
def deleteAt (t : FileTree) (l : Location) : FileTree :=
  { t with nodes := t.nodes.filter fun k _ => !l.isPrefixOf k, changes := t.changes + 1 }

/-- Makes the directories that some segments lead through, and says where they lead. -/
def makeDirs (t : FileTree) (here : Location) : List String → FileTree × Location
  | [] => (t, here)
  | s :: r =>
    if s = "." then makeDirs t here r
    else if s = ".." then makeDirs t here.dropLast r
    else match follow t true maxLinks here [s] with
      | .ok (l, _) => makeDirs t l r
      | .error _ => makeDirs (t.put (here ++ [s]) (.dir defaultDirMode)) (here ++ [s]) r

/-- Makes the directories above a path; answers the location of the path. -/
def makeParents (t : FileTree) (p : Path) : FileTree × Location :=
  let steps := p.segments
  let (t, l) := t.makeDirs (start t.workDir p) steps.dropLast
  match steps.getLast? with
  | some name => (t, l ++ [name])
  | none => (t, l)

/-- Where a file that is written to a location ends up: at the end of the links that lead on from
there, at most `links` of them, whether anything is there yet or not. -/
def landing (t : FileTree) : (links : Nat) → Location → Location
  | 0, l => l
  | n + 1, l =>
    match t.node? l with
    | some (.symlink target _) =>
      let p : Path := ⟨target⟩
      match p.segments.getLast?, follow t true maxLinks (start l.dropLast p) p.segments.dropLast with
      | some name, .ok (dir, _) => landing t n (dir ++ [name])
      | _, _ => l
    | _ => l

/-- Puts a node where a path leads, making the directories above it. A file is put where the links
there lead. -/
def write (t : FileTree) (p : Path) (n : Node) : FileTree :=
  let (t, l) := t.makeParents p
  match n with
  | .file .. => t.put (t.landing maxLinks l) n
  | _ => t.put l n

/-- Makes a directory where a path leads, or sets the mode of the one that is there. -/
def makeDir (t : FileTree) (p : Path) (mode : Nat) : FileTree :=
  let (t, l) := t.makeDirs (start t.workDir p) p.segments
  t.put l (.dir mode)

/-- Deletes what a path leads to, without following a link there. -/
def delete (t : FileTree) (p : Path) : FileTree :=
  match t.lstat p with
  | .ok (l, _) => t.deleteAt l
  | .error _ => t

end FileTree

end InnerLoop
