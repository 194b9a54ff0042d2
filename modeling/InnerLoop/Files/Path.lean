import InnerLoop.Text.Split

/-!
# Local paths

A path is kept as it was given, and read as a sequence of components: empty segments do not count,
nor does `.` anywhere but at the start of a relative path.

- `Path.components`: the components of a path.
- `Path.join`, `Path.extend`: a path below another one.
- `Path.fileName`: the last component, if it is a name.
- `Path.entryName`: the names in a path, with `/` between them and for every backslash.
-/

namespace InnerLoop

/-- A path of the local file system. -/
structure Path where
  /-- The path as it is written. -/
  text : String
  deriving DecidableEq, Inhabited, Repr

/-- One step of a path. -/
inductive Component where
  /-- The root of the file system. -/
  | root
  /-- The directory itself. -/
  | current
  /-- The directory above. -/
  | parent
  | normal (name : String)
  deriving DecidableEq, Inhabited, Repr

namespace Component

/-- The component that a segment between slashes stands for. -/
def ofSegment (s : String) : Component :=
  if s = "." then current else if s = ".." then parent else normal s

/-- The name of a component that has one. -/
def name? : Component → Option String
  | normal n => some n
  | _ => none

end Component

/-- The text with `/` for every backslash. -/
def withSlashes (s : String) : String :=
  String.ofList (s.toList.map fun c => if c = '\\' then '/' else c)

namespace Path

/-- The characters of a path. -/
def chars (p : Path) : List Char := p.text.toList

/-- Whether a path starts at the root of the file system. -/
def isAbsolute (p : Path) : Bool := p.chars.head? = some '/'

/-- Whether a path ends in a slash. -/
def endsInSlash (p : Path) : Bool := p.chars.getLast? = some '/'

/-- What stands between the slashes of a path, where there is anything. -/
def segments (p : Path) : List String :=
  ((Text.splitAll '/' p.chars).filter fun s => !s.isEmpty).map String.ofList

/-- The components of the segments that follow a first one. -/
def later (segments : List String) : List Component :=
  (segments.filter (· ≠ ".")).map Component.ofSegment

/-- The components of a path. -/
def components (p : Path) : List Component :=
  if p.isAbsolute then .root :: later p.segments
  else match p.segments with
    | [] => []
    | s :: r => .ofSegment s :: later r

/-- The name that a path ends in. -/
def fileName (p : Path) : Option String := p.components.getLast?.bind Component.name?

/-- The path `p`, taken from the directory `base` if it is relative. -/
def join (base p : Path) : Path :=
  if p.isAbsolute then p
  else if base.text = "" ∨ base.endsInSlash then ⟨base.text ++ p.text⟩
  else ⟨base.text ++ "/" ++ p.text⟩

/-- The path that leads on from `base` by the names of `names`. -/
def extend (base : Path) (names : List String) : Path :=
  names.foldl (fun p n => p.join ⟨n⟩) base

/-- The relative path of some names. -/
def ofNames (names : List String) : Path := ⟨Text.join "/" names⟩

/-- The components without those that stay where they are. -/
def moves (p : Path) : List Component := p.components.filter (· ≠ .current)

/-- The names in a path as an archive spells them. -/
def entryName (p : Path) : String :=
  Text.join "/" ((p.components.filterMap Component.name?).map withSlashes)

end Path

end InnerLoop
