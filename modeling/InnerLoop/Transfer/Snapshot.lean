import InnerLoop.Files.Walk

/-!
# Snapshots of a directory

A snapshot holds the time of the last change of everything below a directory that is no directory
itself, leaving out what lies at or below one of the ignored names.

- `Snapshot.scan`: the snapshot of a directory as it is.
- `Snapshot.changesSince`: the paths by which two snapshots differ.
-/

namespace InnerLoop

/-- The times of the last changes, by the names that lead to what changed. -/
structure Snapshot where
  times : SortedMap Location Timestamp := {}
  deriving DecidableEq, Inhabited

namespace Snapshot

/-- The names of what is left out, with all that lies below. -/
def ignoredNames : List String := [".git", ".devloop"]

/-- Whether a location is left out. -/
def isIgnored (names : Location) : Bool := names.any (· ∈ ignoredNames)

/-- When a node that is no directory last changed. -/
def modified? : Node → Option Timestamp
  | .file _ _ modified => some modified
  | .symlink _ modified => some modified
  | .socket modified => some modified
  | .dir _ => none

/-- The snapshot of what a walk visits. -/
def ofVisits (visits : List Visit) : Snapshot :=
  ⟨.ofList (visits.filterMap fun v =>
    if isIgnored v.names then none else (modified? v.node).map (v.names, ·))⟩

/-- The snapshot of `root`; if there is nothing, an empty one. -/
def scan (t : FileTree) (root : Path) : Except FileFault Snapshot :=
  match t.walk root with
  | .ok visits => .ok (ofVisits visits)
  | .error .noEntry => .ok {}
  | .error fault => .error (.walking root.text fault)

/-- What is in only one of two snapshots, or changed between them, in the order of the names. -/
def changesSince (current previous : Snapshot) : List Location :=
  let changed := current.times.filter fun l t => previous.times.find? l ≠ some t
  let removed := previous.times.filter fun l _ => !current.times.contains l
  (changed.union removed).keys

/-- A path has changed if the snapshots do not agree on it. -/
theorem mem_changesSince_iff {current previous : Snapshot} {l : Location} :
    l ∈ current.changesSince previous ↔ current.times.find? l ≠ previous.times.find? l := by
  rw [changesSince, SortedMap.mem_keys_iff, SortedMap.find?_union, SortedMap.find?_filter,
    SortedMap.find?_filter, SortedMap.contains]
  cases hc : current.times.find? l with
  | none => cases hp : previous.times.find? l <;> simp
  | some time =>
    cases hp : previous.times.find? l with
    | none => simp
    | some old =>
      by_cases heq : old = time
      · simp [Option.filter_some, heq]
      · simp [Option.filter_some, heq, Ne.symm heq]

/-- How many files a snapshot holds. -/
def size (s : Snapshot) : Nat := s.times.size

end Snapshot

end InnerLoop
