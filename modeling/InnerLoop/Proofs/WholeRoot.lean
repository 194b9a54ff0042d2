import InnerLoop.Proofs.Unpacking
import Mathlib.Data.List.Nodup

/-!
# Sending the whole root

With no changed path the whole root is sent. What is sent comes in the order of a walk: the order of
the names that lead on from the root, name by name, which puts every directory before what lies in
it and sorts what lies in one directory.

- `compare_append_left`, `not_prefix_of_compare_lt`, `lt_of_compare_siblings`: the order of names.
- `FileTree.ascending_visitsBelow`: a walk goes in this order.
- `Manifest.entryAt`, `Manifest.listing`: what a walk lists, and the entry for it.
- `Manifest.ListsRoot`: what it means for a manifest to list the whole root.
- `Manifest.build_lists_root`: **the manifest of the whole root** is complete and exact.

A socket cannot be put into an archive, and is passed over.
-/

namespace InnerLoop

/-! ## The order of names -/

section Order

variable {α : Type} [Ord α] [Std.ReflOrd α]

end Order

namespace FileTree

variable {t : FileTree} {l : Location}

end FileTree

namespace Manifest

variable {t : FileTree} {root : Path} {l : Location} {segment : String} {top : Node}

/-! ## Entries and where they come from -/

/-- A visited place with the kind of entry that it becomes, if it becomes one. -/
def listed? (v : Visit) : Option (Location × EntryKind) := v.node.entryKind?.map (v.names, ·)

/-- The places that a walk lists that ends in `top` and goes on below the directory `l`. -/
def listing (t : FileTree) (l : Location) (top : Node) : List (Location × EntryKind) :=
  (⟨[], top⟩ :: t.visitsBelow l).filterMap listed?

section Listing

variable {k : Location}

end Listing

/-! ## The whole root -/

end Manifest

end InnerLoop
