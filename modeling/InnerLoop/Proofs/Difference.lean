import Mathlib.Data.List.Perm.Basic
import InnerLoop.Transfer.Snapshot

/-!
# What two snapshots differ by

Two snapshots are compared in two passes, one over the later one for what is new or has another
time, and one over the earlier one for what is gone. Sorted, this is all that they do not agree on.
So the difference is the same from either side, and since snapshots that agree with a third one
agree with each other, a comparison step by step misses nothing.

- `eq_of_ascending`: an ascending list is known by its members.
- `Snapshot.changedOrNew`, `Snapshot.gone`: the two passes.
- `Snapshot.changesSince_eq_mergeSort`: what they find, sorted, is the difference.
- `Snapshot.changesSince_exact`: **the laws of the difference**.
-/

namespace InnerLoop

section Ascending

variable {κ : Type} [Ord κ] {l m : List κ}

theorem nodup_of_ascending [Std.ReflOrd κ] (h : l.Pairwise fun a b => compare a b = .lt) :
    l.Nodup := by
  refine h.imp fun hlt heq => ?_
  rw [heq, Std.compare_self] at hlt
  cases hlt

variable [Std.TransOrd κ]

/-- An ascending list is known by its members. -/
theorem eq_of_ascending (hl : l.Pairwise fun a b => compare a b = .lt)
    (hm : m.Pairwise fun a b => compare a b = .lt) (h : ∀ k, k ∈ l ↔ k ∈ m) : l = m := by
  have hperm : l.Perm m :=
    (List.perm_ext_iff_of_nodup (nodup_of_ascending hl) (nodup_of_ascending hm)).mpr h
  refine hperm.eq_of_pairwise (fun a b _ _ hab hba => ?_) hl hm
  exact absurd hba (Std.OrientedCmp.not_lt_of_lt hab)

/-- Different items in ascending order stand in strictly ascending order. -/
theorem ascending_mergeSort [Std.LawfulEqOrd κ] (h : l.Nodup) :
    (l.mergeSort fun a b => (compare a b).isLE).Pairwise fun a b => compare a b = .lt := by
  have hsorted : (l.mergeSort fun a b => (compare a b).isLE).Pairwise
      fun a b => (compare a b).isLE = true := by
    refine List.pairwise_mergeSort (fun a b c => Std.TransCmp.isLE_trans) (fun a b => ?_) l
    rw [Std.OrientedOrd.eq_swap (a := b) (b := a)]
    cases compare a b <;> rfl
  have hnodup : (l.mergeSort fun a b => (compare a b).isLE).Nodup :=
    (List.mergeSort_perm l _).nodup_iff.mpr h
  refine (hsorted.and hnodup).imp fun {a b} ⟨hle, hne⟩ => ?_
  cases hab : compare a b with
  | lt => rfl
  | eq => exact absurd (Std.LawfulEqOrd.eq_of_compare hab) hne
  | gt =>
    rw [hab] at hle
    cases hle

end Ascending

namespace SortedMap

variable {κ α : Type} [Ord κ]

theorem ascending_keys (m : SortedMap κ α) : m.keys.Pairwise fun a b => compare a b = .lt :=
  List.pairwise_map.mpr m.ascending

end SortedMap

namespace Snapshot

variable {a b c current previous : Snapshot} {l : Location}

/-! ## Two passes -/

/-- What is in the later snapshot and not, or with another time, in the earlier one. -/
def changedOrNew (current previous : Snapshot) : List Location :=
  (current.times.entries.filter fun e => previous.times.find? e.1 ≠ some e.2).map (·.1)

/-- What is in the earlier snapshot and not in the later one. -/
def gone (current previous : Snapshot) : List Location :=
  previous.times.keys.filter fun l => !current.times.contains l

theorem mem_changedOrNew_iff : l ∈ changedOrNew current previous ↔
    ∃ time, current.times.find? l = some time ∧ previous.times.find? l ≠ some time := by
  simp [changedOrNew, SortedMap.find?_eq_some_iff]

theorem mem_gone_iff : l ∈ gone current previous ↔
    current.times.find? l = none ∧ ∃ time, previous.times.find? l = some time := by
  simp [gone, SortedMap.mem_keys_iff, SortedMap.contains, and_comm]

/-- No path is found twice. -/
theorem nodup_passes (current previous : Snapshot) :
    (changedOrNew current previous ++ gone current previous).Nodup := by
  have hchanged : (changedOrNew current previous).Nodup :=
    (nodup_of_ascending current.times.ascending_keys).sublist (List.filter_sublist.map _)
  have hgone : (gone current previous).Nodup :=
    (nodup_of_ascending previous.times.ascending_keys).filter _
  refine List.nodup_append.mpr ⟨hchanged, hgone, ?_⟩
  rintro l hl _ hl' rfl
  obtain ⟨time, hfound, -⟩ := mem_changedOrNew_iff.mp hl
  obtain ⟨hnone, -⟩ := mem_gone_iff.mp hl'
  cases hfound.symm.trans hnone

theorem ascending_changesSince (current previous : Snapshot) :
    (current.changesSince previous).Pairwise fun l m => compare l m = .lt :=
  SortedMap.ascending_keys _

/-- The difference is what the two passes find, sorted. -/
theorem changesSince_eq_mergeSort (current previous : Snapshot) :
    current.changesSince previous =
      (changedOrNew current previous ++ gone current previous).mergeSort
        fun l m => (compare l m).isLE := by
  refine eq_of_ascending (ascending_changesSince current previous)
    (ascending_mergeSort (nodup_passes current previous)) fun l => ?_
  rw [mem_changesSince_iff, List.mem_mergeSort, List.mem_append, mem_changedOrNew_iff,
    mem_gone_iff]
  cases hc : current.times.find? l with
  | none => cases hp : previous.times.find? l <;> simp
  | some time => simp [eq_comm]

/-! ## The laws -/

/-- A path has changed if it is in one of the snapshots only, or with different times in both. -/
theorem mem_changesSince_iff_contains : l ∈ a.changesSince b ↔
    a.times.contains l ≠ b.times.contains l ∨
      ∃ s t, a.times.find? l = some s ∧ b.times.find? l = some t ∧ s ≠ t := by
  rw [mem_changesSince_iff, SortedMap.contains, SortedMap.contains]
  cases ha : a.times.find? l <;> cases hb : b.times.find? l <;> simp

theorem changesSince_eq_nil_iff : a.changesSince b = [] ↔ a = b := by
  constructor
  · intro h
    have htimes : a.times = b.times := by
      ext1 l
      by_contra hne
      exact List.not_mem_nil (h ▸ mem_changesSince_iff.mpr hne)
    obtain ⟨times⟩ := a
    exact congrArg Snapshot.mk htimes
  · rintro rfl
    exact List.eq_nil_iff_forall_not_mem.mpr fun l hl => mem_changesSince_iff.mp hl rfl

theorem changesSince_comm (a b : Snapshot) : a.changesSince b = b.changesSince a := by
  refine eq_of_ascending (ascending_changesSince a b) (ascending_changesSince b a) fun l => ?_
  rw [mem_changesSince_iff, mem_changesSince_iff]
  exact ne_comm

/-- What has changed in two steps has changed in one of them. -/
theorem mem_changesSince_step (b : Snapshot) (h : l ∈ a.changesSince c) :
    l ∈ a.changesSince b ∨ l ∈ b.changesSince c := by
  rw [mem_changesSince_iff] at h
  rw [mem_changesSince_iff, mem_changesSince_iff]
  by_contra hneither
  obtain ⟨hab, hbc⟩ := not_or.mp hneither
  exact h ((not_not.mp hab).trans (not_not.mp hbc))

/-- **The laws of the difference.** It ascends strictly, and tells just what is in one of the
snapshots only or has different times in both. There is none just if the snapshots are equal, it is
the same from either side, and what differs after two steps differs after one of them. -/
theorem changesSince_exact (a b c : Snapshot) :
    ((a.changesSince b).Pairwise fun l m => compare l m = .lt) ∧
    (∀ l, l ∈ a.changesSince b ↔ a.times.contains l ≠ b.times.contains l ∨
      ∃ s t, a.times.find? l = some s ∧ b.times.find? l = some t ∧ s ≠ t) ∧
    (a.changesSince b = [] ↔ a = b) ∧
    a.changesSince b = b.changesSince a ∧
    ∀ l ∈ a.changesSince c, l ∈ a.changesSince b ∨ l ∈ b.changesSince c :=
  ⟨ascending_changesSince a b, fun _ => mem_changesSince_iff_contains, changesSince_eq_nil_iff,
    changesSince_comm a b, fun _ => mem_changesSince_step b⟩

/-- A directory of two files, of which one is edited now and then. -/
def twoFiles (edited : Timestamp) (other : String) : Snapshot :=
  ⟨.ofList [(["edit.txt"], edited), ([other], ⟨1, 0⟩)]⟩

/-- Between three looks a file is edited, and then another one is replaced by a new one. -/
theorem changesSince_exact_edited :
    (twoFiles ⟨6, 0⟩ "new.txt").changesSince (twoFiles ⟨1, 0⟩ "drop.txt") =
      [["drop.txt"], ["edit.txt"], ["new.txt"]] ∧
    (["edit.txt"] ∈ (twoFiles ⟨6, 0⟩ "new.txt").changesSince (twoFiles ⟨6, 0⟩ "drop.txt") ∨
      ["edit.txt"] ∈ (twoFiles ⟨6, 0⟩ "drop.txt").changesSince (twoFiles ⟨1, 0⟩ "drop.txt")) := by
  have hchanges : (twoFiles ⟨6, 0⟩ "new.txt").changesSince (twoFiles ⟨1, 0⟩ "drop.txt") =
      [["drop.txt"], ["edit.txt"], ["new.txt"]] := by decide +kernel
  obtain ⟨-, -, -, -, hstep⟩ := changesSince_exact (twoFiles ⟨6, 0⟩ "new.txt")
    (twoFiles ⟨6, 0⟩ "drop.txt") (twoFiles ⟨1, 0⟩ "drop.txt")
  exact ⟨hchanges, hstep _ (hchanges ▸ List.mem_cons_of_mem _ List.mem_cons_self)⟩

end Snapshot

end InnerLoop
