import InnerLoop.Proofs.Transfers

/-!
# What is written into an archive

The archive of a manifest consists of what is written for its entries, one after another, and of
what ends every archive. If an entry cannot be archived, the archive breaks off there.

- `Manifest.archiveBytes`: the bytes of the archive, entry by entry.
- `entriesWriting_complete`: a writing that does not break off writes all of them, and no entry
  was at fault.
- `Archive.local_entryWrites`: what makes an entry break off is a local file.
- `Manifest.Attempt`: the writing of the archive, or of any beginning of it;
  `Manifest.Attempt.sound`, its ending tells how much of it was written.
-/

namespace InnerLoop

/-! ## Why an entry cannot be archived -/

/-- Writes that do not break off for want of a reader. -/
def Writes.Local (a : Writes) : Prop := ∀ fault, a.fault = some fault → fault ≠ .brokenPipe

namespace Archive

theorem local_of_none {a : Writes} (h : a.fault = none) : a.Local :=
  fun _ hf => absurd (h.symm.trans hf) (nomatch ·)

theorem local_andThen {a b : Writes} (ha : a.Local) (hb : b.Local) : (a.andThen b).Local := by
  unfold Writes.andThen
  by_cases h : a.fault.isSome
  · rw [if_pos h]
    exact ha
  · rw [if_neg h]
    exact hb

theorem local_longEntry (type : EntryType) (text : String) : (longEntry type text).Local :=
  local_andThen (local_of_none rfl) (local_of_none rfl)

theorem local_badName (fault : NameFault) (written : String) :
    (Writes.failed (.badName fault written)).Local := by
  rintro _ ⟨⟩
  exact nofun

theorem local_nameWrites (name : String) : (nameWrites name).1.Local := by
  unfold nameWrites
  dsimp only
  split
  · exact local_of_none rfl
  · split
    · exact local_badName _ _
    · refine local_andThen (local_longEntry _ _) ?_
      split
      · exact local_of_none rfl
      · exact local_badName _ _

theorem local_linkWrites (target : String) : (linkWrites target).1.Local := by
  unfold linkWrites
  dsimp only
  split
  · exact local_longEntry _ _
  · exact local_of_none rfl

theorem local_entryWrites (files : FileTree) (e : ManifestEntry) : (entryWrites files e).Local := by
  unfold entryWrites
  split
  · rintro _ ⟨⟩
    exact nofun
  · split
    · rintro _ ⟨⟩
      exact nofun
    · rename_i header content target _
      refine local_andThen (local_andThen (local_nameWrites e.name) ?_)
        (local_andThen (local_of_none rfl) (local_of_none rfl))
      cases target with
      | none => exact local_of_none rfl
      | some target => exact local_linkWrites target

end Archive

/-- A file that is at fault is more than the want of a reader. -/
theorem isHangUp_malformed {path : String} {fault : FileFault} (h : fault ≠ .brokenPipe) :
    (Failure.malformed path fault).isHangUp = false := by
  unfold Failure.isHangUp
  split
  · rename_i heq
    cases heq
    exact absurd rfl h
  · rename_i heq
    cases heq
  · rfl

/-! ## Entry by entry -/

/-- The bytes that are written for an entry. -/
def Archive.entryBytes (files : FileTree) (e : ManifestEntry) : List UInt8 :=
  (Archive.entryWrites files e).chunks.flatten

/-- The bytes of the archive of a manifest. -/
def Manifest.archiveBytes (files : FileTree) (m : Manifest) : List UInt8 :=
  m.entries.flatMap (Archive.entryBytes files) ++ Archive.trailer

section

variable {files : FileTree} {last : Path} {e : ManifestEntry} {entries rest : List ManifestEntry}

/-- The parts that are written for an entry. -/
def entryParts (files : FileTree) (e : ManifestEntry) : List Part :=
  (Archive.entryWrites files e).chunks.map (Part.of e.source)

theorem bytes_entryParts (files : FileTree) (e : ManifestEntry) :
    (entryParts files e).flatMap Part.bytes = Archive.entryBytes files e := by
  unfold entryParts Archive.entryBytes
  rw [List.flatMap_map]
  exact List.flatMap_id

theorem isHangUp_entryParts (files : FileTree) (e : ManifestEntry) :
    ∀ p ∈ entryParts files e, p.unread.isHangUp = true := by
  intro p hp
  obtain ⟨chunk, -, rfl⟩ := List.mem_map.mp hp
  rfl

theorem entriesWriting_cons_of_none (h : (Archive.entryWrites files e).fault = none) :
    entriesWriting files last (e :: rest) = { entriesWriting files e.source rest with
      parts := entryParts files e ++ (entriesWriting files e.source rest).parts } := by
  rw [entriesWriting, h]
  rfl

theorem entriesWriting_cons_of_some {fault : FileFault}
    (h : (Archive.entryWrites files e).fault = some fault) :
    entriesWriting files last (e :: rest) =
      .broken (entryParts files e) (.malformed e.source.text fault) := by
  rw [entriesWriting, h]
  rfl

/-- A writing that does not break off writes what there is to write for every entry, and the end. -/
theorem entriesWriting_complete (h : (entriesWriting files last entries).failure = none) :
    (∀ e ∈ entries, (Archive.entryWrites files e).fault = none) ∧
      (entriesWriting files last entries).bytes =
        entries.flatMap (Archive.entryBytes files) ++ Archive.trailer := by
  induction entries generalizing last with
  | nil => exact ⟨fun _ he => absurd he List.not_mem_nil, List.append_nil _⟩
  | cons e rest ih =>
    cases hfault : (Archive.entryWrites files e).fault with
    | some fault =>
      rw [entriesWriting_cons_of_some hfault] at h
      cases h
    | none =>
      rw [entriesWriting_cons_of_none hfault] at h ⊢
      obtain ⟨hnone, hbytes⟩ := ih h
      refine ⟨List.forall_mem_cons.mpr ⟨hfault, hnone⟩, ?_⟩
      unfold Writing.bytes at hbytes ⊢
      rw [List.flatMap_append, bytes_entryParts, hbytes, List.flatMap_cons, List.append_assoc]

theorem Writing.sound_broken {parts : List Part} {failure : Failure}
    (hparts : ∀ p ∈ parts, p.unread.isHangUp = true) (hown : failure.isHangUp = false) :
    (Writing.broken parts failure).Sound := by
  have hend : Writing.Sound ⟨[{ bytes := Archive.trailer, unread := failure }], some failure⟩ := by
    refine ⟨fun _ h => Option.some.inj h ▸ hown, fun p hp _ => ?_, List.pairwise_singleton _ _⟩
    rw [List.mem_singleton.mp hp]
  exact hend.prepend hparts

theorem sound_entriesWriting (files : FileTree) (last : Path) (entries : List ManifestEntry) :
    (entriesWriting files last entries).Sound := by
  induction entries generalizing last with
  | nil =>
    refine ⟨fun _ h => (nomatch h), fun p hp hown => ?_, List.pairwise_singleton _ _⟩
    rw [List.mem_singleton.mp hp] at hown
    cases hown
  | cons e rest ih =>
    have hparts := isHangUp_entryParts files e
    cases hfault : (Archive.entryWrites files e).fault with
    | none =>
      rw [entriesWriting_cons_of_none hfault]
      exact (ih e.source).prepend hparts
    | some fault =>
      rw [entriesWriting_cons_of_some hfault]
      exact Writing.sound_broken hparts
        (isHangUp_malformed (Archive.local_entryWrites files e fault hfault))

end

/-! ## Attempts -/

/-- An attempt to write the archive of a manifest: the writing of it, or one of any beginning of it
that breaks off for a reason of its own. -/
inductive Manifest.Attempt (files : FileTree) (m : Manifest) : Writing → Prop
  | whole : Attempt files m (m.writing files)
  | cut (parts : List Part) (failure : Failure)
      (hparts : ∀ p ∈ parts, p.unread.isHangUp = true)
      (hbytes : parts.flatMap Part.bytes <+: m.archiveBytes files)
      (hown : failure.isHangUp = false) : Attempt files m (.broken parts failure)

namespace Manifest.Attempt

variable {files : FileTree} {m : Manifest} {w : Writing}

theorem sound (h : m.Attempt files w) : w.Sound := by
  cases h with
  | whole => exact sound_entriesWriting files _ m.entries
  | cut parts failure hparts _ hown => exact Writing.sound_broken hparts hown

/-- An attempt that does not break off writes the complete archive, and no entry is at fault. -/
theorem complete (h : m.Attempt files w) (hwell : w.failure = none) :
    (∀ e ∈ m.entries, (Archive.entryWrites files e).fault = none) ∧
      w.bytes = m.archiveBytes files := by
  cases h with
  | whole => exact entriesWriting_complete hwell
  | cut parts failure _ _ _ => cases hwell

end Manifest.Attempt

end InnerLoop
