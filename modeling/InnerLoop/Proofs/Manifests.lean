import InnerLoop.Proofs.Refusal
import InnerLoop.Proofs.Unpacking

/-!
# How manifests come about, and how they spell names

A manifest sends one file by itself, or nothing, or the whole root. A name below the root, and the
base name of a file that is sent by itself, are spelled with a slash for every backslash. The
segment of the root, with which all names of the whole root start, is taken as it is.

- `Manifest.Built`, `Manifest.built_of_build`: the three ways in which a manifest comes about.
- `backslash_notMem_withSlashes`, `Path.backslash_notMem_entryName`: what is spelled anew.
- `Manifest.plain_names_iff`: **when no name has a backslash**.
- `Manifest.root_keeps_backslash`: a root whose backslash is in every name.
-/

namespace InnerLoop

namespace Manifest

variable {t : FileTree} {root : Path} {changed : List Path} {m : Manifest}

/-! ## Three ways -/

/-- How the manifest for some changed paths comes about. -/
inductive Built (t : FileTree) (root : Path) (changed : List Path) : Manifest → Prop
  /-- The only path leads to a file or a link, which is sent by itself. -/
  | single {p : Path} {name : String} {kind : EntryKind} (hchanged : changed = [p])
      (hleaf : isLeaf t (resolve t root p) = true)
      (hname : (resolve t root p).fileName = some name) :
      Built t root changed ⟨.singleFile, [⟨resolve t root p, withSlashes name, kind⟩]⟩
  /-- All paths have disappeared, and nothing is sent. -/
  | gone (hchanged : changed ≠ [])
      (hgone : ∀ p ∈ changed, t.existsAt (resolve t root p) = false) :
      Built t root changed ⟨.subtree, []⟩
  /-- The whole root is sent. -/
  | whole {segment : String} {visits : List Visit}
      (hkept : changed ≠ [] → ∃ p ∈ changed, t.existsAt (resolve t root p) = true)
      (hleaf : ∀ p, changed = [p] → isLeaf t (resolve t root p) = false)
      (hsegment : rootSegment t root = .ok segment) (hwalk : t.walk root = .ok visits) :
      Built t root changed ⟨.subtree, visits.filterMap (entryOf? root segment)⟩

theorem singleFile_eq_ok {p : Path} (h : singleFile t p = .ok m) :
    ∃ name kind, p.fileName = some name ∧
      m = ⟨.singleFile, [⟨p, withSlashes name, kind⟩]⟩ := by
  obtain ⟨⟨_, n⟩, -, h⟩ := bind_eq_ok_iff.mp h
  dsimp only at h
  split at h
  next => cases h
  next kind hkind =>
    split at h
    next => cases h
    next name hname =>
      cases h
      exact ⟨name, kind, hname, rfl⟩

theorem unreadable_eq_ok_iff {α : Type} {p : Path} {r : Except FileFault α} {a : α} :
    unreadable p r = .ok a ↔ r = .ok a := by
  cases r with
  | error fault => exact ⟨fun h => (nomatch h), fun h => (nomatch h)⟩
  | ok b => exact ⟨fun h => congrArg _ (Except.ok.inj h), fun h => congrArg _ (Except.ok.inj h)⟩

theorem wholeRoot_eq_ok (h : wholeRoot t root = .ok m) :
    ∃ segment visits, rootSegment t root = .ok segment ∧ t.walk root = .ok visits ∧
      m = ⟨.subtree, visits.filterMap (entryOf? root segment)⟩ := by
  obtain ⟨segment, hsegment, h⟩ := bind_eq_ok_iff.mp h
  obtain ⟨visits, hwalk, h⟩ := bind_eq_ok_iff.mp h
  cases h
  exact ⟨segment, visits, hsegment, unreadable_eq_ok_iff.mp hwalk, rfl⟩

/-- What is left once no path is sent by itself. -/
theorem built_of_other
    (hleaf : ∀ p, changed = [p] → isLeaf t (resolve t root p) = false)
    (h : (if changed.map (resolve t root) ≠ [] ∧ !(changed.map (resolve t root)).any t.existsAt
      then .ok ⟨.subtree, []⟩ else wholeRoot t root) = .ok m) : Built t root changed m := by
  split at h
  next hgone =>
    cases h
    obtain ⟨hne, hnone⟩ := hgone
    refine .gone (fun hnil => hne (by rw [hnil]; rfl)) fun p hp => ?_
    simp at hnone
    exact hnone p hp
  next hkept =>
    obtain ⟨segment, visits, hsegment, hwalk, rfl⟩ := wholeRoot_eq_ok h
    refine .whole (fun hne => ?_) hleaf hsegment hwalk
    simpa [hne] using hkept

/-- Every manifest comes about in one of the three ways. -/
theorem built_of_build (h : build t root changed = .ok m) : Built t root changed m := by
  unfold build at h
  dsimp only at h
  -- Only one path can be sent by itself; a directory goes the way of several paths.
  split at h
  next p hresolved =>
    obtain ⟨q, rfl, rfl⟩ := List.map_eq_singleton_iff.mp hresolved
    split at h
    next hleaf =>
      obtain ⟨name, kind, hname, rfl⟩ := singleFile_eq_ok h
      exact .single rfl hleaf hname
    next hleaf =>
      refine built_of_other (fun p hp => ?_) h
      cases hp
      exact eq_false_of_ne_true hleaf
  next hresolved =>
    refine built_of_other (fun p hp => ?_) h
    exact absurd (by rw [hp]; rfl) (hresolved (resolve t root p))

end Manifest

/-! ## Spelling -/

/-- A text that is spelled with slashes has no backslash left. -/
theorem backslash_notMem_withSlashes (s : String) : '\\' ∉ (withSlashes s).toList := by
  rw [withSlashes, String.toList_ofList]
  intro h
  obtain ⟨c, -, hc⟩ := List.mem_map.mp h
  split at hc
  · exact absurd hc (by decide)
  · contradiction

/-- Every character of joined texts is from one of them or from what stands between them. -/
theorem Text.mem_toList_join {sep : String} {c : Char} {l : List String}
    (h : c ∈ (Text.join sep l).toList) : c ∈ sep.toList ∨ ∃ s ∈ l, c ∈ s.toList := by
  fun_induction Text.join sep l with
  | case1 => exact absurd h List.not_mem_nil
  | case2 s => exact .inr ⟨s, List.mem_cons_self, h⟩
  | case3 s r hr ih =>
    rw [String.toList_append, String.toList_append, List.append_assoc] at h
    rcases List.mem_append.mp h with hs | h
    · exact .inr ⟨s, List.mem_cons_self, hs⟩
    rcases List.mem_append.mp h with hsep | h
    · exact .inl hsep
    · exact (ih h).imp_right fun ⟨s', hs', hc⟩ => ⟨s', List.mem_cons_of_mem _ hs', hc⟩

/-- The names of a path are spelled without backslashes in an archive. -/
theorem Path.backslash_notMem_entryName (p : Path) : '\\' ∉ p.entryName.toList := by
  intro h
  rcases Text.mem_toList_join h with hsep | ⟨s, hs, hc⟩
  · exact absurd hsep (by decide)
  · obtain ⟨n, -, rfl⟩ := List.mem_map.mp hs
    exact backslash_notMem_withSlashes n hc

namespace Manifest

/-- A name of the whole root has a backslash just if the segment of the root has one. -/
theorem backslash_notMem_visitName_iff {segment : String} {v : Visit} :
    '\\' ∉ (visitName segment v).toList ↔ '\\' ∉ segment.toList := by
  unfold visitName
  split
  next => exact Iff.rfl
  next =>
    rw [String.toList_append, String.toList_append, List.mem_append, List.mem_append]
    have hslash : '\\' ∉ "/".toList := by decide
    have hnames := Path.backslash_notMem_entryName (Path.ofNames v.names)
    exact not_congr ⟨fun h => (h.resolve_right hnames).resolve_right hslash, fun h => .inl (.inl h)⟩

/-- **When no name has a backslash.** Whatever is sent, no name in the archive has a backslash,
unless the whole root is sent and the segment of the root has one; then all names have it. -/
theorem plain_names_iff {t : FileTree} {root : Path} {changed : List Path} {m : Manifest}
    (h : build t root changed = .ok m) :
    (∀ e ∈ m.entries, '\\' ∉ e.name.toList) ↔
      (m.mode = .subtree → m.entries ≠ [] →
        ∀ segment, rootSegment t root = .ok segment → '\\' ∉ segment.toList) := by
  cases built_of_build h with
  | single hchanged hleaf hname =>
    refine ⟨fun _ hmode => (nomatch hmode), fun _ e he => ?_⟩
    rw [List.mem_singleton.mp he]
    exact backslash_notMem_withSlashes _
  | gone hchanged hgone =>
    exact ⟨fun _ _ hne => absurd rfl hne, fun _ e he => absurd he List.not_mem_nil⟩
  | whole hkept hleaf hsegment hwalk =>
    constructor
    · intro hplain _ hne segment' hsegment'
      cases hsegment.symm.trans hsegment'
      obtain ⟨e, he⟩ := List.exists_mem_of_ne_nil _ hne
      obtain ⟨v, -, kind, -, rfl⟩ := mem_entries_iff.mp he
      exact backslash_notMem_visitName_iff.mp (hplain _ he)
    · intro hplain e he
      obtain ⟨v, -, kind, -, rfl⟩ := mem_entries_iff.mp he
      exact backslash_notMem_visitName_iff.mpr
        (hplain rfl (List.ne_nil_of_mem he) _ hsegment)

/-- A directory `app` with a file and a directory whose names have backslashes. -/
def backslashTree : FileTree where
  nodes := SortedMap.ofList [
    (["app"], .dir defaultDirMode),
    (["app", "a\\b"], .dir defaultDirMode),
    (["app", "lib\\util.js"], .file [] 0o644 ⟨1, 0⟩)]

theorem plain_names_iff_backslashes :
    ∃ m, build backslashTree ⟨"app"⟩ [] = .ok m ∧
      m.entries.map (·.name) = ["app", "app/a/b", "app/lib/util.js"] ∧
      ((∀ e ∈ m.entries, '\\' ∉ e.name.toList) ↔
        (m.mode = .subtree → m.entries ≠ [] →
          ∀ segment, rootSegment backslashTree ⟨"app"⟩ = .ok segment → '\\' ∉ segment.toList)) := by
  have hbuild : build backslashTree ⟨"app"⟩ [] = .ok ⟨.subtree, [
      ⟨⟨"app"⟩, "app", .dir⟩,
      ⟨⟨"app/a\\b"⟩, "app/a/b", .dir⟩,
      ⟨⟨"app/lib\\util.js"⟩, "app/lib/util.js", .file⟩]⟩ :=
    eq_ok_of_toOption (by decide +kernel)
  exact ⟨_, hbuild, rfl, plain_names_iff hbuild⟩

/-- A directory whose own name has a backslash, with a file. -/
def backslashRoot : FileTree where
  nodes := SortedMap.ofList [
    (["we\\b"], .dir defaultDirMode),
    (["we\\b", "index.js"], .file [] 0o644 ⟨1, 0⟩)]

/-- **A backslash can stay**: not every name of every manifest is free of backslashes. -/
theorem root_keeps_backslash :
    ¬ ∀ {t : FileTree} {root : Path} {changed : List Path} {m : Manifest},
      build t root changed = .ok m → ∀ e ∈ m.entries, '\\' ∉ e.name.toList := by
  intro h
  have hbuild : build backslashRoot ⟨"we\\b"⟩ [] = .ok ⟨.subtree, [
      ⟨⟨"we\\b"⟩, "we\\b", .dir⟩, ⟨⟨"we\\b/index.js"⟩, "we\\b/index.js", .file⟩]⟩ :=
    eq_ok_of_toOption (by decide +kernel)
  exact absurd (h hbuild _ List.mem_cons_self) (by decide)

end Manifest

end InnerLoop
