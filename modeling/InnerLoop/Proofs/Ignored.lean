import InnerLoop.Transfer.Snapshot
import InnerLoop.Proofs.Manifests

/-!
# What a watch leaves out, and what it sends

A snapshot leaves out what lies at or below one of the ignored names, so a watch never pushes
because of a change there. But a batch of several changes sends the whole root, and the walk of the
root leaves nothing out. Only paths count here, as they are written: it is not asked where a link on
the way leads to.

- `Snapshot.proper_of_mem_changesSince`: what is in a batch.
- `Manifest.LiesInIgnored`: an entry lies in an ignored directory.
- `Manifest.ignored_sent_iff`: **when something in an ignored directory is sent**.
- `Manifest.ignored_directory_is_sent`: two edited files that take `.git` along.
-/

namespace InnerLoop

/-! ## Batches -/

namespace Snapshot

variable {t earlier later : FileTree} {root : Path} {s first second : Snapshot} {names : Location}

/-- What a snapshot holds was visited, and is not left out. -/
theorem exists_visit_of_scan {time : Timestamp} (hscan : scan t root = .ok s)
    (h : s.times.find? names = some time) :
    isIgnored names = false ∧
      ∃ visits, t.walk root = .ok visits ∧ ∃ v ∈ visits, v.names = names := by
  unfold scan at hscan
  split at hscan
  next visits hwalk =>
    cases hscan
    obtain ⟨v, hv, hkept⟩ := List.mem_filterMap.mp (SortedMap.mem_of_find?_ofList h)
    split at hkept
    next => cases hkept
    next hnot =>
      obtain ⟨_, -, heq⟩ := Option.map_eq_some_iff.mp hkept
      cases heq
      exact ⟨eq_false_of_ne_true hnot, visits, hwalk, v, hv, rfl⟩
  next =>
    cases hscan
    cases h
  next => cases hscan

/-- What has changed between two snapshots is in one of them. -/
theorem find?_of_mem_changesSince (h : names ∈ second.changesSince first) :
    ∃ time, second.times.find? names = some time ∨ first.times.find? names = some time := by
  have hne := mem_changesSince_iff.mp h
  cases hsecond : second.times.find? names with
  | some time => exact ⟨time, .inl rfl⟩
  | none =>
    cases hfirst : first.times.find? names with
    | some time => exact ⟨time, .inr rfl⟩
    | none => exact absurd (hsecond.trans hfirst.symm) hne

/-- The names of a change are proper ones, and it is not left out. -/
theorem proper_of_mem_changesSince (hearlier : earlier.Named) (hlater : later.Named)
    (hfirst : scan earlier root = .ok first) (hsecond : scan later root = .ok second)
    (h : names ∈ second.changesSince first) :
    isIgnored names = false ∧ ∀ name ∈ names, IsName name := by
  obtain ⟨time, hfound | hfound⟩ := find?_of_mem_changesSince h
  · obtain ⟨hnot, visits, hwalk, v, hv, rfl⟩ := exists_visit_of_scan hsecond hfound
    exact ⟨hnot, hlater.of_walk hwalk hv⟩
  · obtain ⟨hnot, visits, hwalk, v, hv, rfl⟩ := exists_visit_of_scan hfirst hfound
    exact ⟨hnot, hearlier.of_walk hwalk hv⟩

end Snapshot

/-! ## Entries -/

namespace Manifest

variable {t : FileTree} {root : Path} {l : Location} {e : ManifestEntry} {names : Location}

/-- An entry lies at or below a directory with an ignored name: its names lead on through one from
the root, which lies at `l`. -/
def LiesInIgnored (t : FileTree) (root : Path) (l : Location) (e : ManifestEntry) : Prop :=
  ∃ dirs name rest mode, e.source = root.extend (dirs ++ name :: rest) ∧
    (∀ n ∈ dirs ++ name :: rest, IsName n) ∧ name ∈ Snapshot.ignoredNames ∧
    t.node? (l ++ (dirs ++ [name])) = some (.dir mode)

/-- A changed path is taken from the root, or as it is if it starts with the root itself. -/
theorem segments_resolve (hnames : ∀ n ∈ names, IsName n) :
    (resolve t root (Path.ofNames names)).segments = root.segments ++ names ∨
      (resolve t root (Path.ofNames names)).segments = names := by
  have hrel := Path.isAbsolute_ofNames hnames
  have hjoin : (root.join (Path.ofNames names)).segments = root.segments ++ names := by
    rw [Path.segments_join hrel, Path.segments_ofNames hnames]
  unfold resolve
  rw [if_neg (by rw [hrel]; exact Bool.false_ne_true)]
  dsimp only
  split
  · exact .inl hjoin
  · split
    · exact .inr (Path.segments_ofNames hnames)
    · exact .inl hjoin

/-- What is sent by itself for a change that is not left out lies in no ignored directory. -/
theorem not_liesInIgnored_of_resolve (hnames : ∀ n ∈ names, IsName n)
    (hnot : Snapshot.isIgnored names = false)
    (hsource : e.source = resolve t root (Path.ofNames names)) : ¬ LiesInIgnored t root l e := by
  rintro ⟨dirs, name, rest, mode, hentry, hproper, hname, -⟩
  have hsegments : (resolve t root (Path.ofNames names)).segments =
      root.segments ++ (dirs ++ name :: rest) := by
    rw [← hsource, hentry, Path.segments_extend root hproper]
  have hmem : name ∈ dirs ++ name :: rest := List.mem_append_right dirs List.mem_cons_self
  -- The changed path has no names but those of the root and of the change; the entry has its own
  -- after those of the root.
  have hin : name ∈ names := by
    rcases segments_resolve hnames with h | h
    · exact List.append_cancel_left (h.symm.trans hsegments) ▸ hmem
    · exact (h.symm.trans hsegments) ▸ List.mem_append_right _ hmem
  have hignored : Snapshot.isIgnored names = true :=
    List.any_eq_true.mpr ⟨name, hin, decide_eq_true hname⟩
  exact Bool.false_ne_true (hnot.symm.trans hignored)

/-- An ignored directory is an entry of the whole root. -/
theorem exists_liesInIgnored_of_whole {top : Node} {segment name : String} {dirs : List String}
    {mode : Nat} (named : t.Named) (hname : name ∈ Snapshot.ignoredNames)
    (hnode : t.node? (l ++ (dirs ++ [name])) = some (.dir mode)) :
    ∃ e ∈ (⟨[], top⟩ :: t.visitsBelow l).filterMap (entryOf? root segment),
      LiesInIgnored t root l e := by
  let v : Visit := ⟨dirs ++ [name], .dir mode⟩
  have hv : v ∈ t.visitsBelow l :=
    FileTree.mem_visitsBelow_iff.mpr
      ⟨List.append_ne_nil_of_right_ne_nil dirs (List.cons_ne_nil name []), hnode⟩
  refine ⟨⟨v.path root, visitName segment v, .dir⟩,
    mem_entries_iff.mpr ⟨v, List.mem_cons_of_mem _ hv, .dir, rfl, rfl⟩, dirs, name, [], mode, rfl,
    ?_, hname, hnode⟩
  exact fun n hn => named.of_node? hnode n (List.mem_append_right l hn)

/-- **When something in an ignored directory is sent.** A watch has seen the root twice, with some
changes, and the manifest for these is built, maybe after further changes. Something at or below an
ignored directory is sent just if there is one below the root and the whole root is sent: some
change still leads to anything, and it is not the only one and a file or a link. -/
theorem ignored_sent_iff {earlier later now : FileTree} {root : Path} {first second : Snapshot}
    {m : Manifest} {l : Location} {mode : Nat} (hearlier : earlier.Named) (hlater : later.Named)
    (hnow : now.Named) (hfirst : Snapshot.scan earlier root = .ok first)
    (hsecond : Snapshot.scan later root = .ok second) (hroot : now.stat root = .ok (l, .dir mode))
    (hbatch : second.changesSince first ≠ [])
    (h : build now root ((second.changesSince first).map Path.ofNames) = .ok m) :
    (∃ e ∈ m.entries, LiesInIgnored now root l e) ↔
      (∃ dirs name mode, name ∈ Snapshot.ignoredNames ∧
        now.node? (l ++ (dirs ++ [name])) = some (.dir mode)) ∧
      (∃ names ∈ second.changesSince first,
        now.existsAt (resolve now root (Path.ofNames names)) = true) ∧
      ∀ names, second.changesSince first = [names] →
        isLeaf now (resolve now root (Path.ofNames names)) = false := by
  cases built_of_build h with
  | @single p name kind hchanged hleaf hname =>
    obtain ⟨names, hone, rfl⟩ := List.map_eq_singleton_iff.mp hchanged
    obtain ⟨hnot, hnames⟩ := Snapshot.proper_of_mem_changesSince hearlier hlater hfirst hsecond
      (hone ▸ List.mem_singleton_self names)
    constructor
    · rintro ⟨e, he, hlies⟩
      rw [List.mem_singleton.mp he] at hlies
      exact absurd hlies (not_liesInIgnored_of_resolve hnames hnot rfl)
    · rintro ⟨-, -, hmany⟩
      cases hleaf.symm.trans (hmany names hone)
  | gone hchanged hgone =>
    constructor
    · rintro ⟨e, he, -⟩
      exact absurd he List.not_mem_nil
    · rintro ⟨-, ⟨names, hmem, hexists⟩, -⟩
      cases hexists.symm.trans (hgone _ (List.mem_map_of_mem hmem))
  | whole hkept hleaf hsegment hwalk =>
    obtain ⟨-, top, -, hvisits⟩ := FileTree.walk_of_dir hroot
    cases hwalk.symm.trans hvisits
    constructor
    · rintro ⟨e, -, dirs, name, rest, mode, -, -, hname, hnode⟩
      refine ⟨⟨dirs, name, mode, hname, hnode⟩, ?_, fun names hone => ?_⟩
      · obtain ⟨p, hp, hexists⟩ := hkept (mt List.map_eq_nil_iff.mp hbatch)
        obtain ⟨names, hmem, rfl⟩ := List.mem_map.mp hp
        exact ⟨names, hmem, hexists⟩
      · exact hleaf _ (by rw [hone]; rfl)
    · rintro ⟨⟨dirs, name, mode, hname, hnode⟩, -, -⟩
      exact exists_liesInIgnored_of_whole hnow hname hnode

/-- A directory `app` under version control, with two files that were last edited at `time`. -/
def repository (time : Timestamp) : FileTree where
  nodes := SortedMap.ofList [
    (["app"], .dir defaultDirMode),
    (["app", ".git"], .dir defaultDirMode),
    (["app", ".git", "HEAD"], .file [] 0o644 ⟨1, 0⟩),
    (["app", "index.js"], .file [] 0o644 time),
    (["app", "style.css"], .file [] 0o644 time)]

/-- What a watch sees of it. -/
def repositoryScan (time : Timestamp) : Snapshot :=
  ⟨SortedMap.ofList [(["index.js"], time), (["style.css"], time)]⟩

theorem repository_named (time : Timestamp) : (repository time).Named where
  nodes := by
    have hkeys : (repository time).nodes.keys = [["app"], ["app", ".git"], ["app", ".git", "HEAD"],
      ["app", "index.js"], ["app", "style.css"]] := rfl
    have hproper : ∀ l ∈ (repository time).nodes.keys, ∀ name ∈ l, IsName name := by
      rw [hkeys]
      decide
    exact fun e he => hproper e.1 (List.mem_map_of_mem he)
  workDir := fun _ hname => absurd hname List.not_mem_nil

theorem scan_repository (time : Timestamp) :
    Snapshot.scan (repository time) ⟨"app"⟩ = .ok (repositoryScan time) := rfl

theorem stat_repository (time : Timestamp) :
    (repository time).stat ⟨"app"⟩ = .ok (["app"], .dir defaultDirMode) := rfl

theorem changes_repository :
    (repositoryScan ⟨2, 0⟩).changesSince (repositoryScan ⟨1, 0⟩) =
      [["index.js"], ["style.css"]] := by
  decide +kernel

/-- What is sent for the two edits. -/
def repositoryManifest : Manifest := ⟨.subtree, [
  ⟨⟨"app"⟩, "app", .dir⟩,
  ⟨⟨"app/.git"⟩, "app/.git", .dir⟩,
  ⟨⟨"app/.git/HEAD"⟩, "app/.git/HEAD", .file⟩,
  ⟨⟨"app/index.js"⟩, "app/index.js", .file⟩,
  ⟨⟨"app/style.css"⟩, "app/style.css", .file⟩]⟩

theorem build_repository :
    build (repository ⟨2, 0⟩) ⟨"app"⟩
      (((repositoryScan ⟨2, 0⟩).changesSince (repositoryScan ⟨1, 0⟩)).map Path.ofNames) =
      .ok repositoryManifest := by
  rw [changes_repository]
  exact eq_ok_of_toOption (by decide +kernel)

theorem ignored_sent_iff_repository :
    Snapshot.scan (repository ⟨1, 0⟩) ⟨"app"⟩ = .ok (repositoryScan ⟨1, 0⟩) ∧
    Snapshot.scan (repository ⟨2, 0⟩) ⟨"app"⟩ = .ok (repositoryScan ⟨2, 0⟩) ∧
    build (repository ⟨2, 0⟩) ⟨"app"⟩
      (((repositoryScan ⟨2, 0⟩).changesSince (repositoryScan ⟨1, 0⟩)).map Path.ofNames) =
      .ok repositoryManifest ∧
    ∃ e ∈ repositoryManifest.entries, LiesInIgnored (repository ⟨2, 0⟩) ⟨"app"⟩ ["app"] e := by
  have hbatch : (repositoryScan ⟨2, 0⟩).changesSince (repositoryScan ⟨1, 0⟩) ≠ [] := by
    rw [changes_repository]
    exact List.cons_ne_nil _ _
  refine ⟨scan_repository _, scan_repository _, build_repository, ?_⟩
  refine (ignored_sent_iff (repository_named _) (repository_named _) (repository_named _)
    (scan_repository _) (scan_repository _) (stat_repository _) hbatch build_repository).mpr ?_
  refine ⟨⟨[], ".git", defaultDirMode, by decide, rfl⟩, ?_, ?_⟩
  · rw [changes_repository]
    exact ⟨["index.js"], List.mem_cons_self, by decide +kernel⟩
  · rw [changes_repository]
    intro names h
    cases h

/-- **An ignored directory can be sent**: a watch does not leave out of every manifest what it
leaves out when it looks for changes. -/
theorem ignored_directory_is_sent :
    ¬ ∀ {earlier later : FileTree} {root : Path} {first second : Snapshot} {m : Manifest}
      {l : Location} {mode : Nat}, earlier.Named → later.Named →
      Snapshot.scan earlier root = .ok first → Snapshot.scan later root = .ok second →
      later.stat root = .ok (l, .dir mode) →
      build later root ((second.changesSince first).map Path.ofNames) = .ok m →
      ∀ e ∈ m.entries, ¬ LiesInIgnored later root l e := by
  intro h
  have hnot := h (repository_named ⟨1, 0⟩) (repository_named ⟨2, 0⟩) (scan_repository _)
    (scan_repository _) (stat_repository _) build_repository
    ⟨⟨"app/.git/HEAD"⟩, "app/.git/HEAD", .file⟩ (by decide)
  exact hnot ⟨[], ".git", ["HEAD"], defaultDirMode, rfl, by decide, by decide, rfl⟩

end Manifest

end InnerLoop
