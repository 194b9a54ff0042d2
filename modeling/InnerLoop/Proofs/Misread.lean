import InnerLoop.Proofs.Ignored
import InnerLoop.Proofs.Steps

/-!
# Reported paths that are taken for others

A watch reports a change by the names that lead to it from the root, and these are taken from the
root when the change is sent. But where they lead to nothing from there, a relative root that they
start with is not put before them again. So what was removed below a root can be taken for what
lies at the rest of its names below the same root. An absolute root is always put before them.

- `Manifest.Misread`: the names are taken as they are.
- `Manifest.Misread.lstat_rest`: what they are taken for.
- `Manifest.Misread.entryKind?_root_ne_none`: if that is a directory, the root is sent.
- `Manifest.reported_path_resolves_iff`: **when a reported path means what was reported**.
- `Manifest.removed_file_sends_another`: a removed file for which another one is sent.
-/

namespace InnerLoop

/-- A walk starts with what its path leads to. -/
theorem FileTree.head_of_walk {t : FileTree} {p : Path} {visits : List Visit}
    (h : t.walk p = .ok visits) :
    ∃ l n rest, t.lstat p = .ok (l, n) ∧ visits = ⟨[], n⟩ :: rest := by
  unfold walk at h
  obtain ⟨⟨l, n⟩, hp, h⟩ := bind_eq_ok_iff.mp h
  refine ⟨l, n, ?_⟩
  cases n with
  | symlink target time =>
    obtain ⟨⟨k, m⟩, -, h⟩ := bind_eq_ok_iff.mp h
    dsimp only at h
    split at h <;> cases h <;> exact ⟨_, hp, rfl⟩
  | _ => cases h; exact ⟨_, hp, rfl⟩

namespace Manifest

variable {t : FileTree} {root : Path} {names : Location}

/-! ## Names that are taken as they are -/

/-- From a relative root some names lead to nothing, but they start with the root itself, and lead
to something as they are. -/
structure Misread (t : FileTree) (root : Path) (names : Location) : Prop where
  relative : root.isAbsolute = false
  gone : t.existsAt (root.join (.ofNames names)) = false
  starts : root.moves ≠ [] ∧ root.moves <+: names.map .normal
  found : t.existsAt (.ofNames names) = true

theorem resolve_of_misread (hnames : ∀ n ∈ names, IsName n) (h : Misread t root names) :
    resolve t root (.ofNames names) = .ofNames names := by
  rw [resolve, if_neg (by rw [Path.isAbsolute_ofNames hnames]; exact Bool.false_ne_true)]
  dsimp only
  rw [if_neg (by simp [h.gone, h.relative]), Path.moves_ofNames hnames]
  exact if_pos ⟨h.starts.1, List.isPrefixOf_iff_prefix.mpr h.starts.2, h.found⟩

theorem resolve_of_not_misread (hnames : ∀ n ∈ names, IsName n) (h : ¬ Misread t root names) :
    resolve t root (.ofNames names) = root.join (.ofNames names) := by
  rw [resolve, if_neg (by rw [Path.isAbsolute_ofNames hnames]; exact Bool.false_ne_true)]
  dsimp only
  split
  next => rfl
  next hkept =>
    obtain ⟨hgone, hrelative⟩ := not_or.mp hkept
    refine if_neg ?_
    rintro ⟨hne, hstarts, hfound⟩
    rw [Path.moves_ofNames hnames] at hstarts
    exact h ⟨eq_false_of_ne_true hrelative, eq_false_of_ne_true hgone,
      ⟨hne, List.isPrefixOf_iff_prefix.mp hstarts⟩, hfound⟩

/-- Names are taken as what they lead to from the root, unless they are misread. -/
theorem lstat_resolve_iff (hnames : ∀ n ∈ names, IsName n) :
    t.lstat (resolve t root (.ofNames names)) = t.lstat (root.join (.ofNames names)) ↔
      ¬ Misread t root names := by
  constructor
  · intro h hmisread
    obtain ⟨fault, hgone⟩ := FileTree.existsAt_eq_false_iff.mp hmisread.gone
    obtain ⟨l, n, hfound⟩ := FileTree.existsAt_iff.mp hmisread.found
    rw [resolve_of_misread hnames hmisread, hgone, hfound] at h
    cases h
  · exact fun h => by rw [resolve_of_not_misread hnames h]

namespace Misread

variable {rest : Location}

/-- The names go on from those of the root. -/
theorem exists_rest (h : Misread t root names) :
    ∃ rest, names = root.segments.filter (· ≠ ".") ++ rest := by
  obtain ⟨own, ⟨rest, rfl⟩, hown⟩ := List.prefix_map_iff.mp h.starts.2
  rw [Path.moves_of_relative h.relative] at hown
  exact ⟨rest, by rw [Path.eq_of_map_ofSegment hown]⟩

theorem names_ne_nil (h : Misread t root names) : names ≠ [] := by
  rintro rfl
  exact h.starts.1 (List.prefix_nil.mp h.starts.2)

/-- What the rest of the names is taken from has no segments of its own but such that stay, so a
character that is in no name is nowhere in the path. -/
theorem notMem_join {c : Char} (hnames : ∀ n ∈ names, IsName n)
    (hrest : names = root.segments.filter (· ≠ ".") ++ rest) (hslash : c ≠ '/') (hdot : c ≠ '.')
    (hc : c ∉ (Path.ofNames names).chars) : c ∉ (root.join (.ofNames rest)).chars := by
  have hproper : ∀ n ∈ rest, IsName n := fun n hn =>
    hnames n (hrest ▸ List.mem_append_right _ hn)
  rw [Path.mem_chars_iff hslash, Path.segments_ofNames hnames] at hc
  rw [Path.mem_chars_iff hslash, Path.segments_join (Path.isAbsolute_ofNames hproper),
    Path.segments_ofNames hproper]
  rintro ⟨s, hs, hin⟩
  by_cases hstay : s = "."
  · rw [hstay] at hin
    exact hdot (List.mem_singleton.mp hin)
  · refine hc ⟨s, hrest ▸ ?_, hin⟩
    rw [List.mem_append] at hs ⊢
    exact hs.imp_left fun hs => List.mem_filter.mpr ⟨hs, decide_eq_true hstay⟩

/-- Misread names lead to what the rest of them leads to from the root. -/
theorem lstat_rest (hnames : ∀ n ∈ names, IsName n) (h : Misread t root names)
    (hrest : names = root.segments.filter (· ≠ ".") ++ rest) (hne : rest ≠ [])
    (hshort : (root.join (.ofNames rest)).text.utf8ByteSize < FileTree.maxPath) :
    t.lstat (.ofNames names) = t.lstat (root.join (.ofNames rest)) := by
  have hproper : ∀ n ∈ rest, IsName n := fun n hn =>
    hnames n (hrest ▸ List.mem_append_right _ hn)
  obtain ⟨l, n, hfound⟩ := FileTree.existsAt_iff.mp h.found
  have hnul := notMem_join hnames hrest (by decide) (by decide)
    (FileTree.nul_notMem_of_find hfound)
  obtain ⟨hempty, -⟩ : (root.join (.ofNames rest)).text ≠ "" ∧ _ :=
    not_or.mp (Path.not_open_join_ofNames hproper hne)
  have hnamed : t.lstat (.ofNames names) =
      FileTree.follow t false FileTree.maxLinks t.workDir names := by
    rw [FileTree.lstat, (FileTree.follow_of_find hfound).2 false,
      FileTree.start_of_relative (Path.isAbsolute_ofNames hnames),
      FileTree.steps_ofNames hnames h.names_ne_nil]
  have hjoined : t.lstat (root.join (.ofNames rest)) =
      FileTree.follow t false FileTree.maxLinks t.workDir (root.segments ++ rest) := by
    rw [FileTree.lstat, FileTree.find_eq_follow hnul hempty hshort,
      FileTree.start_of_relative ((Path.isAbsolute_join (Path.isAbsolute_ofNames hproper)).trans
        h.relative), FileTree.steps_join_ofNames hproper hne]
  obtain ⟨before, s, rfl⟩ := (List.eq_nil_or_concat rest).resolve_left hne
  rw [List.concat_eq_append] at hproper hrest hjoined
  have hbefore := IsName.filter_eq_self fun m hm => hproper m (List.mem_append_left [s] hm)
  -- The two ways differ by steps of the root that stay, and none of these is the last step.
  rw [hnamed, List.concat_eq_append, hjoined, ← List.append_assoc, FileTree.follow_withoutStays,
    List.filter_append, hbefore, hrest, List.append_assoc]

/-- If misread names lead to a directory, the root leads to something that can be sent. -/
theorem entryKind?_root_ne_none {k l : Location} {n : Node} {mode : Nat}
    (hnames : ∀ n ∈ names, IsName n) (h : Misread t root names)
    (hdir : t.lstat (.ofNames names) = .ok (l, .dir mode)) (hroot : t.lstat root = .ok (k, n)) :
    n.entryKind? ≠ none := by
  intro hkind
  obtain ⟨rest, hrest⟩ := h.exists_rest
  have hfilter := IsName.filter_eq_self fun m hm =>
    hnames m (hrest ▸ List.mem_append_right _ hm)
  -- Through something that is neither a directory nor a link the names would lead nowhere.
  have hbelow : FileTree.follow t false FileTree.maxLinks (FileTree.start t.workDir root)
      (FileTree.steps root ++ (rest ++ ["."])) = .error .notDirectory := by
    refine FileTree.follow_append_of_not_dir (by simp) (fun target time hlink => ?_) ?_
      (FileTree.follow_of_find hroot).1
    · rw [hlink] at hkind
      cases hkind
    · cases n with
      | dir => cases hkind
      | _ => rfl
  have hthere : FileTree.follow t false FileTree.maxLinks (FileTree.start t.workDir _)
      (FileTree.steps (.ofNames names) ++ ["."]) = .ok (l, .dir mode) :=
    FileTree.follow_stay (FileTree.follow_of_find hdir).1
  rw [FileTree.start_of_relative h.relative, ← List.append_assoc, FileTree.follow_withoutStays,
    List.filter_append, FileTree.filter_steps, hfilter, ← hrest] at hbelow
  rw [FileTree.start_of_relative (Path.isAbsolute_ofNames hnames),
    FileTree.steps_ofNames hnames h.names_ne_nil, hbelow] at hthere
  cases hthere

end Misread

/-! ## Reported paths -/

/-- For one path that leads to nothing from the root nothing is sent, unless it is misread. -/
theorem build_gone_iff (hnames : ∀ n ∈ names, IsName n)
    (hgone : t.existsAt (root.join (.ofNames names)) = false) :
    build t root [.ofNames names] = .ok ⟨.subtree, []⟩ ↔ ¬ Misread t root names := by
  constructor
  · intro hbuild hmisread
    have hresolve := resolve_of_misread hnames hmisread
    obtain ⟨l, n, hfound⟩ := FileTree.existsAt_iff.mp hmisread.found
    have hbuilt := built_of_build hbuild
    generalize hm : (⟨.subtree, []⟩ : Manifest) = m at hbuilt
    cases hbuilt with
    | single => cases hm
    | gone hchanged hnone =>
      have hnone := hnone _ List.mem_cons_self
      rw [hresolve, hmisread.found] at hnone
      cases hnone
    | @whole segment visits hkept hleaf hsegment hwalk =>
      obtain ⟨k, top, rest, hroot, rfl⟩ := FileTree.head_of_walk hwalk
      have hleaf := hleaf _ rfl
      rw [hresolve, isLeaf, hfound] at hleaf
      -- What the names lead to is no leaf but a directory, so the walk has something to send.
      cases n with
      | dir mode =>
        have htop := List.filterMap_eq_nil_iff.mp (Manifest.mk.inj hm).2.symm _ List.mem_cons_self
        exact hmisread.entryKind?_root_ne_none hnames hfound hroot (Option.map_eq_none_iff.mp htop)
      | _ => cases hleaf
  · intro hnot
    have hnone : isLeaf t (root.join (.ofNames names)) = false := by
      obtain ⟨fault, hfault⟩ := FileTree.existsAt_eq_false_iff.mp hgone
      rw [isLeaf, hfault]
    rw [build, List.map_singleton, resolve_of_not_misread hnames hnot]
    dsimp only
    rw [if_neg (by rw [hnone]; exact Bool.false_ne_true)]
    exact if_pos ⟨List.cons_ne_nil _ _, by simp [hgone]⟩

/-- **When a reported path means what was reported.** A watch has seen the root twice, and a change
that it reports is sent, maybe after further changes. Its path leads where the reported names lead
from the root, and nothing is sent if that is nowhere, unless they are misread. Then they go on from
the names of the root, and lead where the rest of them leads from the root. -/
theorem reported_path_resolves_iff {earlier later : FileTree} (now : FileTree) {root : Path}
    {first second : Snapshot} {names : Location} (hearlier : earlier.Named) (hlater : later.Named)
    (hfirst : Snapshot.scan earlier root = .ok first)
    (hsecond : Snapshot.scan later root = .ok second) (h : names ∈ second.changesSince first) :
    (now.lstat (resolve now root (.ofNames names)) = now.lstat (root.join (.ofNames names)) ↔
      ¬ Misread now root names) ∧
    (now.existsAt (root.join (.ofNames names)) = false →
      (build now root [.ofNames names] = .ok ⟨.subtree, []⟩ ↔ ¬ Misread now root names)) ∧
    (Misread now root names →
      ∃ rest, names = root.segments.filter (· ≠ ".") ++ rest ∧ (rest ≠ [] →
        (root.join (.ofNames rest)).text.utf8ByteSize < FileTree.maxPath →
        now.lstat (resolve now root (.ofNames names)) =
          now.lstat (root.join (.ofNames rest)))) := by
  obtain ⟨-, hnames⟩ :=
    Snapshot.proper_of_mem_changesSince hearlier hlater hfirst hsecond h
  refine ⟨lstat_resolve_iff hnames, build_gone_iff hnames, fun hmisread => ?_⟩
  obtain ⟨rest, hrest⟩ := hmisread.exists_rest
  refine ⟨rest, hrest, fun hne hshort => ?_⟩
  rw [resolve_of_misread hnames hmisread]
  exact hmisread.lstat_rest hnames hrest hne hshort

/-- A directory `app` with a file and another directory `app`, in which there may be a file of the
same name. -/
def appInApp (both : Bool) : FileTree where
  nodes := SortedMap.ofList <|
    [(["app"], .dir defaultDirMode),
      (["app", "app"], .dir defaultDirMode),
      (["app", "x.js"], .file [] 0o644 ⟨1, 0⟩)] ++
    if both then [(["app", "app", "x.js"], .file [] 0o644 ⟨1, 0⟩)] else []

/-- What a watch sees of it. -/
def appInAppScan (both : Bool) : Snapshot :=
  ⟨SortedMap.ofList <|
    [(["x.js"], ⟨1, 0⟩)] ++ if both then [(["app", "x.js"], ⟨1, 0⟩)] else []⟩

theorem appInApp_named (both : Bool) : (appInApp both).Named where
  nodes := by cases both <;> decide +kernel
  workDir := fun _ hname => absurd hname List.not_mem_nil

theorem scan_appInApp (both : Bool) :
    Snapshot.scan (appInApp both) ⟨"app"⟩ = .ok (appInAppScan both) := by
  cases both <;> rfl

theorem changes_appInApp :
    (appInAppScan false).changesSince (appInAppScan true) = [["app", "x.js"]] := by
  decide +kernel

/-- The names of the file that is gone are those of the path of the other one. -/
theorem misread_appInApp : Misread (appInApp false) ⟨"app"⟩ ["app", "x.js"] where
  relative := by decide
  gone := by decide +kernel
  starts := by decide +kernel
  found := by decide +kernel

theorem reported_path_resolves_iff_appInApp :
    Snapshot.scan (appInApp true) ⟨"app"⟩ = .ok (appInAppScan true) ∧
    Snapshot.scan (appInApp false) ⟨"app"⟩ = .ok (appInAppScan false) ∧
    ["app", "x.js"] ∈ (appInAppScan false).changesSince (appInAppScan true) ∧
    build (appInApp false) ⟨"app"⟩ [.ofNames ["app", "x.js"]] ≠ .ok ⟨.subtree, []⟩ ∧
    (appInApp false).lstat (resolve (appInApp false) ⟨"app"⟩ (.ofNames ["app", "x.js"])) =
      (appInApp false).lstat ((⟨"app"⟩ : Path).join (.ofNames ["x.js"])) := by
  have hreported : ["app", "x.js"] ∈ (appInAppScan false).changesSince (appInAppScan true) := by
    rw [changes_appInApp]
    exact List.mem_singleton_self _
  obtain ⟨-, hempty, hother⟩ := reported_path_resolves_iff (appInApp false) (appInApp_named true)
    (appInApp_named false) (scan_appInApp true) (scan_appInApp false) hreported
  obtain ⟨rest, hrest, hsame⟩ := hother misread_appInApp
  have hown : (Path.segments ⟨"app"⟩).filter (· ≠ ".") = ["app"] := by decide +kernel
  rw [hown] at hrest
  obtain rfl : ["x.js"] = rest := (List.cons.inj hrest).2
  exact ⟨scan_appInApp true, scan_appInApp false, hreported,
    fun h => (hempty misread_appInApp.gone).mp h misread_appInApp,
    hsame (List.cons_ne_nil _ _) (by decide +kernel)⟩

/-- **A removed file can have another one sent**: a change that is the only one, and whose path
leads to nothing from the root, does not always send nothing. -/
theorem removed_file_sends_another :
    ¬ ∀ {earlier later : FileTree} {root : Path} {first second : Snapshot} {names : Location},
      earlier.Named → later.Named →
      Snapshot.scan earlier root = .ok first → Snapshot.scan later root = .ok second →
      second.changesSince first = [names] → later.existsAt (root.join (.ofNames names)) = false →
      build later root [.ofNames names] = .ok ⟨.subtree, []⟩ := by
  intro h
  have hsent : build (appInApp false) ⟨"app"⟩ [.ofNames ["app", "x.js"]] =
      .ok ⟨.singleFile, [⟨⟨"app/x.js"⟩, "x.js", .file⟩]⟩ :=
    eq_ok_of_toOption (by decide +kernel)
  have hempty := h (appInApp_named true) (appInApp_named false) (scan_appInApp true)
    (scan_appInApp false) changes_appInApp misread_appInApp.gone
  cases hsent.symm.trans hempty

end Manifest

end InnerLoop
