import InnerLoop.Files.Walk
import InnerLoop.Proofs.Paths

/-!
# Looking up files and walking directories

- `FileTree.Named`: everything in a tree has a proper name.
- `FileTree.StepSpec`, `FileTree.stepSpec`: what one step of a look-up does.
- `FileTree.node?_of_find`: a look-up ends at what lies where it ends.
- `FileTree.lstat_of_stat`: where following every link leads, a look-up that does not follow the
  last one leads too, or it ends at that link.
- `FileTree.mem_below_iff`: what lies below a directory.
- `FileTree.walk_of_dir`: a walk from a path that leads to a directory visits all of that.
- `FileTree.walk_cases`, `FileTree.Named.of_walk`: what any walk visits, and by which names.
-/

namespace InnerLoop

namespace FileTree

variable {t : FileTree} {p : Path} {l : Location} {n : Node}

/-- Everything in the tree has a proper name. -/
structure Named (t : FileTree) : Prop where
  nodes : ∀ e ∈ t.nodes.entries, ∀ name ∈ e.1, IsName name
  workDir : ∀ name ∈ t.workDir, IsName name

/-- The names that lead to something are proper ones. -/
theorem Named.of_node? (named : t.Named) (h : t.node? l = some n) : ∀ name ∈ l, IsName name := by
  unfold node? at h
  split at h
  next hl =>
    rw [hl]
    exact fun _ hname => absurd hname List.not_mem_nil
  next => exact named.nodes (l, n) (SortedMap.find?_eq_some_iff.mp h)

/-! ## One step -/

/-- What a step from `here` does, whatever comes after it. -/
inductive StepSpec (t : FileTree) (here : Location) (s : String) : Prop
  /-- It cannot be taken. -/
  | stuck (fault : FileFault) (h : ∀ b again r, advance t b again here (s :: r) = .error fault)
  /-- It leads on to another location, or stays. -/
  | on (next : Location)
      (h : ∀ b again r, advance t b again here (s :: r) = advance t b again next r)
  /-- It leads to a link, which is followed unless it is the last step and left alone. -/
  | link (target : String) (time : Timestamp)
      (hnode : t.node? (here ++ [s]) = some (.symlink target time))
      (h : ∀ b again r, advance t b again here (s :: r) =
        if r = [] ∧ !b then .ok (here ++ [s], .symlink target time)
        else again (start here ⟨target⟩) (steps ⟨target⟩ ++ r))

theorem stepSpec (t : FileTree) (here : Location) (s : String) : StepSpec t here s := by
  cases hhere : t.node? here with
  | none => exact .stuck .noEntry fun b again r => by simp [advance, hhere]
  | some n =>
    cases hdir : n.isDir with
    | false => exact .stuck .notDirectory fun b again r => by simp [advance, hhere, hdir]
    | true =>
      by_cases hdot : s = "."
      · exact .on here fun b again r => by simp [advance, hhere, hdir, hdot]
      by_cases hup : s = ".."
      · exact .on here.dropLast fun b again r => by simp [advance, hhere, hdir, hup]
      by_cases hlong : maxName < s.utf8ByteSize
      · exact .stuck .nameTooLong fun b again r => by
          simp [advance, hhere, hdir, hdot, hup, hlong]
      cases hnext : t.node? (here ++ [s]) with
      | none =>
        exact .on (here ++ [s]) fun b again r => by
          simp [advance, hhere, hdir, hdot, hup, hlong, hnext]
      | some m =>
        cases m with
        | symlink target time =>
          exact .link target time hnext fun b again r => by
            simp [advance, hhere, hdir, hdot, hup, hlong, hnext]
        | _ =>
          exact .on (here ++ [s]) fun b again r => by
            simp [advance, hhere, hdir, hdot, hup, hlong, hnext]

/-! ## Where a look-up ends -/

section Advance

variable {followLast : Bool} {again : Location → List String → Except FileFault (Location × Node)}
  {here : Location} {steps : List String}

theorem node?_of_advance
    (hagain : ∀ here r, again here r = .ok (l, n) → t.node? l = some n)
    (h : advance t followLast again here steps = .ok (l, n)) : t.node? l = some n := by
  induction steps generalizing here with
  | nil =>
    unfold advance at h
    split at h
    next m hm =>
      cases h
      exact hm
    next => cases h
  | cons s r ih =>
    cases stepSpec t here s with
    | stuck fault hs =>
      rw [hs] at h
      cases h
    | on next hs =>
      rw [hs] at h
      exact ih h
    | link target time hnode hs =>
      rw [hs] at h
      split at h
      · cases h
        exact hnode
      · exact hagain _ _ h

end Advance

theorem node?_of_follow {followLast : Bool} {links : Nat} {here : Location} {steps : List String}
    (h : follow t followLast links here steps = .ok (l, n)) : t.node? l = some n := by
  induction links generalizing here steps with
  | zero =>
    unfold follow at h
    exact node?_of_advance (fun _ _ hagain => by cases hagain) h
  | succ links ih => exact node?_of_advance (fun _ _ => ih) h

/-- What the look-ups of a path have in common before the first step is taken. -/
theorem follow_of_find {followLast : Bool} {r : Location × Node} (h : t.find followLast p = .ok r) :
    follow t followLast maxLinks (start t.workDir p) (steps p) = .ok r ∧
      ∀ b, t.find b p = follow t b maxLinks (start t.workDir p) (steps p) := by
  unfold find at h
  split at h
  · cases h
  next hnul =>
  split at h
  · cases h
  next hempty =>
  split at h
  · cases h
  next hlong =>
  refine ⟨h, fun b => ?_⟩
  rw [find, if_neg hnul, if_neg hempty, if_neg hlong]

/-- A look-up ends at `n` in `l`, or at a link. -/
def EndsAtOrLink (r : Except FileFault (Location × Node)) (l : Location) (n : Node) : Prop :=
  r = .ok (l, n) ∨ ∃ k target time, r = .ok (k, .symlink target time)

theorem endsAtOrLink_advance {again again' : Location → List String →
      Except FileFault (Location × Node)} {here : Location} {steps : List String}
    (hagain : ∀ here r, again here r = .ok (l, n) → EndsAtOrLink (again' here r) l n)
    (h : advance t true again here steps = .ok (l, n)) :
    EndsAtOrLink (advance t false again' here steps) l n := by
  induction steps generalizing here with
  | nil =>
    unfold advance at h ⊢
    exact .inl h
  | cons s r ih =>
    cases stepSpec t here s with
    | stuck fault hs =>
      rw [hs] at h
      cases h
    | on next hs =>
      rw [hs] at h ⊢
      exact ih h
    | link target time hnode hs =>
      rw [hs, if_neg (by simp)] at h
      rw [hs]
      -- Only the last step may be a link that one look-up follows and the other does not.
      by_cases hr : r = []
      · exact .inr ⟨_, target, time, if_pos ⟨hr, rfl⟩⟩
      · rw [if_neg fun hand => hr hand.1]
        exact hagain _ _ h

theorem endsAtOrLink_follow {links : Nat} {here : Location} {steps : List String}
    (h : follow t true links here steps = .ok (l, n)) :
    EndsAtOrLink (follow t false links here steps) l n := by
  induction links generalizing here steps with
  | zero =>
    unfold follow at h ⊢
    exact endsAtOrLink_advance (fun _ _ hagain => by cases hagain) h
  | succ links ih => exact endsAtOrLink_advance (fun _ _ => ih) h

/-- Where following every link leads, a look-up that does not follow the last one leads too, or it
ends at that link. -/
theorem lstat_of_stat (h : t.stat p = .ok (l, n)) : EndsAtOrLink (t.lstat p) l n := by
  obtain ⟨hfollow, hfind⟩ := follow_of_find h
  rw [lstat, hfind false]
  exact endsAtOrLink_follow hfollow

/-! ## Walks -/

/-- What lies below a location lies at the names that lead on from there. -/
theorem mem_below_iff {names : Location} :
    (names, n) ∈ t.below l ↔ names ≠ [] ∧ t.node? (l ++ names) = some n := by
  have hnode (hne : names ≠ []) :
      t.node? (l ++ names) = some n ↔ (l ++ names, n) ∈ t.nodes.entries := by
    rw [node?, if_neg (List.append_ne_nil_of_right_ne_nil _ hne), SortedMap.find?_eq_some_iff]
  constructor
  · intro h
    obtain ⟨⟨k, m⟩, hmem, hsome⟩ := List.mem_filterMap.mp h
    split at hsome
    next hbelow =>
      obtain ⟨hpre, hne⟩ := hbelow
      obtain ⟨rest, rfl⟩ := List.isPrefixOf_iff_prefix.mp hpre
      rw [List.drop_left] at hsome
      cases hsome
      have hnames : names ≠ [] := fun hnil => hne (by rw [hnil, List.append_nil])
      exact ⟨hnames, (hnode hnames).mpr hmem⟩
    next => cases hsome
  · rintro ⟨hne, h⟩
    refine List.mem_filterMap.mpr ⟨(l ++ names, n), (hnode hne).mp h, ?_⟩
    have hbelow : l ≠ l ++ names := fun heq =>
      hne (List.append_cancel_left (heq.symm.trans (List.append_nil l).symm))
    rw [if_pos ⟨List.isPrefixOf_iff_prefix.mpr (List.prefix_append l names), hbelow⟩,
      List.drop_left]

theorem mem_visitsBelow_iff {v : Visit} :
    v ∈ t.visitsBelow l ↔ v.names ≠ [] ∧ t.node? (l ++ v.names) = some v.node := by
  rw [← mem_below_iff]
  constructor
  · intro h
    obtain ⟨e, he, rfl⟩ := List.mem_map.mp h
    exact he
  · exact fun h => List.mem_map.mpr ⟨_, h, rfl⟩

/-- A walk from a path that leads to a directory visits what the path ends in and all that lies
below the directory. -/
theorem walk_of_dir {mode : Nat} (h : t.stat p = .ok (l, .dir mode)) :
    ∃ k m, t.lstat p = .ok (k, m) ∧ t.walk p = .ok (⟨[], m⟩ :: t.visitsBelow l) := by
  rcases lstat_of_stat h with hl | ⟨k, target, time, hk⟩
  · refine ⟨l, .dir mode, hl, ?_⟩
    rw [walk, hl]
    rfl
  · refine ⟨k, .symlink target time, hk, ?_⟩
    rw [walk, hk]
    show (t.stat p).bind _ = _
    rw [h]
    rfl

/-- A walk visits what it starts at, and after that nothing or all that lies below a location. -/
theorem walk_cases {visits : List Visit} (h : t.walk p = .ok visits) :
    ∃ top, visits = [⟨[], top⟩] ∨ ∃ l, visits = ⟨[], top⟩ :: t.visitsBelow l := by
  unfold walk at h
  cases hl : t.lstat p with
  | error fault =>
    rw [hl] at h
    cases h
  | ok r =>
    obtain ⟨l, n⟩ := r
    rw [hl] at h
    refine ⟨n, ?_⟩
    cases n with
    | dir mode =>
      cases h
      exact .inr ⟨l, rfl⟩
    | symlink target time =>
      change (t.stat p).bind _ = _ at h
      cases hs : t.stat p with
      | error fault =>
        rw [hs] at h
        cases h
      | ok r =>
        obtain ⟨k, m⟩ := r
        rw [hs] at h
        change (if m.isDir then _ else _) = _ at h
        split at h
        · cases h
          exact .inr ⟨k, rfl⟩
        · cases h
          exact .inl rfl
    | file content mode time =>
      cases h
      exact .inl rfl
    | socket time =>
      cases h
      exact .inl rfl

/-- The names that a walk leads by are proper ones. -/
theorem Named.of_walk {visits : List Visit} {v : Visit} (named : t.Named)
    (h : t.walk p = .ok visits) (hv : v ∈ visits) : ∀ name ∈ v.names, IsName name := by
  have hbelow {l : Location} (hv : v ∈ t.visitsBelow l) : ∀ name ∈ v.names, IsName name :=
    fun name hname =>
      named.of_node? (mem_visitsBelow_iff.mp hv).2 name (List.mem_append_right l hname)
  obtain ⟨top, rfl | ⟨l, rfl⟩⟩ := walk_cases h
  · rw [List.mem_singleton.mp hv]
    exact fun _ hname => absurd hname List.not_mem_nil
  · rcases List.mem_cons.mp hv with rfl | hv
    · exact fun _ hname => absurd hname List.not_mem_nil
    · exact hbelow hv

end FileTree

end InnerLoop
