import InnerLoop.Proofs.Lookup

/-!
# Look-ups that go on, and steps that stay

A look-up takes its steps one by one, so one with more steps goes on from where the first ones lead,
unless these end at a link that is left alone. A step that stays where it is asks for a directory,
as any step after it does; so only at the end does it make a difference.

- `FileTree.find_eq_follow`, `FileTree.steps_join_ofNames`: from a path to its steps.
- `FileTree.follow_append`: a look-up goes on from where its first steps lead.
- `FileTree.follow_append_of_not_dir`, `FileTree.follow_stay`: what comes of that at something that
  is no directory, and at a directory.
- `FileTree.follow_withoutStays`: steps that stay can be left out, before the last one.
-/

namespace InnerLoop

namespace FileTree

variable {t : FileTree} {p : Path} {l here : Location} {n : Node} {way more : List String}

/-! ## From a path to its steps -/

theorem existsAt_iff : t.existsAt p = true ↔ ∃ l n, t.lstat p = .ok (l, n) := by
  unfold existsAt
  cases t.lstat p with
  | ok r => exact ⟨fun _ => ⟨r.1, r.2, rfl⟩, fun _ => rfl⟩
  | error fault => exact ⟨fun h => (nomatch h), fun ⟨_, _, h⟩ => (nomatch h)⟩

theorem existsAt_eq_false_iff : t.existsAt p = false ↔ ∃ fault, t.lstat p = .error fault := by
  unfold existsAt
  cases t.lstat p with
  | ok r => exact ⟨fun h => (nomatch h), fun ⟨_, h⟩ => (nomatch h)⟩
  | error fault => exact ⟨fun _ => ⟨fault, rfl⟩, fun _ => rfl⟩

/-- A path that can be looked up at all is looked up step by step. -/
theorem find_eq_follow {b : Bool} (hnul : '\x00' ∉ p.chars) (hempty : p.text ≠ "")
    (hshort : p.text.utf8ByteSize < maxPath) :
    t.find b p = follow t b maxLinks (start t.workDir p) (steps p) := by
  rw [find, if_neg hnul, if_neg hempty, if_neg (Nat.not_le_of_lt hshort)]

theorem nul_notMem_of_find {b : Bool} {r : Location × Node} (h : t.find b p = .ok r) :
    '\x00' ∉ p.chars := by
  unfold find at h
  split at h
  · cases h
  next hnul => exact hnul

theorem start_of_relative (h : p.isAbsolute = false) : start l p = l :=
  if_neg (by rw [h]; exact Bool.false_ne_true)

theorem steps_join_ofNames {base : Path} {names : List String} (h : ∀ n ∈ names, IsName n)
    (hne : names ≠ []) : steps (base.join (.ofNames names)) = base.segments ++ names := by
  obtain ⟨-, hends⟩ : _ ∧ ¬(base.join (.ofNames names)).endsInSlash = true :=
    not_or.mp (Path.not_open_join_ofNames h hne)
  rw [steps, Path.segments_join (Path.isAbsolute_ofNames h), Path.segments_ofNames h,
    if_neg hends, List.append_nil]

theorem steps_ofNames {names : List String} (h : ∀ n ∈ names, IsName n) (hne : names ≠ []) :
    steps (.ofNames names) = names := by
  have hjoin : (⟨""⟩ : Path).join (.ofNames names) = .ofNames names := by
    rw [Path.join_onto (Path.isAbsolute_ofNames h) (.inl rfl), String.empty_append]
  rw [← hjoin, steps_join_ofNames h hne]
  rfl

theorem filter_steps (p : Path) :
    (steps p).filter (· ≠ ".") = p.segments.filter (· ≠ ".") := by
  unfold steps
  split <;> simp

/-! ## Going on -/

section Advance

variable {b b' : Bool} {again again' : Location → List String → Except FileFault (Location × Node)}

/-- What holds of going on from where some steps lead holds of all the steps at once. -/
theorem advance_append {P : Except FileFault (Location × Node) → Prop} (hmore : more ≠ [])
    (hlink : ∀ target time, n ≠ .symlink target time)
    (hagain : ∀ here r, again here r = .ok (l, n) → P (again' here (r ++ more)))
    (hlast : P (advance t b' again' l more)) (h : advance t b again here way = .ok (l, n)) :
    P (advance t b' again' here (way ++ more)) := by
  induction way generalizing here with
  | nil =>
    unfold advance at h
    split at h
    next =>
      cases h
      exact hlast
    next => cases h
  | cons s r ih =>
    rw [List.cons_append]
    cases stepSpec t here s with
    | stuck fault hs =>
      rw [hs] at h
      cases h
    | on next hs =>
      rw [hs] at h ⊢
      exact ih h
    | link target time hnode hs =>
      rw [hs] at h ⊢
      -- With more steps to come a link is followed in any case.
      rw [if_neg fun hand => hmore (List.append_eq_nil_iff.mp hand.1).2, ← List.append_assoc]
      split at h
      · cases h
        exact absurd rfl (hlink target time)
      · exact hagain _ _ h

end Advance

variable {b b' : Bool} {links : Nat}

/-- A look-up goes on from where its first steps lead. -/
theorem follow_append {P : Except FileFault (Location × Node) → Prop} (hmore : more ≠ [])
    (hlink : ∀ target time, n ≠ .symlink target time)
    (hlast : ∀ left, P (follow t b' left l more)) (h : follow t b links here way = .ok (l, n)) :
    P (follow t b' links here (way ++ more)) := by
  induction links generalizing here way with
  | zero => exact advance_append hmore hlink (fun _ _ hagain => by cases hagain) (hlast 0) h
  | succ links ih => exact advance_append hmore hlink (fun _ _ => ih) (hlast (links + 1)) h

/-- Nothing lies below what is no directory. -/
theorem follow_append_of_not_dir (hmore : more ≠ [])
    (hlink : ∀ target time, n ≠ .symlink target time) (hdir : n.isDir = false)
    (h : follow t b links here way = .ok (l, n)) :
    follow t b' links here (way ++ more) = .error .notDirectory := by
  refine follow_append (P := (· = .error .notDirectory)) hmore hlink (fun left => ?_) h
  obtain ⟨s, r, rfl⟩ := List.exists_cons_of_ne_nil hmore
  cases left <;> rw [follow, advance, node?_of_follow h] <;> exact if_pos (by rw [hdir]; rfl)

/-- One can stay at a directory. -/
theorem follow_stay {mode : Nat} (h : follow t b links here way = .ok (l, .dir mode)) :
    follow t b' links here (way ++ ["."]) = .ok (l, .dir mode) := by
  refine follow_append (P := (· = .ok (l, .dir mode))) (List.cons_ne_nil _ _)
    (fun _ _ hlink => by cases hlink) (fun left => ?_) h
  have hnode := node?_of_follow h
  cases left <;> simp [follow, advance, hnode, Node.isDir]

/-! ## Staying -/

section Advance

variable {again : Location → List String → Except FileFault (Location × Node)}

/-- A step that stays changes nothing before another one. -/
theorem advance_stay (hmore : more ≠ []) :
    advance t b again here ("." :: more) = advance t b again here more := by
  obtain ⟨s, r, rfl⟩ := List.exists_cons_of_ne_nil hmore
  rw [advance]
  cases hnode : t.node? here with
  | none => rw [advance, hnode]
  | some n =>
    cases hdir : n.isDir with
    | false =>
      rw [advance, hnode]
      simp [hdir]
    | true => simp [hdir]

/-- After the same step, look-ups are equal that go on in equal ways. -/
theorem advance_cons_congr {s : String} {r r' : List String} (hr : r ≠ []) (hr' : r' ≠ [])
    (hagain : ∀ here l, again here (l ++ r) = again here (l ++ r'))
    (h : ∀ here, advance t b again here r = advance t b again here r') :
    advance t b again here (s :: r) = advance t b again here (s :: r') := by
  cases stepSpec t here s with
  | stuck fault hs => rw [hs, hs]
  | on next hs => rw [hs, hs, h]
  | link target time hnode hs =>
    rw [hs, hs, if_neg fun hand => hr hand.1, if_neg fun hand => hr' hand.1, hagain]

theorem advance_withoutStays {s : String}
    (hagain : ∀ here l, again here (l ++ [s]) = again here (l.filter (· ≠ ".") ++ [s])) :
    advance t b again here (way ++ [s]) =
      advance t b again here (way.filter (· ≠ ".") ++ [s]) := by
  induction way generalizing here with
  | nil => rfl
  | cons a r ih =>
    have hne (l : List String) : l ++ [s] ≠ [] :=
      List.append_ne_nil_of_right_ne_nil l (List.cons_ne_nil s [])
    by_cases hstay : a = "."
    · rw [hstay, List.filter_cons_of_neg (by decide), List.cons_append, advance_stay (hne r)]
      exact ih
    · rw [List.filter_cons_of_pos (by simpa using hstay), List.cons_append, List.cons_append]
      -- A link on the way leads on by steps of its own, of which some may stay as well.
      refine advance_cons_congr (hne r) (hne _) (fun place l => ?_) fun _ => ih
      rw [← List.append_assoc, ← List.append_assoc, hagain, hagain _ (l ++ _), List.filter_append,
        List.filter_append, List.filter_filter]
      simp only [Bool.and_self]

end Advance

/-- Steps that stay can be left out, before the last one. -/
theorem follow_withoutStays (s : String) :
    follow t b links here (way ++ [s]) =
      follow t b links here (way.filter (· ≠ ".") ++ [s]) := by
  induction links generalizing here way with
  | zero => exact advance_withoutStays fun _ _ => rfl
  | succ links ih => exact advance_withoutStays fun _ _ => ih

end FileTree

end InnerLoop
