import InnerLoop.Image.Reference

/-!
# Which references are read

A reference is to be `[namespace/]name[:tag|@digest]`, each part without separators but for colons
in a digest. What is read is cut at the first `@`, or else at the first `:`, and then at the first
`/`; what such a cut leaves behind is not always looked through for the other separators.

- `ImageReference.Written`: the grammar, with `Rules` that say what each part is free of.
- `ImageReference.Misplaced`: a `:` before an `@`, or a `/` after one of the two.
- `parse_eq_ok_iff_written`: what is read, as a grammar with weaker rules.
- `written_grammar_iff`: the grammar proper leaves out exactly what is misplaced.
- `parse_follows_grammar_iff`: **a text is read by the grammar exactly if it is refused or nothing
  in it is misplaced**.
-/

namespace InnerLoop.ImageReference

/-! ## The grammar -/

/-- A text that is not empty and free of some characters. -/
def IsPart (without : List Char) (s : String) : Prop :=
  s ≠ "" ∧ ∀ c ∈ without, c ∉ s.toList

/-- What the parts of a reference are free of. -/
structure Rules where
  /-- The namespace and the name, if no digest follows. -/
  path : List Char
  /-- The namespace and the name before a digest. -/
  pinnedPath : List Char
  tag : List Char
  digest : List Char

/-- A path `[namespace/]name`. -/
inductive WrittenPath (without : List Char) : String → Option String → String → Prop
  | bare {name : String} (hname : IsPart without name) : WrittenPath without name none name
  | inNamespace {ns name : String} (hns : IsPart without ns) (hname : IsPart without name) :
      WrittenPath without (ns ++ "/" ++ name) (some ns) name

/-- A reference `[namespace/]name[:tag|@digest]`, with its parts. -/
inductive Written (rules : Rules) : String → ImageReference → Prop
  | plain {path name : String} {ns : Option String} (hpath : WrittenPath rules.path path ns name) :
      Written rules path { ns, name, tag := some "latest", digest := none }
  | tagged {path name tag : String} {ns : Option String}
      (hpath : WrittenPath rules.path path ns name) (htag : IsPart rules.tag tag) :
      Written rules (path ++ ":" ++ tag) { ns, name, tag := some tag, digest := none }
  | pinned {path name digest : String} {ns : Option String}
      (hpath : WrittenPath rules.pinnedPath path ns name) (hdigest : IsPart rules.digest digest) :
      Written rules (path ++ "@" ++ digest) { ns, name, tag := none, digest := some digest }

/-- The rules of the grammar: no part has a separator in it, but a digest may have colons. -/
def grammar : Rules where
  path := ['/', ':', '@']
  pinnedPath := ['/', ':', '@']
  tag := ['/', ':', '@']
  digest := ['/', '@']

/-- The rules that are looked after. -/
def checked : Rules where
  path := ['/', ':', '@']
  pinnedPath := ['/', '@']
  tag := [':', '@']
  digest := ['@']

/-- There is a `:` before an `@`, or a `/` after a `:` or after an `@`. -/
def Misplaced (s : String) : Prop :=
  [':', '@'].Sublist s.toList ∨ [':', '/'].Sublist s.toList ∨ ['@', '/'].Sublist s.toList

instance (s : String) : Decidable (Misplaced s) := inferInstanceAs (Decidable (_ ∨ _ ∨ _))

section

variable {s path name : String} {ns : Option String} {r : ImageReference}
  {without without' : List Char}

theorem IsPart.weaken (h : IsPart without s) (hsub : without' ⊆ without) : IsPart without' s :=
  ⟨h.1, fun c hc => h.2 c (hsub hc)⟩

theorem WrittenPath.weaken (h : WrittenPath without path ns name) (hsub : without' ⊆ without) :
    WrittenPath without' path ns name := by
  cases h with
  | bare hname => exact .bare (hname.weaken hsub)
  | inNamespace hns hname => exact .inNamespace (hns.weaken hsub) (hname.weaken hsub)

theorem writtenPath_none_iff :
    WrittenPath without path none name ↔ path = name ∧ IsPart without name := by
  constructor
  · rintro ⟨⟩
    exact ⟨rfl, ‹_›⟩
  · rintro ⟨rfl, hname⟩
    exact .bare hname

theorem writtenPath_some_iff {n : String} :
    WrittenPath without path (some n) name ↔
      path = n ++ "/" ++ name ∧ IsPart without n ∧ IsPart without name := by
  constructor
  · rintro ⟨⟩
    exact ⟨rfl, ‹_›, ‹_›⟩
  · rintro ⟨rfl, hn, hname⟩
    exact .inNamespace hn hname

end

/-! ## What is read -/

section

variable {cs path name : List Char} {ns tag digest : Option (List Char)}

/-- The cut at the first `/`. -/
theorem splitPath_eq_some_iff :
    splitPath cs = some (ns, name) ↔ name ≠ [] ∧ '/' ∉ name ∧
      ((ns = none ∧ cs = name) ∨
        ∃ n, ns = some n ∧ n ≠ [] ∧ '/' ∉ n ∧ cs = n ++ '/' :: name) := by
  unfold splitPath
  cases hcut : Text.splitFirst '/' cs with
  | none =>
    have hcs : '/' ∉ cs := Text.splitFirst_eq_none_iff.mp hcut
    constructor
    · intro h
      dsimp only at h
      split at h
      · cases h
      · rename_i hgood
        cases h
        exact ⟨fun hn => hgood (.inl hn), hcs, .inl ⟨rfl, rfl⟩⟩
    · rintro ⟨hne, -, ⟨rfl, rfl⟩ | ⟨n, -, -, -, rfl⟩⟩
      · dsimp only
        rw [if_neg]
        simp [hne, hcs]
      · exact absurd (List.mem_append_right _ List.mem_cons_self) hcs
  | some cut =>
    obtain ⟨n, rest⟩ := cut
    obtain ⟨rfl, hn⟩ := Text.splitFirst_eq_some_iff.mp hcut
    constructor
    · intro h
      dsimp only at h
      split at h
      · cases h
      · rename_i hgood
        cases h
        rw [not_or, not_or] at hgood
        exact ⟨hgood.1, hgood.2.1, .inr ⟨n, rfl, fun he => hgood.2.2 (congrArg some he), hn, rfl⟩⟩
    · rintro ⟨hne, hname, ⟨rfl, rfl⟩ | ⟨m, rfl, hm, hm', heq⟩⟩
      · exact absurd (List.mem_append_right _ List.mem_cons_self) hname
      · cases hcut.symm.trans (Text.splitFirst_eq_some_iff.mpr ⟨heq, hm'⟩)
        dsimp only
        rw [if_neg]
        simp [hne, hname, hm]

/-- The cut at the first `@`, or else at the first `:`. -/
theorem splitVersion_eq_some_iff :
    splitVersion cs = some (path, tag, digest) ↔
      (tag = some "latest".toList ∧ digest = none ∧ cs = path ∧ ':' ∉ path ∧ '@' ∉ path) ∨
      (∃ t, tag = some t ∧ digest = none ∧ cs = path ++ ':' :: t ∧ ':' ∉ path ∧ '@' ∉ path ∧
        t ≠ [] ∧ ':' ∉ t ∧ '@' ∉ t) ∨
      (∃ d, tag = none ∧ digest = some d ∧ cs = path ++ '@' :: d ∧ '@' ∉ path ∧ d ≠ [] ∧
        '@' ∉ d) := by
  constructor
  · intro h
    unfold splitVersion at h
    split at h
    · rename_i p d hat
      obtain ⟨rfl, hp⟩ := Text.splitFirst_eq_some_iff.mp hat
      split at h
      · cases h
      · rename_i hgood
        cases h
        exact .inr (.inr ⟨d, rfl, rfl, rfl, hp, not_or.mp hgood⟩)
    · rename_i hat
      have hcs : '@' ∉ cs := Text.splitFirst_eq_none_iff.mp hat
      split at h
      · rename_i p t hcolon
        obtain ⟨rfl, hp⟩ := Text.splitFirst_eq_some_iff.mp hcolon
        rw [List.mem_append, List.mem_cons, not_or, not_or] at hcs
        split at h
        · cases h
        · rename_i hgood
          cases h
          obtain ⟨hne, ht⟩ := not_or.mp hgood
          exact .inr (.inl ⟨t, rfl, rfl, rfl, hp, hcs.1, hne, ht, hcs.2.2⟩)
      · rename_i hcolon
        cases h
        exact .inl ⟨rfl, rfl, rfl, Text.splitFirst_eq_none_iff.mp hcolon, hcs⟩
  · rintro (⟨rfl, rfl, rfl, hcolon, hat⟩ | ⟨t, rfl, rfl, rfl, hcolon, hat, hne, ht, ht'⟩ |
      ⟨d, rfl, rfl, rfl, hat, hne, hd⟩)
    · unfold splitVersion
      rw [Text.splitFirst_eq_none_iff.mpr hat, Text.splitFirst_eq_none_iff.mpr hcolon]
    · have hnone : '@' ∉ path ++ ':' :: t := by
        simp [hat, ht']
      unfold splitVersion
      rw [Text.splitFirst_eq_none_iff.mpr hnone, Text.splitFirst_eq_some_iff.mpr ⟨rfl, hcolon⟩]
      exact if_neg (not_or.mpr ⟨hne, ht⟩)
    · unfold splitVersion
      rw [Text.splitFirst_eq_some_iff.mpr ⟨rfl, hat⟩]
      exact if_neg (not_or.mpr ⟨hne, hd⟩)

end

section

variable {s path name : String} {ns : Option String} {r : ImageReference} {without : List Char}

/-- Reading is the one cut and then the other. -/
theorem parse_eq_ok_iff :
    parse s = .ok r ↔ ∃ path tag digest ns name,
      splitVersion s.toList = some (path, tag, digest) ∧ splitPath path = some (ns, name) ∧
      r = { ns := ns.map String.ofList, name := String.ofList name, tag := tag.map String.ofList,
            digest := digest.map String.ofList } := by
  unfold parse
  constructor
  · intro h
    split at h
    · cases h
    · rename_i path tag digest hversion
      split at h
      · cases h
      · rename_i ns name hpath
        cases h
        exact ⟨path, tag, digest, ns, name, hversion, hpath, rfl⟩
  · rintro ⟨path, tag, digest, ns, name, hversion, hpath, rfl⟩
    rw [hversion]
    dsimp only
    rw [hpath]

theorem isPart_iff :
    IsPart without s ↔ s.toList ≠ [] ∧ ∀ c ∈ without, c ∉ s.toList := by
  unfold IsPart
  rw [Ne, Ne, String.toList_eq_nil_iff]

/-- A path is cut at the first `/`; other characters are in it if they are in one of its parts. -/
theorem writtenPath_iff (hslash : '/' ∉ without) :
    WrittenPath ('/' :: without) path ns name ↔
      splitPath path.toList = some (ns.map String.toList, name.toList) ∧
        ∀ c ∈ without, c ∉ path.toList := by
  rw [splitPath_eq_some_iff]
  cases ns with
  | none =>
    rw [writtenPath_none_iff, isPart_iff]
    constructor
    · rintro ⟨rfl, hne, hfree⟩
      rw [List.forall_mem_cons] at hfree
      exact ⟨⟨hne, hfree.1, .inl ⟨rfl, rfl⟩⟩, hfree.2⟩
    · rintro ⟨⟨hne, hfree, ⟨-, heq⟩ | ⟨n, hn, -⟩⟩, hothers⟩
      · cases String.toList_injective heq
        exact ⟨rfl, hne, List.forall_mem_cons.mpr ⟨hfree, hothers⟩⟩
      · cases hn
  | some n =>
    rw [writtenPath_some_iff, isPart_iff, isPart_iff]
    have hmem : ∀ c ∈ without,
        (c ∉ (n ++ "/" ++ name).toList ↔ c ∉ n.toList ∧ c ∉ name.toList) := by
      intro c hc
      have hne : c ≠ '/' := fun heq => hslash (heq ▸ hc)
      simp [String.toList_append, hne]
    constructor
    · rintro ⟨rfl, ⟨hn, hnfree⟩, hname, hfree⟩
      rw [List.forall_mem_cons] at hnfree hfree
      refine ⟨⟨hname, hfree.1, .inr ⟨n.toList, rfl, hn, hnfree.1, ?_⟩⟩, fun c hc => ?_⟩
      · simp [String.toList_append]
      · exact (hmem c hc).mpr ⟨hnfree.2 c hc, hfree.2 c hc⟩
    · rintro ⟨⟨hname, hfree, ⟨hn, -⟩ | ⟨m, hm, hne, hmfree, heq⟩⟩, hothers⟩
      · cases hn
      · cases hm
        have hpath : path = n ++ "/" ++ name :=
          String.toList_injective (by simpa [String.toList_append] using heq)
        subst hpath
        have hparts := fun c hc => (hmem c hc).mp (hothers c hc)
        exact ⟨rfl, ⟨hne, List.forall_mem_cons.mpr ⟨hmfree, fun c hc => (hparts c hc).1⟩⟩, hname,
          List.forall_mem_cons.mpr ⟨hfree, fun c hc => (hparts c hc).2⟩⟩

/-- Two texts with a separator between them. -/
theorem toList_append_separator (a sep b : String) {c : Char} (hsep : sep.toList = [c]) :
    (a ++ sep ++ b).toList = a.toList ++ c :: b.toList := by
  rw [String.toList_append, String.toList_append, hsep, List.append_assoc]
  rfl

theorem exists_toList (cs : List Char) : ∃ s : String, s.toList = cs :=
  ⟨String.ofList cs, String.toList_ofList⟩

/-- What is read is written by the rules that are looked after. The proof takes the parts as
strings, so that the two sides of a cut are. -/
theorem written_of_parse (h : parse s = .ok r) : Written checked s r := by
  obtain ⟨path, tag, digest, ns, name, hversion, hpath, rfl⟩ := parse_eq_ok_iff.mp h
  obtain ⟨p, rfl⟩ := exists_toList path
  have hparts : ∀ {without : List Char}, '/' ∉ without → (∀ c ∈ without, c ∉ p.toList) →
      WrittenPath ('/' :: without) p (ns.map String.ofList) (String.ofList name) := by
    intro without hslash hfree
    refine (writtenPath_iff hslash).mpr ⟨?_, hfree⟩
    cases ns with
    | none => simpa using hpath
    | some n => simpa using hpath
  rcases splitVersion_eq_some_iff.mp hversion with
    ⟨rfl, rfl, heq, hcolon, hat⟩ | ⟨t, rfl, rfl, heq, hcolon, hat, hne, ht, ht'⟩ |
    ⟨d, rfl, rfl, heq, hat, hne, hd⟩
  · cases String.toList_injective heq
    exact .plain (hparts (by decide) (by simp [hcolon, hat]))
  · obtain ⟨t, rfl⟩ := exists_toList t
    cases String.toList_injective (heq.trans (toList_append_separator p ":" t rfl).symm)
    rw [Option.map_some, String.ofList_toList]
    exact .tagged (hparts (by decide) (by simp [hcolon, hat]))
      (isPart_iff.mpr ⟨hne, by simp [checked, ht, ht']⟩)
  · obtain ⟨d, rfl⟩ := exists_toList d
    cases String.toList_injective (heq.trans (toList_append_separator p "@" d rfl).symm)
    rw [Option.map_some, String.ofList_toList]
    exact .pinned (hparts (by decide) (by simp [hat]))
      (isPart_iff.mpr ⟨hne, by simp [checked, hd]⟩)

theorem map_ofList_map_toList (o : Option String) :
    (o.map String.toList).map String.ofList = o := by
  cases o <;> simp

/-- What is written by these rules is read. -/
theorem parse_of_written (h : Written checked s r) : parse s = .ok r := by
  rw [parse_eq_ok_iff]
  cases h with
  | @plain path name ns hpath =>
    obtain ⟨hcut, hfree⟩ := (writtenPath_iff (by decide)).mp hpath
    refine ⟨_, _, _, _, _, splitVersion_eq_some_iff.mpr (.inl ⟨rfl, rfl, rfl,
      hfree _ (by decide), hfree _ (by decide)⟩), hcut, ?_⟩
    rw [map_ofList_map_toList, String.ofList_toList]
    rfl
  | @tagged path name tag ns hpath htag =>
    obtain ⟨hcut, hfree⟩ := (writtenPath_iff (by decide)).mp hpath
    obtain ⟨hne, htag⟩ := isPart_iff.mp htag
    refine ⟨_, _, _, _, _, splitVersion_eq_some_iff.mpr (.inr (.inl ⟨tag.toList, rfl, rfl,
      toList_append_separator path ":" tag rfl, hfree _ (by decide), hfree _ (by decide), hne,
      htag _ (by decide), htag _ (by decide)⟩)), hcut, ?_⟩
    rw [map_ofList_map_toList, String.ofList_toList, Option.map_some, String.ofList_toList]
    rfl
  | @pinned path name digest ns hpath hdigest =>
    obtain ⟨hcut, hfree⟩ := (writtenPath_iff (by decide)).mp hpath
    obtain ⟨hne, hdigest⟩ := isPart_iff.mp hdigest
    refine ⟨_, _, _, _, _, splitVersion_eq_some_iff.mpr (.inr (.inr ⟨digest.toList, rfl, rfl,
      toList_append_separator path "@" digest rfl, hfree _ (by decide), hne,
      hdigest _ (by decide)⟩)), hcut, ?_⟩
    rw [map_ofList_map_toList, String.ofList_toList, Option.map_some, String.ofList_toList]
    rfl

/-- **What is read**: the grammar, but with colons in a path before a digest, and with slashes in
tags and digests. -/
theorem parse_eq_ok_iff_written : parse s = .ok r ↔ Written checked s r :=
  ⟨written_of_parse, parse_of_written⟩

end

/-! ## What is misplaced -/

/-- One character before another, in a text with another one in front. -/
theorem pair_sublist_cons_iff {a b c : Char} {l : List Char} :
    [a, b].Sublist (c :: l) ↔ (a = c ∧ b ∈ l) ∨ [a, b].Sublist l := by
  constructor
  · intro h
    cases h with
    | cons _ h => exact .inr h
    | cons_cons _ h => exact .inl ⟨rfl, List.singleton_sublist.mp h⟩
  · rintro (⟨rfl, hb⟩ | h)
    · exact (List.singleton_sublist.mpr hb).cons_cons a
    · exact h.cons c

/-- One character before another, in two texts put together. -/
theorem pair_sublist_append_iff {a b : Char} {l m : List Char} :
    [a, b].Sublist (l ++ m) ↔ [a, b].Sublist l ∨ (a ∈ l ∧ b ∈ m) ∨ [a, b].Sublist m := by
  induction l with
  | nil => simp
  | cons c l ih =>
    rw [List.cons_append, pair_sublist_cons_iff, pair_sublist_cons_iff, ih, List.mem_append,
      List.mem_cons]
    grind

theorem not_pair_sublist_of_notMem_left {a b : Char} {l : List Char} (h : a ∉ l) :
    ¬ [a, b].Sublist l := fun hsub => h (hsub.subset List.mem_cons_self)

theorem not_pair_sublist_of_notMem_right {a b : Char} {l : List Char} (h : b ∉ l) :
    ¬ [a, b].Sublist l := fun hsub => h (hsub.subset (List.mem_cons_of_mem a List.mem_cons_self))

section

variable {s path name : String} {ns : Option String} {r : ImageReference}

theorem not_misplaced_of_plain (hcolon : ':' ∉ s.toList) (hat : '@' ∉ s.toList) :
    ¬ Misplaced s := by
  rintro (h | h | h)
  · exact not_pair_sublist_of_notMem_left hcolon h
  · exact not_pair_sublist_of_notMem_left hcolon h
  · exact not_pair_sublist_of_notMem_left hat h

/-- A character that no part of a path is to have is not in the path. -/
theorem WrittenPath.notMem {without : List Char} {c : Char} (hslash : '/' ∉ without)
    (h : WrittenPath ('/' :: without) path ns name) (hc : c ∈ without) : c ∉ path.toList :=
  ((writtenPath_iff hslash).mp h).2 c hc

/-- With a tag, what can be misplaced is a slash in it. -/
theorem misplaced_tagged_iff {tag : String} (hpath : WrittenPath checked.path path ns name)
    (htag : IsPart checked.tag tag) : Misplaced (path ++ ":" ++ tag) ↔ '/' ∈ tag.toList := by
  have hcolon : ':' ∉ path.toList := hpath.notMem (by decide) (by decide)
  have hat : '@' ∉ path.toList := hpath.notMem (by decide) (by decide)
  have hcolon' : ':' ∉ tag.toList := htag.2 _ (by decide)
  have hat' : '@' ∉ tag.toList := htag.2 _ (by decide)
  unfold Misplaced
  rw [toList_append_separator path ":" tag (c := ':') rfl, pair_sublist_append_iff,
    pair_sublist_append_iff, pair_sublist_append_iff, pair_sublist_cons_iff,
    pair_sublist_cons_iff, pair_sublist_cons_iff]
  simp [hcolon, hat, hat', not_pair_sublist_of_notMem_left hcolon,
    not_pair_sublist_of_notMem_left hat, not_pair_sublist_of_notMem_left hcolon',
    not_pair_sublist_of_notMem_left hat']

/-- With a digest, it is a colon in the path or a slash in the digest. -/
theorem misplaced_pinned_iff {digest : String} (hpath : WrittenPath checked.pinnedPath path ns name)
    (hdigest : IsPart checked.digest digest) :
    Misplaced (path ++ "@" ++ digest) ↔ ':' ∈ path.toList ∨ '/' ∈ digest.toList := by
  have hat : '@' ∉ path.toList := hpath.notMem (by decide) (by decide)
  have hat' : '@' ∉ digest.toList := hdigest.2 _ (by decide)
  unfold Misplaced
  rw [toList_append_separator path "@" digest (c := '@') rfl, pair_sublist_append_iff,
    pair_sublist_append_iff, pair_sublist_append_iff, pair_sublist_cons_iff,
    pair_sublist_cons_iff, pair_sublist_cons_iff]
  -- A slash after a colon is in the digest, if the colon is not in the path.
  have hleft := fun h : [':', '/'].Sublist path.toList => h.subset (List.mem_cons_self)
  have hright := fun h : [':', '/'].Sublist digest.toList =>
    h.subset (List.mem_cons_of_mem ':' List.mem_cons_self)
  simp [hat, hat', not_pair_sublist_of_notMem_left hat, not_pair_sublist_of_notMem_left hat',
    not_pair_sublist_of_notMem_right hat, not_pair_sublist_of_notMem_right hat']
  grind

/-! ## The grammar and what is read -/

/-- A path that has no colon in it has none in its parts. -/
theorem WrittenPath.withoutColon (h : WrittenPath ['/', '@'] path ns name)
    (hcolon : ':' ∉ path.toList) : WrittenPath ['/', ':', '@'] path ns name := by
  obtain ⟨hcut, hfree⟩ := (writtenPath_iff (by decide)).mp h
  refine (writtenPath_iff (by decide)).mpr ⟨hcut, fun c hc => ?_⟩
  rcases List.mem_cons.mp hc with rfl | hc
  · exact hcolon
  · exact hfree c hc

theorem IsPart.withoutSlash {without : List Char} (h : IsPart without s) (hslash : '/' ∉ s.toList) :
    IsPart ('/' :: without) s := ⟨h.1, List.forall_mem_cons.mpr ⟨hslash, h.2⟩⟩

/-- **The grammar leaves out what is misplaced**, and nothing else. -/
theorem written_grammar_iff : Written grammar s r ↔ Written checked s r ∧ ¬ Misplaced s := by
  constructor
  · intro h
    cases h with
    | plain hpath =>
      exact ⟨.plain hpath, not_misplaced_of_plain (hpath.notMem (by decide) (by decide))
        (hpath.notMem (by decide) (by decide))⟩
    | @tagged path name tag ns hpath htag =>
      have hchecked : IsPart checked.tag tag := htag.weaken (by decide)
      refine ⟨.tagged hpath hchecked, ?_⟩
      rw [misplaced_tagged_iff hpath hchecked]
      exact htag.2 _ (by decide)
    | @pinned path name digest ns hpath hdigest =>
      have hpath' : WrittenPath checked.pinnedPath path ns name := hpath.weaken (by decide)
      have hdigest' : IsPart checked.digest digest := hdigest.weaken (by decide)
      refine ⟨.pinned hpath' hdigest', ?_⟩
      rw [misplaced_pinned_iff hpath' hdigest', not_or]
      exact ⟨hpath.notMem (by decide) (by decide), hdigest.2 _ (by decide)⟩
  · rintro ⟨h, hplaced⟩
    cases h with
    | plain hpath => exact .plain hpath
    | tagged hpath htag =>
      rw [misplaced_tagged_iff hpath htag] at hplaced
      exact .tagged hpath (htag.withoutSlash hplaced)
    | pinned hpath hdigest =>
      rw [misplaced_pinned_iff hpath hdigest, not_or] at hplaced
      exact .pinned (hpath.withoutColon hplaced.1) (hdigest.withoutSlash hplaced.2)

end

/-- A text that is not read is named by the failure. -/
theorem parse_cases (s : String) :
    (∃ r, parse s = .ok r) ∨ parse s = .error (.invalid (.imageReference s)) := by
  unfold parse
  split
  · exact .inr rfl
  · split
    · exact .inr rfl
    · exact .inl ⟨_, rfl⟩

/-- **When the grammar is followed.** A text is to be read exactly with the parts that the grammar
gives it, and refused if it gives none. This holds of it exactly if it is refused or nothing in it
is misplaced. In any case what is read is what the weaker rules allow, and a failure names the
text. -/
theorem parse_follows_grammar_iff (s : String) :
    ((∀ r, parse s = .ok r ↔ Written grammar s r) ↔
      parse s = .error (.invalid (.imageReference s)) ∨ ¬ Misplaced s) ∧
    (∀ r, parse s = .ok r ↔ Written checked s r) ∧
    ((∃ r, parse s = .ok r) ∨ parse s = .error (.invalid (.imageReference s))) := by
  refine ⟨?_, fun r => parse_eq_ok_iff_written, parse_cases s⟩
  have hread : ∀ r, Written grammar s r ↔ parse s = .ok r ∧ ¬ Misplaced s := fun r => by
    rw [written_grammar_iff, parse_eq_ok_iff_written]
  constructor
  · intro h
    rcases parse_cases s with ⟨r, hparse⟩ | hparse
    · exact .inr ((hread r).mp ((h r).mp hparse)).2
    · exact .inl hparse
  · rintro (h | h) r
    · rw [hread, h]
      exact iff_of_false (fun h => nomatch h) fun h => nomatch h.1
    · rw [hread, and_iff_left h]

/-- A tag before a digest becomes part of the name, which the grammar does not allow. -/
theorem parse_takes_tag_into_name :
    parse "nodejs:10@sha256:abc" =
      .ok { ns := none, name := "nodejs:10", tag := none, digest := some "sha256:abc" } ∧
    ∀ r, ¬ Written grammar "nodejs:10@sha256:abc" r :=
  ⟨rfl, fun _ h => (written_grammar_iff.mp h).2 (by decide)⟩

/-- A port of a registry is taken for the beginning of a tag, and a digest may go on like a path. -/
example : Misplaced "registry:5000/app" ∧
    parse "registry:5000/app" =
      .ok { ns := none, name := "registry", tag := some "5000/app", digest := none } ∧
    Misplaced "app@sha256/abc" ∧
    parse "app@sha256/abc" =
      .ok { ns := none, name := "app", tag := none, digest := some "sha256/abc" } :=
  ⟨by decide, rfl, by decide, rfl⟩

end InnerLoop.ImageReference
