import InnerLoop.Proofs.StoreRun

/-!
# Optimistic locking over whole runs

Versions are the numbers of the writes. A replacement that carries the version of an earlier read is
carried out exactly when nothing was written under the name since, whatever else was done to the
store, and whether or not the object was removed and made again under its name.

- `WatchEvent.written?`, `handedOut`: the versions that a run hands out.
- `Store.handedOut_history`: they ascend strictly, from the version that was next.
- `WatchEvent.isAbout`: a write was to the object of a name.
- `Store.unwritten_or_newer`: through a run, a name keeps its object, or what it has is newer.
- `Store.replace_read_iff`: a replacement is carried out if what was read is what is there.
- `Store.optimistic_locking`: all of it, for every run of a store that was empty.
-/

namespace InnerLoop

/-- The object that an event says was written. -/
def WatchEvent.written? {κ : Type} : WatchEvent κ → Option κ
  | .object .deleted _ => none
  | .object _ o => some o
  | .error _ => none

theorem WatchEvent.written?_of_ne_deleted {κ : Type} {change : Change} (h : change ≠ .deleted)
    (o : κ) : (WatchEvent.object change o).written? = some o := by
  cases change with
  | deleted => exact absurd rfl h
  | added => rfl
  | modified => rfl

variable {κ : Type} [Resource κ]

/-- The versions of the objects that were written. -/
def handedOut (events : List (WatchEvent κ)) : List (Option String) :=
  (events.filterMap (·.written?)).map Resource.versionOf

/-- Whether an event is about the object of a name. -/
def WatchEvent.isAbout (name : String) : WatchEvent κ → Bool
  | .object _ o => Resource.nameOf o == name
  | .error _ => false

namespace Store

theorem handedOut_append (events later : List (WatchEvent κ)) :
    handedOut (events ++ later) = handedOut events ++ handedOut later := by
  unfold handedOut
  rw [List.filterMap_append, List.map_append]

/-- An object is filed as a new one or in the place of another, never as one that went. -/
theorem changeOf_ne_deleted (st : Store κ) (o : κ) : st.changeOf o ≠ .deleted := by
  unfold changeOf
  split <;> decide

variable {st st' : Store κ} {events : List (WatchEvent κ)}

/-! ## Versions ascend -/

/-- An action hands out the next version, which is then used up, or none. -/
theorem Acted.handedOut [LawfulResource κ] (h : Acted st events st') :
    (handedOut events = [some (toString st.nextVersion)] ∧ st'.nextVersion = st.nextVersion + 1) ∨
      (handedOut events = [] ∧ st'.nextVersion = st.nextVersion) := by
  cases h with
  | filed o =>
    refine .inl ⟨?_, rfl⟩
    have hwritten := WatchEvent.written?_of_ne_deleted (st.changeOf_ne_deleted (st.upsert o).1)
      (st.upsert o).1
    simp only [InnerLoop.handedOut, List.filterMap_cons, hwritten, List.filterMap_nil,
      List.map_cons, List.map_nil]
    exact congrArg (fun v => [v]) (Resource.versionOf_withVersion _ o)
  | removed h => exact .inr ⟨rfl, rfl⟩
  | aside _ hversion => exact .inr ⟨rfl, hversion⟩

/-- The versions that a run hands out ascend strictly, from the one that was next. -/
theorem handedOut_history [LawfulResource κ] (st : Store κ) (actions : List (StoreAction κ)) :
    ∃ versions : List Nat, versions.Pairwise (· < ·) ∧ (∀ v ∈ versions, st.nextVersion ≤ v) ∧
      handedOut (st.history actions) = versions.map fun v => some (toString v) := by
  induction actions generalizing st with
  | nil => exact ⟨[], .nil, by simp, rfl⟩
  | cons a actions ih =>
    obtain ⟨versions, hascend, hfrom, hlater⟩ := ih (st.after a)
    show ∃ _, _ ∧ _ ∧ InnerLoop.handedOut (st.reported a ++ (st.after a).history actions) = _
    rw [handedOut_append, hlater]
    rcases (st.acted a).handedOut with ⟨hnow, hnext⟩ | ⟨hnow, hnext⟩
    · refine ⟨st.nextVersion :: versions, List.pairwise_cons.mpr ⟨?_, hascend⟩, ?_, ?_⟩
      · intro v hv
        have := hfrom v hv
        omega
      · intro v hv
        rcases List.mem_cons.mp hv with rfl | hv
        · exact Nat.le_refl _
        · have := hfrom v hv
          omega
      · rw [hnow]
        rfl
    · refine ⟨versions, hascend, ?_, ?_⟩
      · intro v hv
        have := hfrom v hv
        omega
      · rw [hnow]
        rfl

/-! ## What became of a name -/

/-- An object is newer than a store: its version was not given out yet. -/
def NewerThan (st : Store κ) (o : κ) : Prop :=
  ∃ v, st.nextVersion ≤ v ∧ Resource.versionOf o = some (toString v)

/-- A write to one name leaves the other names alone, and what it leaves under its own is newer. -/
theorem unwritten_or_newer_of_write {name written : String} {change : Change} {o : κ}
    {left : Option κ} (hname : Resource.nameOf o = written)
    (hfind : st'.objects.find? name = if name = written then left else st.objects.find? name)
    (hleft : ∀ o ∈ left, st.NewerThan o) :
    ((∀ e ∈ [WatchEvent.object change o], e.isAbout name = false) ∧
        st'.objects.find? name = st.objects.find? name) ∨
      ((∃ e ∈ [WatchEvent.object change o], e.isAbout name = true) ∧
        ∀ o, st'.objects.find? name = some o → st.NewerThan o) := by
  rw [hfind]
  by_cases hsame : name = written
  · rw [if_pos hsame]
    refine .inr ⟨⟨_, List.mem_singleton_self _, ?_⟩, hleft⟩
    exact beq_iff_eq.mpr (hname.trans hsame.symm)
  · rw [if_neg hsame]
    refine .inl ⟨?_, rfl⟩
    intro e he
    cases List.mem_singleton.mp he
    exact beq_eq_false_iff_ne.mpr fun h => hsame (h.symm.trans hname)

/-- Through an action a name keeps its object, or what it has is newer. -/
theorem Acted.unwritten_or_newer [LawfulResource κ] (h : Acted st events st') (hs : st.Sound)
    (name : String) :
    ((∀ e ∈ events, e.isAbout name = false) ∧
        st'.objects.find? name = st.objects.find? name) ∨
      ((∃ e ∈ events, e.isAbout name = true) ∧
        ∀ o, st'.objects.find? name = some o → st.NewerThan o) := by
  cases h with
  | filed o =>
    have hname : Resource.nameOf (st.upsert o).1 = Resource.nameOf o :=
      Resource.nameOf_withVersion _ o
    refine unwritten_or_newer_of_write hname (find?_upsert st o name) ?_
    intro o' ho'
    cases ho'
    exact ⟨st.nextVersion, Nat.le_refl _, Resource.versionOf_withVersion _ _⟩
  | @removed removed o hfind =>
    have hname : Resource.nameOf o = removed := hs.filed removed o hfind
    refine unwritten_or_newer_of_write hname (find?_without st removed name o) ?_
    intro o' ho'
    cases ho'
  | aside hobjects =>
    refine .inl ⟨?_, by rw [hobjects]⟩
    intro e he
    cases he

theorem Acted.nextVersion_le [LawfulResource κ] (h : Acted st events st') :
    st.nextVersion ≤ st'.nextVersion := by
  rcases h.handedOut with ⟨-, hnext⟩ | ⟨-, hnext⟩ <;> omega

/-- **Through a run a name keeps its object, or what it has is newer**: also when it was free for a
while in between. -/
theorem unwritten_or_newer [LawfulResource κ] (hs : st.Sound) (actions : List (StoreAction κ))
    (name : String) :
    ((∀ e ∈ st.history actions, e.isAbout name = false) ∧
        (st.afterAll actions).objects.find? name = st.objects.find? name) ∨
      ((∃ e ∈ st.history actions, e.isAbout name = true) ∧
        ∀ o, (st.afterAll actions).objects.find? name = some o → st.NewerThan o) := by
  induction actions generalizing st with
  | nil =>
    refine .inl ⟨?_, rfl⟩
    intro e he
    cases he
  | cons a actions ih =>
    have hacted := st.acted a
    have hle := hacted.nextVersion_le
    show ((∀ e ∈ st.reported a ++ (st.after a).history actions, _) ∧ _) ∨
      ((∃ e ∈ st.reported a ++ (st.after a).history actions, _) ∧ _)
    rw [afterAll_cons]
    -- What comes later has the last word; only if it leaves the name alone does this action count.
    rcases ih (sound_after hs a) with ⟨hnone, hkept⟩ | ⟨⟨e, he, habout⟩, hnewer⟩
    · rcases hacted.unwritten_or_newer hs name with ⟨hnone₀, hkept₀⟩ | ⟨⟨e, he, habout⟩, hnewer⟩
      · refine .inl ⟨?_, hkept.trans hkept₀⟩
        intro e he
        rcases List.mem_append.mp he with he | he
        · exact hnone₀ e he
        · exact hnone e he
      · refine .inr ⟨⟨e, List.mem_append_left _ he, habout⟩, ?_⟩
        intro o ho
        exact hnewer o (hkept ▸ ho)
    · refine .inr ⟨⟨e, List.mem_append_right _ he, habout⟩, ?_⟩
      intro o ho
      obtain ⟨v, hv, hversion⟩ := hnewer o ho
      exact ⟨v, Nat.le_trans hle hv, hversion⟩

/-! ## Replacements -/

/-- A replacement that carries a version is carried out exactly when the object of its name has this
version. -/
theorem attempt_replace_iff {sent : κ} {version : String}
    (hversion : Resource.versionOf sent = some version) :
    (∃ o, (st.attempt (.replace sent)).1 = .ok o) ↔
      ∃ current, st.objects.find? (Resource.nameOf sent) = some current ∧
        Resource.versionOf current = some version := by
  constructor
  · intro ⟨o, ho⟩
    cases hgrant : st.grant (.replace sent) with
    | error fault =>
      rw [attempt_of_grant_error hgrant] at ho
      cases ho
    | ok granted =>
      obtain ⟨-, current, hcurrent, hlock⟩ := replace_eq_ok hgrant
      exact ⟨current, hcurrent, hlock version hversion⟩
  · intro ⟨current, hcurrent, hsame⟩
    have hgrant : st.grant (.replace sent) = .ok (st.upsert sent) := by
      unfold grant replace
      dsimp only
      rw [get_eq_ok_iff.mpr hcurrent, hversion]
      exact if_pos hsame
    rw [attempt_of_grant_ok hgrant]
    exact ⟨_, rfl⟩

/-- **A replacement that carries the version of an earlier read** is carried out exactly when the
object still exists and nothing was written under its name since. -/
theorem replace_read_iff [LawfulResource κ] (hs : st.Sound) (later : List (StoreAction κ))
    {name : String} {read sent : κ} (hread : st.get name = .ok read)
    (hname : Resource.nameOf sent = name)
    (hversion : Resource.versionOf sent = Resource.versionOf read) :
    (∃ o, ((st.afterAll later).attempt (.replace sent)).1 = .ok o) ↔
      (st.afterAll later).contains name = true ∧
        ∀ e ∈ st.history later, e.isAbout name = false := by
  rw [get_eq_ok_iff] at hread
  obtain ⟨v, hv, hreadVersion⟩ := hs.versioned name read hread
  rw [attempt_replace_iff (hversion.trans hreadVersion), hname]
  rcases unwritten_or_newer hs later name with ⟨hnone, hkept⟩ | ⟨⟨e, he, habout⟩, hnewer⟩
  · have hcurrent : (st.afterAll later).objects.find? name = some read := hkept.trans hread
    constructor
    · intro _
      refine ⟨?_, hnone⟩
      show ((st.afterAll later).objects.find? name).isSome = true
      rw [hcurrent]
      rfl
    · intro _
      exact ⟨read, hcurrent, hreadVersion⟩
  · constructor
    · intro ⟨current, hcurrent, hcurrentVersion⟩
      -- What was read is older than the store, and what came since is not.
      obtain ⟨v', hv', hnew⟩ := hnewer current hcurrent
      have := toString_nat_inj (Option.some.inj (hcurrentVersion.symm.trans hnew))
      omega
    · intro ⟨_, hnone⟩
      rw [hnone e he] at habout
      cases habout

/-- **Optimistic locking**, for every run of a store that was empty. The versions that are handed
out ascend strictly, so none is handed out twice. Every object is filed under its own name. A write
that is given up leaves the store as it was: its objects, its versions and what its watches were
told. A replacement that carries the version of an earlier read of its name is carried out exactly
when the name still has an object and no write was to that name since the read. -/
theorem optimistic_locking [LawfulResource κ] (actions : List (StoreAction κ)) :
    let st : Store κ := ({} : Store κ).afterAll actions
    (∃ versions : List Nat, versions.Pairwise (· < ·) ∧
      handedOut (({} : Store κ).history actions) = versions.map fun v => some (toString v)) ∧
    (handedOut (({} : Store κ).history actions)).Nodup ∧
    (∀ name o, st.get name = .ok o → Resource.nameOf o = name) ∧
    (∀ w fault, (st.attempt w).1 = .error fault → (st.attempt w).2 = st) ∧
    (∀ later name read sent, st.get name = .ok read → Resource.nameOf sent = name →
      Resource.versionOf sent = Resource.versionOf read →
      ((∃ o, ((st.afterAll later).attempt (.replace sent)).1 = .ok o) ↔
        (st.afterAll later).contains name = true ∧
          ∀ e ∈ st.history later, e.isAbout name = false)) := by
  intro st
  have hs : st.Sound := sound_afterAll .empty actions
  obtain ⟨versions, hascend, -, hhanded⟩ := ({} : Store κ).handedOut_history actions
  refine ⟨⟨versions, hascend, hhanded⟩, ?_, ?_, ?_, ?_⟩
  · rw [hhanded]
    refine List.pairwise_map.mpr (hascend.imp ?_)
    intro v v' hlt heq
    have := toString_nat_inj (Option.some.inj heq)
    omega
  · intro name o ho
    exact hs.filed name o (get_eq_ok_iff.mp ho)
  · intro w fault h
    cases hgrant : st.grant w with
    | ok granted =>
      rw [attempt_of_grant_ok hgrant] at h
      cases h
    | error fault' => rw [attempt_of_grant_error hgrant]
  · intro later name read sent hread hname hversion
    exact replace_read_iff hs later hread hname hversion

/-- A claim as it is asked for, and as it is after it was filed first. -/
def savedClaim (version : Option String) : Claim :=
  { metadata := { name := some "orders", resourceVersion := version } }

/-- A claim that was removed and made again is another one: a replacement that carries the version
of the first is refused, though the name has an object, and is carried out as long as only watches
were opened since. -/
theorem optimistic_locking_recreated :
    let st := ({} : Store Claim).afterAll [.write (.create (savedClaim none))]
    let remade := st.afterAll [.write (.remove "orders"), .write (.create (savedClaim none))]
    let watched := st.afterAll [.watch (.name "orders")]
    (remade.contains "orders" = true ∧
        ¬ ∃ o, (remade.attempt (.replace (savedClaim (some "1")))).1 = .ok o) ∧
      ∃ o, (watched.attempt (.replace (savedClaim (some "1")))).1 = .ok o := by
  intro st remade watched
  obtain ⟨-, -, -, -, hreplace⟩ :=
    optimistic_locking [StoreAction.write (.create (savedClaim none))]
  have hread : st.get "orders" = .ok (savedClaim (some "1")) := by rfl
  refine ⟨⟨by decide +kernel, ?_⟩, ?_⟩
  · intro hcarried
    have hunwritten := ((hreplace [.write (.remove "orders"), .write (.create (savedClaim none))]
      "orders" _ (savedClaim (some "1")) hread rfl rfl).mp hcarried).2
    have hremoved := hunwritten (.object .deleted (savedClaim (some "1"))) (.head _)
    cases hremoved
  · refine (hreplace [.watch (.name "orders")] "orders" _ (savedClaim (some "1")) hread rfl rfl).mpr
      ⟨by decide +kernel, ?_⟩
    intro e he
    cases he

end Store

end InnerLoop
