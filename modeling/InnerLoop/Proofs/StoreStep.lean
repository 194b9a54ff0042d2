import InnerLoop.Cluster.Basic
import InnerLoop.Proofs.Refusal

/-!
# What every change of a store keeps

A store is changed by few operations, whoever makes the change. Versions are given out once, so two
looks at one name that see one version see one object, whatever was done in between.

- `StoreStep`: one change of a store.
- `Store.Sound`: objects are filed under their names, under versions given out before, and open
  watches have handles given out before. Every change keeps it.
- `Store.Since`: what has an old version was there before, as it is now.
- `Store.replace_of_since`: **optimistic locking**: a replacement that carries the version that was
  read takes the place of what was read.
- `StoreStep.deletionTold`: a watch on a name is told about a deletion only when the name is free.
-/

namespace InnerLoop

/-! ## Metadata -/

/-- An object that is given metadata has it. -/
class LawfulResource (κ : Type) [Resource κ] : Prop where
  metadata_withMetadata (m : ObjectMeta) (o : κ) :
    Resource.metadata (Resource.withMetadata m o) = m

instance : LawfulResource DeploymentConfig := ⟨fun _ _ => rfl⟩
instance : LawfulResource Claim := ⟨fun _ _ => rfl⟩

namespace Resource

variable {κ : Type} [Resource κ] [LawfulResource κ]

@[simp] theorem nameOf_withVersion (v : String) (o : κ) : nameOf (withVersion v o) = nameOf o := by
  unfold nameOf withVersion
  rw [LawfulResource.metadata_withMetadata]

@[simp] theorem versionOf_withVersion (v : String) (o : κ) :
    versionOf (withVersion v o) = some v := by
  unfold versionOf withVersion
  rw [LawfulResource.metadata_withMetadata]

end Resource

/-- Numbers are written differently. -/
theorem toString_nat_inj {m n : Nat} (h : toString m = toString n) : m = n := by
  have hdigits : Nat.toDigits 10 m = Nat.toDigits 10 n := by
    have := congrArg String.toList h
    rwa [Nat.toString_eq_repr, Nat.toString_eq_repr, Nat.toList_repr, Nat.toList_repr] at this
  rw [← Nat.ofDigitChars_ten_toDigits (n := m), hdigits, Nat.ofDigitChars_ten_toDigits]

variable {κ : Type} [Resource κ]

/-! ## The changes -/

/-- One change of a store, by whichever operation that does not fail. -/
inductive StoreStep (st : Store κ) : Store κ → Prop
  | upsert (o : κ) : StoreStep st (st.upsert o).2
  | create {o o' : κ} {st' : Store κ} (h : st.create o = .ok (o', st')) : StoreStep st st'
  | replace {o o' : κ} {st' : Store κ} (h : st.replace o = .ok (o', st')) : StoreStep st st'
  | modify {name : String} {f : κ → κ} {o' : κ} {st' : Store κ}
      (h : st.modify name f = .ok (o', st')) : StoreStep st st'
  | remove {name : String} {o : κ} {st' : Store κ} (h : st.remove name = .ok (o, st')) :
      StoreStep st st'
  | watch (s : Selector) : StoreStep st (st.watch s).2
  | watchLater (s : Selector) : StoreStep st (st.watchLater s).2
  | startWatch (handle : Nat) : StoreStep st (st.startWatch handle)
  | takeEvents (handle : Nat) : StoreStep st (st.takeEvents handle)
  | dropWatch (handle : Nat) : StoreStep st (st.dropWatch handle)
  | closeWatches : StoreStep st st.closeWatches

namespace Store

theorem get_eq_ok_iff {st : Store κ} {name : String} {o : κ} :
    st.get name = .ok o ↔ st.objects.find? name = some o := by
  unfold get
  cases st.objects.find? name with
  | none => exact ⟨fun h => (nomatch h), fun h => (nomatch h)⟩
  | some o' => exact ⟨fun h => by cases h; rfl, fun h => by cases h; rfl⟩

theorem get_eq_error_iff {st : Store κ} {name : String} {fault : ClusterFault} :
    st.get name = .error fault ↔
      fault = .notFound (Resource.kind κ) name ∧ st.contains name = false := by
  unfold get contains SortedMap.contains
  cases st.objects.find? name with
  | none => exact ⟨fun h => by cases h; exact ⟨rfl, rfl⟩, fun h => by rw [h.1]⟩
  | some o' => exact ⟨fun h => (nomatch h), fun h => (nomatch h.2)⟩

theorem create_eq_ok {st st' : Store κ} {o o' : κ} (h : st.create o = .ok (o', st')) :
    st.upsert o = (o', st') := by
  unfold create at h
  dsimp only at h
  split at h
  · cases h
  · exact Except.ok.inj h

/-- An object is replaced if the one of its name has the version that it carries, or if it carries
none. -/
theorem replace_eq_ok {st st' : Store κ} {o o' : κ} (h : st.replace o = .ok (o', st')) :
    st.upsert o = (o', st') ∧ ∃ current, st.objects.find? (Resource.nameOf o) = some current ∧
      ∀ v, Resource.versionOf o = some v → Resource.versionOf current = some v := by
  obtain ⟨current, hget, h⟩ := bind_eq_ok_iff.mp h
  rw [get_eq_ok_iff] at hget
  split at h
  case h_1 hv =>
    refine ⟨Except.ok.inj h, current, hget, ?_⟩
    intro v hv'
    rw [hv] at hv'
    cases hv'
  case h_2 sent hv =>
    by_cases hc : Resource.versionOf current = some sent
    · rw [if_pos hc] at h
      refine ⟨Except.ok.inj h, current, hget, ?_⟩
      intro v hv'
      rw [← hv', hv, hc]
    · rw [if_neg hc] at h
      cases h

/-- A replacement is refused for want of the object or for another version. -/
theorem replace_eq_error {st : Store κ} {o : κ} {fault : ClusterFault}
    (h : st.replace o = .error fault) : fault.isNotFound = true ∨ fault.isConflict = true := by
  rcases bind_eq_error_iff.mp h with h | ⟨current, -, h⟩
  · rw [(get_eq_error_iff.mp h).1]
    exact .inl rfl
  · split at h
    · cases h
    · split at h
      · cases h
      · cases h
        exact .inr rfl

theorem modify_eq_ok {st st' : Store κ} {name : String} {f : κ → κ} {o' : κ}
    (h : st.modify name f = .ok (o', st')) : ∃ o, st.upsert o = (o', st') := by
  obtain ⟨o, -, h⟩ := bind_eq_ok_iff.mp h
  exact ⟨f o, Except.ok.inj h⟩

/-- The store without the object of a name, and with the word of its deletion given out. -/
def without (st : Store κ) (name : String) (o : κ) : Store κ :=
  { st with objects := st.objects.erase name }.publish (.object .deleted o)

theorem remove_eq_ok {st st' : Store κ} {name : String} {o : κ}
    (h : st.remove name = .ok (o, st')) :
    st.objects.find? name = some o ∧ st' = st.without name o := by
  obtain ⟨o', hget, h⟩ := bind_eq_ok_iff.mp h
  cases h
  exact ⟨get_eq_ok_iff.mp hget, rfl⟩

/-- The watches of a store afterwards are watches that were there before, told nothing but that
objects are there, or are told that as new ones. -/
structure WatchesOnly (st st' : Store κ) : Prop where
  objects : st'.objects = st.objects
  nextVersion : st'.nextVersion = st.nextVersion
  nextHandle : st.nextHandle ≤ st'.nextHandle
  watches : ∀ h s', (h, s') ∈ st'.watches →
    (h = st.nextHandle ∧ h < st'.nextHandle) ∨
    ∃ s, (h, s) ∈ st.watches ∧ s'.selector = s.selector ∧
      ∀ o, .object .deleted o ∈ s'.queue → .object .deleted o ∈ s.queue

end Store

open Store

/-- What is told to a watch that starts is that objects are there. -/
theorem deleted_not_mem_added {α : Type} {o : α} {l : List α} :
    (.object .deleted o : WatchEvent α) ∉ l.map (.object .added) := by
  intro h
  obtain ⟨_, _, h⟩ := List.mem_map.mp h
  cases h

/-- A change files an object, removes one, or is about watches only. -/
theorem StoreStep.shape {st st' : Store κ} (h : StoreStep st st') :
    (∃ o, st' = (st.upsert o).2) ∨
    (∃ name o, st.objects.find? name = some o ∧ st' = st.without name o) ∨
    WatchesOnly st st' := by
  cases h with
  | upsert o => exact .inl ⟨o, rfl⟩
  | create h => exact .inl ⟨_, by rw [create_eq_ok h]⟩
  | replace h => exact .inl ⟨_, by rw [(replace_eq_ok h).1]⟩
  | modify h =>
    obtain ⟨o, h⟩ := modify_eq_ok h
    exact .inl ⟨o, by rw [h]⟩
  | remove h => exact .inr (.inl ⟨_, _, remove_eq_ok h⟩)
  | watch s =>
    refine .inr (.inr ⟨rfl, rfl, Nat.le_succ _, ?_⟩)
    intro h s' hs'
    rcases List.mem_append.mp hs' with hs' | hs'
    · exact .inr ⟨s', hs', rfl, fun _ ho => ho⟩
    · cases List.mem_singleton.mp hs'
      exact .inl ⟨rfl, Nat.lt_succ_self _⟩
  | watchLater s =>
    refine .inr (.inr ⟨rfl, rfl, Nat.le_succ _, ?_⟩)
    intro h s' hs'
    rcases List.mem_append.mp hs' with hs' | hs'
    · exact .inr ⟨s', hs', rfl, fun _ ho => ho⟩
    · cases List.mem_singleton.mp hs'
      exact .inl ⟨rfl, Nat.lt_succ_self _⟩
  | startWatch handle =>
    refine .inr (.inr ⟨rfl, rfl, Nat.le_refl _, ?_⟩)
    intro h s' hs'
    obtain ⟨⟨h₀, s⟩, hs, heq⟩ := List.mem_map.mp hs'
    split at heq
    · cases heq
      exact .inr ⟨s, hs, rfl, fun o ho => absurd ho deleted_not_mem_added⟩
    · cases heq
      exact .inr ⟨s', hs, rfl, fun _ ho => ho⟩
  | takeEvents handle =>
    refine .inr (.inr ⟨rfl, rfl, Nat.le_refl _, ?_⟩)
    intro h s' hs'
    obtain ⟨⟨h₀, s⟩, hs, heq⟩ := List.mem_map.mp hs'
    split at heq
    · cases heq
      exact .inr ⟨s, hs, rfl, fun o ho => absurd ho List.not_mem_nil⟩
    · cases heq
      exact .inr ⟨s', hs, rfl, fun _ ho => ho⟩
  | dropWatch handle =>
    refine .inr (.inr ⟨rfl, rfl, Nat.le_refl _, ?_⟩)
    intro h s' hs'
    exact .inr ⟨s', (List.mem_filter.mp hs').1, rfl, fun _ ho => ho⟩
  | closeWatches =>
    refine .inr (.inr ⟨rfl, rfl, Nat.le_refl _, ?_⟩)
    intro h s' hs'
    obtain ⟨⟨h₀, s⟩, hs, heq⟩ := List.mem_map.mp hs'
    cases heq
    exact .inr ⟨s, hs, rfl, fun _ ho => ho⟩

/-! ## Sound stores -/

namespace Store

/-- The books of a store are in order: objects are filed under their names, and versions and handles
were all given out before. -/
structure Sound (st : Store κ) : Prop where
  filed : ∀ name o, st.objects.find? name = some o → Resource.nameOf o = name
  versioned : ∀ name o, st.objects.find? name = some o →
    ∃ k < st.nextVersion, Resource.versionOf o = some (toString k)
  handles : ∀ h s, (h, s) ∈ st.watches → h < st.nextHandle

theorem Sound.empty : Sound ({} : Store κ) where
  filed _ _ h := nomatch h
  versioned _ _ h := nomatch h
  handles _ _ h := nomatch h

/-- What has a version given out before `st₀` was in `st₀` as it is. -/
structure Since (st₀ st : Store κ) : Prop where
  nextVersion : st₀.nextVersion ≤ st.nextVersion
  old : ∀ name o k, st.objects.find? name = some o → Resource.versionOf o = some (toString k) →
    k < st₀.nextVersion → st₀.objects.find? name = some o

theorem Since.refl (st : Store κ) : Since st st := ⟨Nat.le_refl _, fun _ _ _ h _ _ => h⟩

theorem Since.trans {st₀ st₁ st₂ : Store κ} (h₀ : Since st₀ st₁) (h₁ : Since st₁ st₂) :
    Since st₀ st₂ where
  nextVersion := Nat.le_trans h₀.nextVersion h₁.nextVersion
  old name o k ho hv hk :=
    h₀.old name o k (h₁.old name o k ho hv (Nat.lt_of_lt_of_le hk h₀.nextVersion)) hv hk

theorem find?_without (st : Store κ) (removed name : String) (o : κ) :
    (st.without removed o).objects.find? name =
      if name = removed then none else st.objects.find? name := by
  show (st.objects.erase removed).find? name = _
  rw [SortedMap.find?_erase]
  by_cases h : name = removed
  · rw [if_pos h, if_pos (Std.compare_eq_iff_eq.mpr h)]
  · rw [if_neg h, if_neg (mt Std.compare_eq_iff_eq.mp h)]

theorem find?_upsert [LawfulResource κ] (st : Store κ) (o : κ) (name : String) :
    (st.upsert o).2.objects.find? name =
      if name = Resource.nameOf o then some (Resource.withVersion (toString st.nextVersion) o)
      else st.objects.find? name := by
  show (st.objects.insert _ _).find? name = _
  rw [SortedMap.find?_insert, Resource.nameOf_withVersion]
  by_cases h : name = Resource.nameOf o
  · rw [if_pos h, if_pos (Std.compare_eq_iff_eq.mpr h)]
  · rw [if_neg h, if_neg (mt Std.compare_eq_iff_eq.mp h)]

/-- What telling the watches something does to them. -/
theorem mem_watches_publish {st : Store κ} {handle : Nat} {e : WatchEvent κ} {s' : Subscription κ}
    (h : (handle, s') ∈ (st.publish e).watches) :
    ∃ s, (handle, s) ∈ st.watches ∧ s'.selector = s.selector ∧
      (s'.queue = s.queue ∨ (s'.queue = s.queue ++ [e] ∧ concerns s.selector e = true)) := by
  obtain ⟨⟨h₀, s⟩, hs, heq⟩ := List.mem_map.mp h
  obtain ⟨rfl, rfl⟩ := Prod.mk.inj heq
  refine ⟨s, hs, ?_⟩
  unfold Subscription.tell
  split
  case isTrue hc =>
    rw [Bool.and_eq_true] at hc
    exact ⟨rfl, .inr ⟨rfl, hc.2⟩⟩
  case isFalse => exact ⟨rfl, .inl rfl⟩

theorem Sound.publish {st : Store κ} (hs : st.Sound) (e : WatchEvent κ) : (st.publish e).Sound where
  filed := hs.filed
  versioned := hs.versioned
  handles _ _ hm := by
    obtain ⟨s, hm, -⟩ := mem_watches_publish hm
    exact hs.handles _ s hm

theorem Sound.without {st : Store κ} (hs : st.Sound) (name : String) (o : κ) :
    (st.without name o).Sound where
  filed name' o' h := by
    rw [find?_without] at h
    split at h
    · cases h
    · exact hs.filed name' o' h
  versioned name' o' h := by
    rw [find?_without] at h
    split at h
    · cases h
    · exact hs.versioned name' o' h
  handles _ _ hm := by
    obtain ⟨s, hm, -⟩ := mem_watches_publish hm
    exact hs.handles _ s hm

variable [LawfulResource κ]

theorem Sound.upsert {st : Store κ} (hs : st.Sound) (o : κ) : (st.upsert o).2.Sound where
  filed name o' h := by
    rw [find?_upsert] at h
    split at h
    case isTrue hn =>
      cases h
      rw [Resource.nameOf_withVersion, hn]
    case isFalse => exact hs.filed name o' h
  versioned name o' h := by
    rw [find?_upsert] at h
    split at h
    case isTrue =>
      cases h
      exact ⟨st.nextVersion, Nat.lt_succ_self _, Resource.versionOf_withVersion _ _⟩
    case isFalse =>
      obtain ⟨k, hk, hv⟩ := hs.versioned name o' h
      exact ⟨k, Nat.lt_succ_of_lt hk, hv⟩
  handles _ _ hm := by
    obtain ⟨s, hm, -⟩ := mem_watches_publish hm
    exact hs.handles _ s hm

end Store

section

variable [LawfulResource κ] {st st' : Store κ}

/-- Every change keeps the books in order. -/
theorem StoreStep.sound (h : StoreStep st st') (hs : st.Sound) : st'.Sound := by
  rcases h.shape with ⟨o, rfl⟩ | ⟨name, o, -, rfl⟩ | hw
  · exact hs.upsert o
  · exact hs.without name o
  · refine { filed := ?_, versioned := ?_, handles := ?_ }
    · intro name o ho
      rw [hw.objects] at ho
      exact hs.filed name o ho
    · intro name o ho
      rw [hw.objects] at ho
      rw [hw.nextVersion]
      exact hs.versioned name o ho
    · intro h s' hm
      rcases hw.watches h s' hm with ⟨-, hlt⟩ | ⟨s, hm, -⟩
      · exact hlt
      · exact Nat.lt_of_lt_of_le (hs.handles h s hm) hw.nextHandle

/-- No change gives an old version to anything: what it files gets the next one. -/
theorem StoreStep.since (h : StoreStep st st') : Store.Since st st' := by
  rcases h.shape with ⟨o, rfl⟩ | ⟨removed, o, -, rfl⟩ | hw
  · refine ⟨Nat.le_succ _, ?_⟩
    intro name o' k ho hv hk
    rw [find?_upsert] at ho
    split at ho
    · cases ho
      rw [Resource.versionOf_withVersion] at hv
      have := toString_nat_inj (Option.some.inj hv)
      omega
    · exact ho
  · refine ⟨Nat.le_refl _, ?_⟩
    intro name o' k ho _ _
    rw [find?_without] at ho
    split at ho
    · cases ho
    · exact ho
  · refine ⟨Nat.le_of_eq hw.nextVersion.symm, ?_⟩
    intro name o k ho _ _
    rw [hw.objects] at ho
    exact ho

/-- **Optimistic locking**: what was read is still there when a replacement that carries its name
and version is accepted, and the replacement takes its place under a new version. -/
theorem Store.replace_of_since {st₀ : Store κ} {name : String} {current sent o : κ}
    (hs₀ : st₀.Sound) (hread : st₀.get name = .ok current) (hsince : Store.Since st₀ st)
    (hname : Resource.nameOf sent = Resource.nameOf current)
    (hversion : Resource.versionOf sent = Resource.versionOf current)
    (h : st.replace sent = .ok (o, st')) :
    st.get name = .ok current ∧ o = Resource.withVersion (toString st.nextVersion) sent ∧
      st'.get name = .ok o := by
  rw [get_eq_ok_iff] at hread
  obtain ⟨hupsert, found, hfound, hlock⟩ := replace_eq_ok h
  rw [hname, hs₀.filed name current hread] at hfound
  obtain ⟨k, hk, hv⟩ := hs₀.versioned name current hread
  have hold : st₀.objects.find? name = some found :=
    hsince.old name found k hfound (hlock _ (hversion.trans hv)) hk
  have hsame : found = current := Option.some.inj (hold.symm.trans hread)
  have ho : o = Resource.withVersion (toString st.nextVersion) sent :=
    (congrArg Prod.fst hupsert).symm
  have hst' : (st.upsert sent).2 = st' := congrArg Prod.snd hupsert
  refine ⟨get_eq_ok_iff.mpr (hsame ▸ hfound), ho, ?_⟩
  rw [get_eq_ok_iff, ← hst', find?_upsert, if_pos, ho]
  rw [hname, hs₀.filed name current hread]

end

/-! ## Watching for a deletion -/

namespace Store

/-- A handle was given out before, and a watch that has it is on the object of one name. -/
structure Watches (st : Store κ) (handle : Nat) (name : String) : Prop where
  given : handle < st.nextHandle
  about : ∀ s, (handle, s) ∈ st.watches → s.selector = .name name

/-- A watch was told that an object was deleted. -/
def DeletionTold (st : Store κ) (handle : Nat) : Prop :=
  ∃ s o, (handle, s) ∈ st.watches ∧ .object .deleted o ∈ s.queue

variable {st st' : Store κ} {handle : Nat} {name : String}

/-- A watch that is new is one of its name, and was not told of any deletion. -/
theorem watches_watch (hs : st.Sound) (name : String) :
    Watches (st.watch (.name name)).2 st.nextHandle name ∧
      ¬ DeletionTold (st.watch (.name name)).2 st.nextHandle := by
  have hnew : ∀ s, (st.nextHandle, s) ∈ (st.watch (.name name)).2.watches →
      s = { selector := .name name, queue := (st.list (.name name)).map (.object .added) } := by
    intro s hm
    rcases List.mem_append.mp hm with hm | hm
    · exact absurd (hs.handles _ _ hm) (Nat.lt_irrefl _)
    · cases List.mem_singleton.mp hm
      rfl
  refine ⟨⟨Nat.lt_succ_self _, ?_⟩, ?_⟩
  · intro s hm
    rw [hnew s hm]
  · rintro ⟨s, o, hm, ho⟩
    rw [hnew s hm] at ho
    exact deleted_not_mem_added ho

theorem Watches.publish (hw : Watches st handle name) (e : WatchEvent κ) :
    Watches (st.publish e) handle name where
  given := hw.given
  about s' hm := by
    obtain ⟨s, hm, hsel, -⟩ := mem_watches_publish hm
    rw [hsel]
    exact hw.about s hm

/-- Only the word of a deletion tells a watch of one, and only a watch that it concerns. -/
theorem deletionTold_publish {e : WatchEvent κ} (h : DeletionTold (st.publish e) handle) :
    DeletionTold st handle ∨
      ∃ s o, (handle, s) ∈ st.watches ∧ e = .object .deleted o ∧ inScope s.selector o = true := by
  obtain ⟨s', o, hm', ho⟩ := h
  obtain ⟨s, hm, -, hq | ⟨hq, hc⟩⟩ := mem_watches_publish hm'
  · exact .inl ⟨s, o, hm, hq ▸ ho⟩
  · rw [hq] at ho
    rcases List.mem_append.mp ho with ho | ho
    · exact .inl ⟨s, o, hm, ho⟩
    · cases List.mem_singleton.mp ho
      exact .inr ⟨s, o, hm, rfl, hc⟩

end Store

section

variable {st st' : Store κ} {handle : Nat} {name : String}

/-- No change gives a handle to another watch. -/
theorem StoreStep.watches (h : StoreStep st st') (hw : st.Watches handle name) :
    st'.Watches handle name := by
  rcases h.shape with ⟨o, rfl⟩ | ⟨removed, o, -, rfl⟩ | ho
  · refine Watches.publish ?_ _
    exact ⟨hw.given, hw.about⟩
  · refine Watches.publish ?_ _
    exact ⟨hw.given, hw.about⟩
  · refine ⟨Nat.lt_of_lt_of_le hw.given ho.nextHandle, ?_⟩
    intro s' hm
    rcases ho.watches _ s' hm with ⟨hnew, -⟩ | ⟨s, hm, hsel, -⟩
    · exact absurd hw.given (hnew ▸ Nat.lt_irrefl _)
    · rw [hsel]
      exact hw.about s hm

/-- A watch on a name that is newly told of a deletion finds the name free. -/
theorem StoreStep.deletionTold (h : StoreStep st st') (hs : st.Sound) (hw : st.Watches handle name)
    (ht : st'.DeletionTold handle) : st.DeletionTold handle ∨ st'.contains name = false := by
  rcases h.shape with ⟨o, rfl⟩ | ⟨removed, o, hfind, rfl⟩ | ho
  · rcases deletionTold_publish ht with ht | ⟨_, _, _, hdel, -⟩
    · exact .inl ht
    · -- An object that is filed is told of as added or as modified.
      have hchange := (WatchEvent.object.inj hdel).1
      split at hchange <;> cases hchange
  · rcases deletionTold_publish ht with ht | ⟨s, _, hm, hdel, hscope⟩
    · exact .inl ht
    · cases hdel
      have hsel : s.selector = .name name := hw.about s hm
      have hname : name = Resource.nameOf o := by
        unfold inScope at hscope
        rw [hsel] at hscope
        exact eq_of_beq hscope
      have hremoved : name = removed := hname.trans (hs.filed removed o hfind)
      refine .inr ?_
      show ((st.without removed o).objects.find? name).isSome = false
      rw [find?_without, if_pos hremoved]
      rfl
  · obtain ⟨s', o, hm, hmem⟩ := ht
    rcases ho.watches _ s' hm with ⟨hnew, -⟩ | ⟨s, hm, -, hq⟩
    · exact absurd hw.given (hnew ▸ Nat.lt_irrefl _)
    · exact .inl ⟨s, o, hm, hq o hmem⟩

end

end InnerLoop
