import InnerLoop.Proofs.Optimistic
import Mathlib.Data.List.Basic

/-!
# A watch replays its store

Whoever keeps a copy of what a watch tells has the objects that its selector means. The copy is made
of events alone, and the store is looked at once, when the watch is opened.

- `replay`: the objects that a list of events leaves.
- `Store.delivered`: what a watch is told in a run, taken or not.
- `Store.delivered_eq`: **nothing is lost, told twice or made up**: it is told of the objects that
  were there, then of all that the run did in its scope, in the order in which it was done.
- `Store.KeepsScope`: no object leaves the scope of a selector other than by being removed.
- `Store.replayed_history`: one event after the other, the copy follows the view of the store.
- `Store.watch_replays_store`: the copy of a watch that was opened at any time is what the store
  lists at every later time.

An object that comes into scope is told of as modified, and the copy takes it; one that leaves the
scope is not told of at all, so a copy would keep it.
-/

namespace InnerLoop

variable {κ : Type} [Resource κ]

/-! ## Copies -/

/-- What an event makes of a copy of the objects. -/
def WatchEvent.copyTo (copy : SortedMap String κ) : WatchEvent κ → SortedMap String κ
  | .object .deleted o => copy.erase (Resource.nameOf o)
  | .object _ o => copy.insert (Resource.nameOf o) o
  | .error _ => copy

/-- The objects that a list of events leaves. -/
def replay (events : List (WatchEvent κ)) : SortedMap String κ :=
  events.foldl WatchEvent.copyTo .empty

theorem WatchEvent.copyTo_of_ne_deleted {change : Change} (h : change ≠ .deleted)
    (copy : SortedMap String κ) (o : κ) :
    WatchEvent.copyTo copy (.object change o) = copy.insert (Resource.nameOf o) o := by
  cases change with
  | deleted => exact absurd rfl h
  | added => rfl
  | modified => rfl

/-- Nothing that happens to a watch is done: it is neither given up nor ended. -/
def StoreAction.Spares (own : Nat) : StoreAction κ → Prop
  | .dropWatch handle => own ≠ handle
  | .closeWatches => False
  | _ => True

instance (own : Nat) : (a : StoreAction κ) → Decidable (a.Spares own)
  | .write _ | .watch _ | .watchLater _ | .startWatch _ | .takeEvents _ => isTrue trivial
  | .dropWatch handle => inferInstanceAs (Decidable (own ≠ handle))
  | .closeWatches => isFalse id

namespace Store

variable {st st' : Store κ} {own : Nat} {s : Selector} {queue events : List (WatchEvent κ)}

/-! ## What is told -/

theorem concerns_object (s : Selector) (change : Change) (o : κ) :
    concerns s (.object change o) = inScope s o := rfl

/-- What was told to a watch and not yet taken. -/
def untaken (st : Store κ) (own : Nat) : List (WatchEvent κ) :=
  ((st.subscription? own).map (·.queue)).getD []

/-- What an action takes from a watch. -/
def takenBy (st : Store κ) (own : Nat) : StoreAction κ → List (WatchEvent κ)
  | .takeEvents handle => if own = handle then st.untaken own else []
  | _ => []

/-- What a watch is told in a run: what is taken on the way, and what is left at the end. -/
def delivered (st : Store κ) (own : Nat) : List (StoreAction κ) → List (WatchEvent κ)
  | [] => st.untaken own
  | a :: actions => st.takenBy own a ++ (st.after a).delivered own actions

theorem Hears.untaken (h : st.Hears own s queue) : st.untaken own = queue := by
  unfold Store.untaken
  rw [show st.subscription? own = _ from h]
  rfl

/-- A watch is told what an action did, if that concerns it. -/
theorem Acted.hears (h : Acted st events st') (hne : events ≠ []) (hl : st.Hears own s queue) :
    st'.Hears own s (queue ++ events.filter (concerns s)) := by
  cases h with
  | filed o =>
    have hl' : Hears { st with objects := (st.upsert o).2.objects
                               nextVersion := st.nextVersion + 1 } own s queue := hl
    rw [List.filter_cons, List.filter_nil]
    exact hears_publish hl'
  | @removed name o h =>
    have hl' : Hears { st with objects := st.objects.erase name } own s queue := hl
    rw [List.filter_cons, List.filter_nil]
    exact hears_publish hl'
  | aside => exact absurd rfl hne

/-- An action tells a watch what it did in its scope, behind what was told before, and does nothing
else to it than to take what was told. -/
theorem Hears.after {a : StoreAction κ} (ha : a.Spares own) (hl : st.Hears own s queue) :
    ∃ queue', (st.after a).Hears own s queue' ∧
      st.takenBy own a ++ queue' = queue ++ (st.reported a).filter (concerns s) := by
  have hopen : (st.subscription? own).isSome = true := Option.isSome_iff_exists.mpr ⟨_, hl⟩
  have hsame {st' : Store κ} (h : st'.subscription? own = st.subscription? own) :
      st'.Hears own s queue := h.trans hl
  cases a with
  | write w =>
    refine ⟨queue ++ (st.reported (.write w)).filter (concerns s), ?_, rfl⟩
    cases hgrant : st.grant w with
    | ok granted =>
      have hacted := st.acted (.write w)
      refine hacted.hears ?_ hl
      rw [(write_of_grant_ok hgrant).2]
      exact List.cons_ne_nil _ _
    | error fault =>
      obtain ⟨hafter, hreported⟩ := write_of_grant_error hgrant
      rw [hafter, hreported, List.filter_nil, List.append_nil]
      exact hl
  | watch s' => exact ⟨queue, hsame (lookup_watches_append hopen _ _), by simp [takenBy, reported]⟩
  | watchLater s' =>
    exact ⟨queue, hsame (lookup_watches_append hopen _ _), by simp [takenBy, reported]⟩
  | startWatch handle =>
    refine ⟨queue, ?_, by simp [takenBy, reported]⟩
    -- The watch has started already.
    show (st.startWatch handle).subscription? own = _
    rw [subscription?_startWatch, show st.subscription? own = _ from hl]
    simp
  | takeEvents handle =>
    by_cases hown : own = handle
    · subst hown
      refine ⟨[], ?_, by simp [takenBy, reported, hl.untaken]⟩
      show (st.takeEvents own).subscription? own = _
      rw [subscription?_takeEvents, show st.subscription? own = _ from hl]
      simp
    · refine ⟨queue, hsame ?_, by simp [takenBy, reported, hown]⟩
      show (st.takeEvents handle).subscription? own = _
      simp [subscription?_takeEvents, hown]
  | dropWatch handle =>
    exact ⟨queue, hsame (lookup_filter_of_ne ha st.watches), by simp [takenBy, reported]⟩
  | closeWatches => exact absurd ha id

/-- **Nothing is lost, told twice or made up**: a watch is told what the run does in its scope, in
the order in which it is done, behind what it was told before. -/
theorem delivered_eq {actions : List (StoreAction κ)} (hspares : ∀ a ∈ actions, a.Spares own)
    (hl : st.Hears own s queue) :
    st.delivered own actions = queue ++ (st.history actions).filter (concerns s) := by
  induction actions generalizing st queue with
  | nil => exact hl.untaken.trans (List.append_nil queue).symm
  | cons a actions ih =>
    obtain ⟨ha, hrest⟩ := List.forall_mem_cons.mp hspares
    obtain ⟨queue', hl', htaken⟩ := hl.after ha
    show st.takenBy own a ++ (st.after a).delivered own actions =
      queue ++ (st.reported a ++ (st.after a).history actions).filter (concerns s)
    rw [ih hrest hl', List.filter_append, ← List.append_assoc, htaken, List.append_assoc]

/-- A watch that is opened is told of the objects that are there. -/
theorem hears_watch (hs : st.Sound) (s : Selector) :
    (st.watch s).2.Hears (st.watch s).1 s ((st.list s).map (.object .added)) := by
  show (st.watches ++ _).lookup st.nextHandle = _
  rw [List.lookup_append, hs.lookup_nextHandle, Option.none_or, List.lookup_cons_self]

/-! ## The view -/

/-- The objects that a selector means, by their names. -/
def view (st : Store κ) (s : Selector) : SortedMap String κ :=
  st.objects.filter fun _ o => inScope s o

theorem values_view (st : Store κ) (s : Selector) : (st.view s).values = st.list s := by
  unfold view list SortedMap.values SortedMap.filter
  rw [List.filter_map]
  rfl

theorem find?_view (st : Store κ) (s : Selector) (name : String) :
    (st.view s).find? name = (st.objects.find? name).filter (inScope s) :=
  SortedMap.find?_filter _ _ _

/-- The copy of a watch that is opened is the view. -/
theorem replay_list (hs : st.Sound) (s : Selector) :
    replay ((st.list s).map (.object .added)) = st.view s := by
  have hfiled : ∀ e ∈ (st.view s).entries, Resource.nameOf e.2 = e.1 := by
    intro e he
    have hfind : (st.view s).find? e.1 = some e.2 := SortedMap.find?_eq_some_iff.mpr he
    rw [find?_view] at hfind
    exact hs.filed _ _ (Option.filter_eq_some_iff.mp hfind).1
  calc replay ((st.list s).map (.object .added))
      = (st.view s).entries.foldl
          (fun copy e => WatchEvent.copyTo copy (.object .added e.2)) .empty := by
        rw [← values_view]
        unfold replay SortedMap.values
        rw [List.map_map, List.foldl_map]
        rfl
    _ = (st.view s).entries.foldl (fun copy e => copy.insert e.1 e.2) .empty := by
        refine List.foldl_ext _ _ _ fun copy e he => ?_
        rw [← hfiled e he]
        rfl
    _ = st.view s := SortedMap.ofList_entries _

/-- No object leaves the scope of a selector, though it may go altogether. -/
def StaysInScope (s : Selector) (st st' : Store κ) : Prop :=
  ∀ name o o', st.objects.find? name = some o → st'.objects.find? name = some o' →
    inScope s o = true → inScope s o' = true

/-- No write of a run moves an object out of the scope of a selector. -/
def KeepsScope (s : Selector) : Store κ → List (StoreAction κ) → Prop
  | _, [] => True
  | st, a :: actions => StaysInScope s st (st.after a) ∧ KeepsScope s (st.after a) actions

theorem staysInScope_iff : StaysInScope s st st' ↔ ∀ e ∈ st.objects.entries,
    ∀ o' ∈ st'.objects.find? e.1, inScope s e.2 = true → inScope s o' = true := by
  constructor
  · intro h e he o' ho'
    exact h e.1 e.2 o' (SortedMap.find?_eq_some_iff.mpr he) ho'
  · intro h name o o' ho ho'
    exact h (name, o) (SortedMap.find?_eq_some_iff.mp ho) o' ho'

instance (s : Selector) (st st' : Store κ) : Decidable (StaysInScope s st st') :=
  decidable_of_iff _ staysInScope_iff.symm

instance KeepsScope.decidable (s : Selector) :
    (st : Store κ) → (actions : List (StoreAction κ)) → Decidable (KeepsScope s st actions)
  | _, [] => isTrue trivial
  | st, a :: actions =>
    have := KeepsScope.decidable s (st.after a) actions
    inferInstanceAs (Decidable (_ ∧ _))

/-- An object that is filed in the scope of a selector comes into its view. -/
theorem view_upsert_of_inScope [LawfulResource κ] {o : κ}
    (hin : inScope s (st.upsert o).1 = true) :
    (st.upsert o).2.view s = (st.view s).insert (Resource.nameOf o) (st.upsert o).1 := by
  ext name : 1
  rw [find?_view, find?_upsert]
  by_cases hname : name = Resource.nameOf o
  · rw [if_pos hname, hname, SortedMap.find?_insert_self]
    exact Option.filter_some_pos hin
  · rw [if_neg hname, SortedMap.find?_insert_of_ne _ _ hname, find?_view]

/-- An object that is filed out of scope, where nothing in scope was before, is not seen. -/
theorem view_upsert_of_not_inScope [LawfulResource κ] {o : κ}
    (hin : inScope s (st.upsert o).1 = false) (hscope : StaysInScope s st (st.upsert o).2) :
    (st.upsert o).2.view s = st.view s := by
  ext name : 1
  have hfind := find?_upsert st o name
  rw [find?_view, find?_view, hfind]
  by_cases hname : name = Resource.nameOf o
  · rw [if_pos hname] at hfind ⊢
    cases hold : st.objects.find? name with
    | none => exact Option.filter_some_neg hin
    | some before =>
      have hbefore : inScope s before = false := by
        cases h : inScope s before with
        | false => rfl
        | true => exact (hscope name before _ hold hfind h).symm.trans hin
      exact (Option.filter_some_neg hin).trans (Option.filter_some_neg hbefore).symm
  · rw [if_neg hname]

/-- An object that is removed goes from the view, if it was in it. -/
theorem view_without {removed : String} {o : κ} (hfind : st.objects.find? removed = some o) :
    (st.without removed o).view s =
      if inScope s o then (st.view s).erase removed else st.view s := by
  ext name : 1
  rw [find?_view, find?_without]
  by_cases hin : inScope s o = true
  · rw [if_pos hin, SortedMap.find?_erase, find?_view]
    by_cases hname : name = removed
    · rw [if_pos hname, if_pos (Std.compare_eq_iff_eq.mpr hname)]
      rfl
    · rw [if_neg hname, if_neg (mt Std.compare_eq_iff_eq.mp hname)]
  · rw [if_neg hin, find?_view]
    by_cases hname : name = removed
    · rw [if_pos hname, hname, hfind]
      exact (Option.filter_some_neg (Bool.eq_false_iff.mpr hin)).symm
    · rw [if_neg hname]

/-- The copy follows the view through an action. -/
theorem Acted.copied [LawfulResource κ] (h : Acted st events st') (hs : st.Sound)
    (hscope : StaysInScope s st st') :
    (events.filter (concerns s)).foldl WatchEvent.copyTo (st.view s) = st'.view s := by
  cases h with
  | filed o =>
    rw [List.filter_cons, List.filter_nil, concerns_object]
    by_cases hin : inScope s (st.upsert o).1 = true
    · rw [if_pos hin, view_upsert_of_inScope hin]
      show WatchEvent.copyTo (st.view s) (.object _ (st.upsert o).1) = _
      rw [WatchEvent.copyTo_of_ne_deleted (st.changeOf_ne_deleted _)]
      exact congrArg ((st.view s).insert · _) (Resource.nameOf_withVersion _ o)
    · rw [if_neg hin, view_upsert_of_not_inScope (Bool.eq_false_iff.mpr hin) hscope]
      rfl
  | @removed removed o hfind =>
    rw [List.filter_cons, List.filter_nil, concerns_object, view_without hfind]
    by_cases hin : inScope s o = true
    · rw [if_pos hin, if_pos hin]
      exact congrArg (st.view s).erase (hs.filed removed o hfind)
    · rw [if_neg hin, if_neg hin]
      rfl
  | aside hobjects =>
    show st.view s = st'.view s
    unfold view
    rw [hobjects]

/-- One event after the other, the copy follows the view. -/
theorem replayed_history [LawfulResource κ] (hs : st.Sound) {actions : List (StoreAction κ)}
    (hscope : KeepsScope s st actions) :
    ((st.history actions).filter (concerns s)).foldl WatchEvent.copyTo (st.view s) =
      (st.afterAll actions).view s := by
  induction actions generalizing st with
  | nil => rfl
  | cons a actions ih =>
    show ((st.reported a ++ (st.after a).history actions).filter (concerns s)).foldl _ _ = _
    rw [List.filter_append, List.foldl_append, (st.acted a).copied hs hscope.1]
    exact ih (sound_after hs a) hscope.2

/-! ## Every run -/

/-- What is reported is about objects, never the end of a watch. -/
theorem Acted.object_of_mem (h : Acted st events st') {e : WatchEvent κ} (he : e ∈ events) :
    ∃ change o, e = .object change o := by
  cases h with
  | filed o => exact ⟨_, _, List.mem_singleton.mp he⟩
  | removed _ => exact ⟨_, _, List.mem_singleton.mp he⟩
  | aside => cases he

theorem object_of_mem_history {e : WatchEvent κ} {actions : List (StoreAction κ)}
    (h : e ∈ st.history actions) : ∃ change o, e = .object change o := by
  induction actions generalizing st with
  | nil => cases h
  | cons a actions ih =>
    rcases List.mem_append.mp h with h | h
    · exact (st.acted a).object_of_mem h
    · exact ih h

/-- The versions of a part of what a run wrote ascend strictly as well. -/
theorem handedOut_filter_history [LawfulResource κ] (st : Store κ)
    (actions : List (StoreAction κ)) (p : WatchEvent κ → Bool) :
    ∃ versions : List Nat, versions.Pairwise (· < ·) ∧
      handedOut ((st.history actions).filter p) = versions.map fun v => some (toString v) := by
  obtain ⟨versions, hascend, -, hhanded⟩ := st.handedOut_history actions
  have hpart : (handedOut ((st.history actions).filter p)).Sublist
      (versions.map fun v => some (toString v)) := by
    rw [← hhanded]
    exact (List.filter_sublist.filterMap _).map _
  obtain ⟨part, hsublist, heq⟩ := List.sublist_map_iff.mp hpart
  exact ⟨part, hascend.sublist hsublist, heq⟩

/-- **A watch replays its store.** A watch is opened at any time of a run, by any selector, and is
then neither given up nor ended, and no write moves an object out of the scope of the selector. At
every later time: who copies what the watch was told has just what the store lists; the watch was
told of the objects that were there and then of all that was done in its scope, in this order; it
was told of nothing else; and what was written since carries ascending versions. -/
theorem watch_replays_store [LawfulResource κ] (earlier later : List (StoreAction κ)) (s : Selector)
    (hspares : ∀ a ∈ later, a.Spares (({} : Store κ).afterAll earlier).nextHandle)
    (hscope : KeepsScope s ((({} : Store κ).afterAll earlier).watch s).2 later) :
    let st : Store κ := ({} : Store κ).afterAll earlier
    let opened : Store κ := (st.watch s).2
    let told := opened.delivered (st.watch s).1 later
    let since := (opened.history later).filter (concerns s)
    (replay told).values = (opened.afterAll later).list s ∧
      told = (st.list s).map (.object .added) ++ since ∧
      (∀ e ∈ told, ∃ change o, e = .object change o ∧ inScope s o = true) ∧
      ∃ versions : List Nat, versions.Pairwise (· < ·) ∧
        handedOut since = versions.map fun v => some (toString v) := by
  intro st opened told since
  have hs : st.Sound := sound_afterAll .empty earlier
  have hopened : opened.Sound := (StoreStep.watch s).sound hs
  have htold : told = (st.list s).map (.object .added) ++ since :=
    delivered_eq hspares (hears_watch hs s)
  refine ⟨?_, htold, ?_, opened.handedOut_filter_history later _⟩
  · have hcopy : replay told = (opened.afterAll later).view s := by
      rw [htold]
      unfold replay
      rw [List.foldl_append]
      show since.foldl _ (replay ((st.list s).map (.object .added))) = _
      rw [replay_list hs]
      exact replayed_history hopened hscope
    rw [hcopy, values_view]
  · intro e he
    rw [htold] at he
    rcases List.mem_append.mp he with he | he
    · obtain ⟨o, ho, rfl⟩ := List.mem_map.mp he
      exact ⟨.added, o, rfl, (List.mem_filter.mp ho).2⟩
    · obtain ⟨he, hconcerns⟩ := List.mem_filter.mp he
      obtain ⟨change, o, rfl⟩ := object_of_mem_history he
      exact ⟨change, o, rfl, hconcerns⟩

/-- A claim of an application, or of none. -/
def labelledClaim (name : String) (app : Option String) : Claim :=
  { metadata := { name := some name, labels := app.map (SortedMap.singleton "app") } }

/-- While a watch on the claims of one application is open, a claim of this application is made and
changed, one of another is made, the one that was there first is removed, and what was told is taken
on the way. -/
theorem watch_replays_store_labelled :
    let made (name app : String) : StoreAction Claim :=
      .write (.create (labelledClaim name (some app)))
    let later : List (StoreAction Claim) :=
      [made "uploads" "shop", .watch (.name "orders"), .takeEvents 0, made "mails" "post",
        .write (.modify "uploads" fun c => { c with spec := some {} }), .write (.remove "orders"),
        .dropWatch 1]
    let opened : Store Claim :=
      ((({} : Store Claim).afterAll [made "orders" "shop"]).watch (.labels "app=shop")).2
    (replay (opened.delivered 0 later)).values = (opened.afterAll later).list (.labels "app=shop") ∧
      ((opened.afterAll later).list (.labels "app=shop")).map Resource.nameOf = ["uploads"] ∧
      (opened.delivered 0 later).length = 4 := by
  intro made later opened
  refine ⟨?_, by decide +kernel, by decide +kernel⟩
  exact (watch_replays_store [made "orders" "shop"] later (.labels "app=shop") (by decide +kernel)
    (by decide +kernel)).1

end Store

end InnerLoop
