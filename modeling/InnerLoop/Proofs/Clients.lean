import InnerLoop.Proofs.Others

/-!
# What a watch on a name hears of clients

Clients file and remove objects, and open watches of their own. A watch on a name that nobody else
touches is told of just that name, turn by turn and in the order of the turns.

- `Store.ClientStep`: what clients may do to a store, given a watch that is not theirs;
  `Store.ClientStep.shape`: they file an object or remove one, or nobody else notices.
- `Store.Listens`: an open watch on a name, with all that it was told.
- `Store.Tells`: what a turn tells about a name, and what that says of the object of this name.
- `Store.ClientStep.tells`: **nothing is missed and nothing made up**: a watch on a name is told
  what a turn tells about this name, and nothing else.
- `Store.listens_watch`: a watch that starts is told of the object that is there.
- `StoreTurn`, `World.storeTurn_of_answer`: what clients do in a world; the answer to any question
  of theirs is such a turn.
-/

namespace InnerLoop

instance : LawfulResource Build := ⟨fun _ _ => rfl⟩

/-- A look-up in a list whose keys are kept finds what became of the entry. -/
theorem lookup_map_of_fst {α β : Type} [BEq α] [LawfulBEq α] {f : α × β → α × β}
    (hf : ∀ p, (f p).1 = p.1) (l : List (α × β)) (k : α) :
    (l.map f).lookup k = (l.lookup k).map fun b => (f (k, b)).2 := by
  induction l with
  | nil => rfl
  | cons p l ih =>
    obtain ⟨k', b⟩ := p
    have hcons : f (k', b) = (k', (f (k', b)).2) := Prod.ext (hf _) rfl
    rw [List.map_cons, hcons, List.lookup_cons, List.lookup_cons]
    by_cases hk : k = k'
    · subst hk
      rw [beq_self_eq_true]
      rfl
    · rw [beq_eq_false_iff_ne.mpr hk]
      exact ih

/-- A look-up does not see other entries go. -/
theorem lookup_filter_of_ne {β : Type} {k k' : Nat} (hk : k ≠ k') (l : List (Nat × β)) :
    (l.filter fun p => p.1 ≠ k').lookup k = l.lookup k := by
  induction l with
  | nil => rfl
  | cons p l ih =>
    obtain ⟨j, b⟩ := p
    by_cases hj : j = k'
    · rw [List.filter_cons_of_neg (by simpa using hj), ih, List.lookup_cons,
        beq_eq_false_iff_ne.mpr (hj ▸ hk)]
    · rw [List.filter_cons_of_pos (by simpa using hj), List.lookup_cons, List.lookup_cons, ih]

namespace Store

variable {κ : Type} [Resource κ] {st st' : Store κ} {own : Nat} {name : String}
  {queue : List (WatchEvent κ)}

/-! ## What clients do -/

/-- What clients may do to a store in one turn, given a watch `own` that is not theirs. Whatever
creates, replaces or changes an object files it. -/
inductive ClientStep (own : Nat) (st : Store κ) : Store κ → Prop
  | idle : ClientStep own st st
  | file (o : κ) : ClientStep own st (st.upsert o).2
  | remove {name : String} {o : κ} (h : st.objects.find? name = some o) :
      ClientStep own st (st.without name o)
  | watch (s : Selector) : ClientStep own st (st.watch s).2
  | watchLater (s : Selector) : ClientStep own st (st.watchLater s).2
  | startWatch {handle : Nat} (h : own ≠ handle) : ClientStep own st (st.startWatch handle)
  | takeEvents {handle : Nat} (h : own ≠ handle) : ClientStep own st (st.takeEvents handle)
  | dropWatch {handle : Nat} (h : own ≠ handle) : ClientStep own st (st.dropWatch handle)

theorem ClientStep.sound [LawfulResource κ] (h : ClientStep own st st') (hs : st.Sound) :
    st'.Sound := by
  cases h with
  | idle => exact hs
  | file o => exact hs.upsert o
  | remove h => exact hs.without _ _
  | watch s => exact (StoreStep.watch s).sound hs
  | watchLater s => exact (StoreStep.watchLater s).sound hs
  | startWatch h => exact (StoreStep.startWatch _).sound hs
  | takeEvents h => exact (StoreStep.takeEvents _).sound hs
  | dropWatch h => exact (StoreStep.dropWatch _).sound hs

/-! ## What is heard of it -/

/-- A watch is open, is on what a selector means, and was told something that is not yet taken. -/
def Hears (st : Store κ) (own : Nat) (s : Selector) (queue : List (WatchEvent κ)) : Prop :=
  st.subscription? own = some { selector := s, queue }

/-- A watch is open, is on a name, and was told something. -/
def Listens (st : Store κ) (own : Nat) (name : String) (queue : List (WatchEvent κ)) : Prop :=
  st.subscription? own = some { selector := .name name, queue }

/-- What one turn tells about a name. -/
inductive Tells (name : String) (st st' : Store κ) : List (WatchEvent κ) → Prop
  | nothing (h : st'.objects.find? name = st.objects.find? name) : Tells name st st' []
  | filed {change : Change} {o : κ} (hchange : change ≠ .deleted)
      (h : st'.objects.find? name = some o) : Tells name st st' [.object change o]
  | removed {o : κ} (hbefore : st.objects.find? name = some o)
      (h : st'.objects.find? name = none) : Tells name st st' [.object .deleted o]

theorem subscription?_publish (st : Store κ) (e : WatchEvent κ) (handle : Nat) :
    (st.publish e).subscription? handle = (st.subscription? handle).map (Subscription.tell e) :=
  lookup_map_of_fst (f := fun w => (w.1, Subscription.tell e w.2)) (fun _ => rfl) st.watches handle

theorem subscription?_startWatch (st : Store κ) (handle own : Nat) :
    (st.startWatch handle).subscription? own = (st.subscription? own).map fun s =>
      if own = handle ∧ !s.started ∧ s.live then
        { s with started := true, queue := (st.list s.selector).map (.object .added) }
      else s := by
  show (st.watches.map _).lookup own = _
  rw [lookup_map_of_fst (by intro p; dsimp only; split <;> rfl)]
  refine congrArg (Option.map · _) (funext fun s => ?_)
  dsimp only
  split <;> rfl

theorem subscription?_takeEvents (st : Store κ) (handle own : Nat) :
    (st.takeEvents handle).subscription? own = (st.subscription? own).map fun s =>
      if own = handle then { s with queue := [] } else s := by
  show (st.watches.map _).lookup own = _
  rw [lookup_map_of_fst (by intro p; dsimp only; split <;> rfl)]
  refine congrArg (Option.map · _) (funext fun s => ?_)
  dsimp only
  split <;> rfl

/-- A watch is told of what concerns its selector. -/
theorem hears_publish {s : Selector} {e : WatchEvent κ} (h : st.Hears own s queue) :
    (st.publish e).Hears own s (queue ++ if concerns s e then [e] else []) := by
  unfold Hears at h ⊢
  rw [subscription?_publish, h]
  by_cases hc : concerns s e = true
  · rw [if_pos hc]
    exact congrArg some (if_pos hc)
  · rw [if_neg hc, List.append_nil]
    exact congrArg some (if_neg hc)

/-- A watch on a name is told of what concerns the name. -/
theorem listens_publish {e : WatchEvent κ} (h : st.Listens own name queue) :
    (st.publish e).Listens own name
      (queue ++ if concerns (.name name) e then [e] else []) :=
  hears_publish h

/-- What is told of an object concerns the name of that object. -/
theorem concerns_name_iff {change : Change} {o : κ} :
    concerns (.name name) (.object change o) = true ↔ name = Resource.nameOf o := by
  show (name == Resource.nameOf o) = true ↔ _
  exact beq_iff_eq

/-- Another watch that is opened comes behind those that are open. -/
theorem lookup_watches_append (h : (st.subscription? own).isSome = true) (handle : Nat)
    (s : Subscription κ) : (st.watches ++ [(handle, s)]).lookup own = st.subscription? own := by
  obtain ⟨s₀, hs₀⟩ := Option.isSome_iff_exists.mp h
  rw [List.lookup_append, show st.watches.lookup own = some s₀ from hs₀]
  exact hs₀.symm

/-- Clients file an object, remove one, or do nothing that concerns objects or a watch that is not
theirs. -/
theorem ClientStep.shape (h : ClientStep own st st')
    (hopen : (st.subscription? own).isSome = true) :
    (∃ o, st' = (st.upsert o).2) ∨
    (∃ name o, st.objects.find? name = some o ∧ st' = st.without name o) ∨
    (st'.objects = st.objects ∧ st'.subscription? own = st.subscription? own) := by
  cases h with
  | idle => exact .inr (.inr ⟨rfl, rfl⟩)
  | file o => exact .inl ⟨o, rfl⟩
  | remove hfind => exact .inr (.inl ⟨_, _, hfind, rfl⟩)
  | watch s => exact .inr (.inr ⟨rfl, lookup_watches_append hopen _ _⟩)
  | watchLater s => exact .inr (.inr ⟨rfl, lookup_watches_append hopen _ _⟩)
  | @startWatch handle hne =>
    refine .inr (.inr ⟨rfl, ?_⟩)
    simp only [subscription?_startWatch, hne, false_and, if_false, Option.map_id']
  | @takeEvents handle hne =>
    refine .inr (.inr ⟨rfl, ?_⟩)
    simp only [subscription?_takeEvents, if_neg hne, Option.map_id']
  | dropWatch hne => exact .inr (.inr ⟨rfl, lookup_filter_of_ne hne st.watches⟩)

/-- Clients tell a watch that is not theirs of one event at most, and do nothing else to it. -/
theorem ClientStep.subscription?_cases (h : ClientStep own st st')
    (hopen : (st.subscription? own).isSome = true) :
    st'.subscription? own = st.subscription? own ∨
      ∃ e, st'.subscription? own = (st.subscription? own).map (Subscription.tell e) := by
  rcases h.shape hopen with ⟨o, rfl⟩ | ⟨removed, o, -, rfl⟩ | ⟨-, hsame⟩
  · exact .inr ⟨_, subscription?_publish _ _ own⟩
  · exact .inr ⟨_, subscription?_publish _ _ own⟩
  · exact .inl hsame

/-- Clients leave a watch open that is not theirs. -/
theorem ClientStep.isSome_subscription? (h : ClientStep own st st')
    (hopen : (st.subscription? own).isSome = true) : (st'.subscription? own).isSome = true := by
  rcases h.subscription?_cases hopen with hsame | ⟨e, htold⟩
  · rw [hsame]
    exact hopen
  · rw [htold, Option.isSome_map]
    exact hopen

/-- **Nothing is missed and nothing made up**: a watch on a name is told what a turn tells about
this name, behind all that it was told before. -/
theorem ClientStep.tells [LawfulResource κ] (h : ClientStep own st st') (hs : st.Sound)
    (hl : st.Listens own name queue) :
    ∃ told, Tells name st st' told ∧ st'.Listens own name (queue ++ told) := by
  have hopen : (st.subscription? own).isSome = true := Option.isSome_iff_exists.mpr ⟨_, hl⟩
  rcases h.shape hopen with ⟨o, rfl⟩ | ⟨removed, o, hremoved, rfl⟩ | ⟨hobjects, hsame⟩
  · have hl' : Listens { st with objects := (st.upsert o).2.objects
                                 nextVersion := st.nextVersion + 1 } own name queue := hl
    refine ⟨_, ?_, listens_publish hl'⟩
    have hfind := find?_upsert st o name
    by_cases hname : name = Resource.nameOf o
    · rw [if_pos hname] at hfind
      rw [if_pos (concerns_name_iff.mpr (by rw [Resource.nameOf_withVersion]; exact hname))]
      refine .filed ?_ hfind
      split <;> exact fun hc => nomatch hc
    · rw [if_neg hname] at hfind
      rw [if_neg fun hc => hname (by rw [concerns_name_iff.mp hc, Resource.nameOf_withVersion])]
      exact .nothing hfind
  · have hl' : Listens { st with objects := st.objects.erase removed } own name queue := hl
    refine ⟨_, ?_, listens_publish hl'⟩
    have hfind := find?_without st removed name o
    have hname : Resource.nameOf o = removed := hs.filed removed o hremoved
    by_cases hsame : name = removed
    · rw [if_pos hsame] at hfind
      rw [if_pos (concerns_name_iff.mpr (hsame.trans hname.symm))]
      exact .removed (hsame ▸ hremoved) hfind
    · rw [if_neg hsame] at hfind
      rw [if_neg fun hc => hsame ((concerns_name_iff.mp hc).trans hname)]
      exact .nothing hfind
  · -- What is done to the watches of others is not heard.
    refine ⟨[], .nothing (by rw [hobjects]), ?_⟩
    rw [List.append_nil]
    exact hsame.trans hl

/-! ## The start of a watch -/

/-- A selector by name means the object that is filed under the name. -/
theorem mem_list_name_iff (hs : st.Sound) {o : κ} :
    o ∈ st.list (.name name) ↔ st.objects.find? name = some o := by
  unfold list SortedMap.values
  rw [List.mem_filter, List.mem_map]
  constructor
  · rintro ⟨⟨⟨k, o'⟩, hmem, rfl⟩, hscope⟩
    have hfind : st.objects.find? k = some o' := SortedMap.find?_eq_some_iff.mpr hmem
    have hname : name = Resource.nameOf o' := beq_iff_eq.mp hscope
    rw [hname, hs.filed k o' hfind]
    exact hfind
  · intro hfind
    refine ⟨⟨(name, o), SortedMap.find?_eq_some_iff.mp hfind, rfl⟩, ?_⟩
    exact beq_iff_eq.mpr (hs.filed name o hfind).symm

/-- The first answer about the objects of a name is the one about the object of that name. -/
theorem findSome?_list_name {β : Type} (hs : st.Sound) (f : κ → Option β) :
    (st.list (.name name)).findSome? f = (st.objects.find? name).bind f := by
  have hmem : ∀ o, o ∈ st.list (.name name) ↔ st.objects.find? name = some o := fun _ =>
    mem_list_name_iff hs
  generalize st.list (.name name) = l at hmem
  cases hfind : st.objects.find? name with
  | none =>
    refine List.findSome?_eq_none_iff.mpr fun o ho => ?_
    rw [(hmem o).mp ho] at hfind
    cases hfind
  | some o =>
    have hall : ∀ x ∈ l, x = o := fun x hx =>
      Option.some.inj (((hmem x).mp hx).symm.trans hfind)
    have ho : o ∈ l := (hmem o).mpr hfind
    show l.findSome? f = f o
    cases hf : f o with
    | none =>
      refine List.findSome?_eq_none_iff.mpr fun x hx => ?_
      rw [hall x hx, hf]
    | some b =>
      cases l with
      | nil => cases ho
      | cons x r =>
        rw [List.findSome?_cons, hall x List.mem_cons_self, hf]

/-- No open watch has the next handle. -/
theorem Sound.lookup_nextHandle (hs : st.Sound) : st.watches.lookup st.nextHandle = none := by
  refine List.lookup_eq_none_iff.mpr fun p hp => ?_
  have hlt := hs.handles p.1 p.2 hp
  exact bne_iff_ne.mpr (by omega)

/-- A watch on a name that starts is told of the object that is there. -/
theorem listens_watch (hs : st.Sound) (name : String) :
    (st.watch (.name name)).2.Listens st.nextHandle name
      ((st.list (.name name)).map (.object .added)) := by
  show (st.watches ++ _).lookup st.nextHandle = _
  rw [List.lookup_append, hs.lookup_nextHandle, Option.none_or, List.lookup_cons_self]

end Store

/-! ## Turns of clients -/

/-- What clients do to the store of a kind in one turn, given a watch that is not theirs. -/
def StoreTurn (k : Kind) (own : Nat) (w w' : World) : Prop :=
  (w.cluster.store k).ClientStep own (w'.cluster.store k)

/-- The question does not end a watch. -/
def Request.Spares (k : Kind) (own : Nat) : Request → Prop
  | .dropWatch k' handle => k = k' → own ≠ handle
  | .await k' handle _ _ => k = k' → own ≠ handle
  | .joinPodWait .. => k ≠ .pod
  | _ => True

namespace StoreTurn

variable {k : Kind} {own : Nat} {w w' : World}

theorem same (h : w'.cluster.store k = w.cluster.store k) : StoreTurn k own w w' := by
  unfold StoreTurn
  rw [h]
  exact .idle

/-- What is done to the store of one kind is not done to another. -/
theorem withStore {k' : Kind} {s : Store k'.Object}
    (h : ∀ hk : k = k', (w.cluster.store k).ClientStep own (hk ▸ s)) :
    StoreTurn k own w (w.modifyCluster (·.withStore k' s)) := by
  by_cases hk : k = k'
  · subst hk
    have hsame : (w.cluster.withStore k s).store k = s := by cases k <;> rfl
    unfold StoreTurn
    rw [show (w.modifyCluster (·.withStore k s)).cluster.store k = s from hsame]
    exact h rfl
  · refine same ?_
    show (w.cluster.withStore k' s).store k = w.cluster.store k
    cases k <;> cases k' <;> first | rfl | exact absurd rfl hk

theorem dropWatch {k' : Kind} {handle : Nat} (h : k = k' → own ≠ handle) :
    StoreTurn k own w (w.dropWatch k' handle) := by
  refine withStore fun hk => ?_
  subst hk
  exact .dropWatch (h rfl)

/-- Background waits wait for pods alone. -/
theorem finishJobs (hk : k ≠ .pod) (w : World) : StoreTurn k own w w.finishJobs := by
  have hsame : ∀ (w : World) (job : Nat),
      (w.finishJob job).cluster.store k = w.cluster.store k := by
    intro w job
    unfold World.finishJob
    split
    · split
      · cases k with
        | pod => exact absurd rfl hk
        | _ => rfl
      · rfl
    · rfl
  refine same ?_
  unfold World.finishJobs
  generalize w.jobs.map (·.1) = jobs
  induction jobs generalizing w with
  | nil => rfl
  | cons job jobs ih => exact (ih _).trans (hsame w job)

end StoreTurn

namespace Store.ClientStep

variable {κ : Type} [Resource κ] {st st' : Store κ} {own : Nat}

theorem of_upsert {o o' : κ} (h : st.upsert o = (o', st')) : st.ClientStep own st' := by
  have hst' : (st.upsert o).2 = st' := congrArg Prod.snd h
  exact hst' ▸ .file o

theorem of_remove {name : String} {o : κ} (h : st.remove name = .ok (o, st')) :
    st.ClientStep own st' := by
  obtain ⟨hfind, rfl⟩ := remove_eq_ok h
  exact .remove hfind

end Store.ClientStep

namespace Cluster

variable {k : Kind} {own : Nat} (c : Cluster)

theorem clientStep_updateWorkload (d : DeploymentConfig) :
    (c.store k).ClientStep own ((c.updateWorkload d).2.store k) := by
  unfold updateWorkload
  dsimp only
  split
  · cases k <;> exact .idle
  · split
    · rename_i hreplace
      cases k with
      | workload => exact .of_upsert (Store.replace_eq_ok hreplace).1
      | _ => exact .idle
    · cases k <;> exact .idle

theorem clientStep_instantiateBuild (config : String) :
    (c.store k).ClientStep own ((c.instantiateBuild config).2.store k) := by
  unfold instantiateBuild
  split
  · exact .idle
  · dsimp only
    split
    · cases k <;> exact .idle
    · rename_i hcreate
      cases k with
      | build => exact .of_upsert (Store.create_eq_ok hcreate)
      | _ => exact .idle

theorem clientStep_createClaim (name size : String) (labels : TextMap) :
    (c.store k).ClientStep own ((c.createClaim name size labels).2.store k) := by
  unfold createClaim
  split
  · exact .idle
  · dsimp only
    split
    · exact .idle
    · rename_i hcreate
      cases k with
      | claim => exact .of_upsert (Store.create_eq_ok hcreate)
      | _ => exact .idle

theorem clientStep_deleteClaim (name : String) :
    (c.store k).ClientStep own ((c.deleteClaim name).2.store k) := by
  unfold deleteClaim
  split
  · exact .idle
  · split
    · exact .idle
    · rename_i hremove
      cases k with
      | claim => exact .of_remove hremove
      | _ => exact .idle

theorem clientStep_beginExec (pod : String) :
    (c.store k).ClientStep own ((c.beginExec pod).2.store k) := by
  unfold beginExec
  split
  · exact .idle
  · cases k <;> exact .idle

end Cluster

/-- **The answer to any question of another client** is a turn of clients, if it does not end the
watch. -/
theorem World.storeTurn_of_answer {k : Kind} {own : Nat} {w w' : World} {r : Request}
    {reply : r.Reply} (h : w.answer r = some (reply, w')) (hr : r.Spares k own) :
    StoreTurn k own w w' := by
  cases r with
  | sleepUntil time =>
    replace h : (if time ≤ w.clock then some ((), w) else none) = some (reply, w') := h
    split at h
    · cases h; exact .same rfl
    · cases h
  | pause => cases h
  | updateWorkload d => cases h; exact w.cluster.clientStep_updateWorkload d
  | instantiateBuild config => cases h; exact w.cluster.clientStep_instantiateBuild config
  | createClaim name size labels => cases h; exact w.cluster.clientStep_createClaim name size labels
  | deleteClaim name => cases h; exact w.cluster.clientStep_deleteClaim name
  | watch k' s =>
    cases h
    refine .withStore fun hk => ?_
    subst hk
    exact .watch s
  | dropWatch k' handle => cases h; exact .dropWatch hr
  | await k' handle deadline check =>
    replace h : (if deadline ≤ w.clock then some (.timedOut, w.dropWatch k' handle)
      else (w.ending? k' handle check).map fun e => (e, w.dropWatch k' handle))
        = some (reply, w') := h
    split at h
    · cases h; exact .dropWatch hr
    · obtain ⟨e, -, he⟩ := Option.map_eq_some_iff.mp h
      cases he
      exact .dropWatch hr
  | joinPodWait job deadline =>
    have hdrop : StoreTurn k own w (w.dropJob job) := by
      unfold World.dropJob
      split
      · exact .dropWatch fun hk => absurd hk hr
      · exact .same rfl
    unfold World.answer at h
    dsimp only at h
    split at h
    · cases h; exact hdrop
    · split at h
      · cases h; exact hdrop
      · cases h
  | beginExec pod => cases h; exact w.cluster.clientStep_beginExec pod
  | endExec call => cases h; cases k <;> exact .same rfl
  | _ => cases h; exact .same rfl

end InnerLoop
