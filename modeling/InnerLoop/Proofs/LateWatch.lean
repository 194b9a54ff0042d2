import InnerLoop.Proofs.DeletionWait

/-!
# Watches that start late

A client of a remote server opens a watch without a word to the server. Only when the watch is first
looked at, the server is asked for a list of the objects, and whatever happens after that list was
made is told. A wait for a deletion opens its watch before it looks for the claim, but looks at the
watch only afterwards: what happens in between is told by neither.

- `World.answerLate`: answers of a client that opens watches so.
- `LateTurn`: the turns of others, with those in which the list is made.
- `lateRemoval`: the news that a claim is gone, to a watch that has started.
- `waitForClaimDeletion_late_ok_iff`: **a wait on a watch that starts late succeeds exactly if the
  claim was absent when it was looked for, or was removed in time since the list was made**.
- `late_watch_misses_deletion`: a deletion that is missed.
-/

namespace InnerLoop

open Store

/-! ## Opening a watch without a word -/

/-- The answers of a client that opens a watch without a word to the server. -/
def World.answerLate : Surroundings
  | w, .watch k selector =>
    let (handle, s) := (w.cluster.store k).watchLater selector
    some (handle, w.modifyCluster (·.withStore k s))
  | w, r => w.answer r

namespace World

theorem answerLate_eq {w : World} {r : Request} (h : ∀ k selector, r ≠ .watch k selector) :
    w.answerLate r = w.answer r := by
  cases r with
  | watch k selector => exact absurd rfl (h k selector)
  | _ => rfl

theorem swift_answerLate : Surroundings.Swift answerLate := by
  intro w w₁ r reply h
  rcases Classical.em (∃ k selector, r = .watch k selector) with ⟨k, selector, rfl⟩ | hr
  · cases h
    rfl
  · rw [answerLate_eq fun k selector he => hr ⟨k, selector, he⟩] at h
    exact swift_answer h

end World

namespace Store

variable {κ : Type} [Resource κ] {st st' : Store κ} {own : Nat} {name : String}

/-- A watch on a name is open, but was not started. -/
def Dormant (st : Store κ) (own : Nat) (name : String) : Prop :=
  st.subscription? own = some { selector := .name name, queue := [], started := false }

theorem dormant_watchLater (hs : st.Sound) (name : String) :
    (st.watchLater (.name name)).2.Dormant st.nextHandle name := by
  show (st.watches ++ _).lookup st.nextHandle = _
  rw [List.lookup_append, hs.lookup_nextHandle, Option.none_or, List.lookup_cons_self]

/-- A watch that was not started is told nothing of what clients do. -/
theorem ClientStep.dormant (h : ClientStep own st st') (hd : st.Dormant own name) :
    st'.Dormant own name := by
  have hopen : (st.subscription? own).isSome = true := Option.isSome_iff_exists.mpr ⟨_, hd⟩
  rcases h.subscription?_cases hopen with hsame | ⟨e, htold⟩
  · exact hsame.trans hd
  · unfold Dormant at hd ⊢
    rw [htold, hd]
    rfl

/-- When the list is made, a watch is told of the object that is there. -/
theorem Dormant.startWatch (hd : st.Dormant own name) :
    (st.startWatch own).Listens own name ((st.list (.name name)).map (.object .added)) := by
  unfold Listens
  rw [subscription?_startWatch, show st.subscription? own = _ from hd]
  simp

/-- A watch starts once. -/
theorem Listens.startWatch {queue : List (WatchEvent κ)} (hl : st.Listens own name queue) :
    (st.startWatch own).Listens own name queue := by
  unfold Listens at hl ⊢
  rw [subscription?_startWatch, hl]
  simp

end Store

/-! ## What is told -/

/-- The watch has started. -/
def World.Started (w : World) (own : Nat) : Prop :=
  (w.cluster.claims.subscription? own).any (·.started) = true

instance (w : World) (own : Nat) : Decidable (w.Started own) :=
  inferInstanceAs (Decidable (_ = true))

/-- What happens in the turns of others: clients do what they like, and at some time the list is
made that the watch begins with. -/
inductive LateTurn (own : Nat) (w w' : World) : Prop
  | clients (h : StoreTurn .claim own w w')
  | listed (h : w'.cluster.claims = w.cluster.claims.startWatch own)

/-- The news that a claim is gone, to a watch that has started. -/
def lateRemoval (own : Nat) (c : String) (w w' : World) : Option (Ending Claim) :=
  if w.Started own then removal c w w' else none

/-- A watch on a claim was told nothing yet, or something, and this is how that ends a wait for the
claim's deletion. -/
structure HeardLate (own : Nat) (c : String) (w : World) (found : Option (Ending Claim)) : Prop where
  sound : w.cluster.claims.Sound
  told : (w.cluster.claims.Dormant own c ∧ found = none) ∨
    ∃ queue, w.cluster.claims.Listens own c queue ∧ firstDecisive deletionVerdict queue = found

section

variable {own : Nat} {c : String} {w w' : World} {found : Option (Ending Claim)}

theorem LateTurn.sound (h : LateTurn own w w') (hs : w.cluster.claims.Sound) :
    w'.cluster.claims.Sound := by
  cases h with
  | clients h => exact ClientStep.sound h hs
  | listed h =>
    rw [h]
    exact (StoreStep.startWatch own).sound hs

theorem not_started_of_dormant (h : w.cluster.claims.Dormant own c) : ¬ w.Started own := by
  unfold World.Started
  rw [show w.cluster.claims.subscription? own = _ from h]
  exact Bool.false_ne_true

theorem started_of_listens {queue : List (WatchEvent Claim)}
    (h : w.cluster.claims.Listens own c queue) : w.Started own := by
  unfold World.Started
  rw [show w.cluster.claims.subscription? own = _ from h]
  rfl

/-- **A watch that starts late is told of the removals after its start.** -/
theorem reports_lateRemoval (own : Nat) (c : String) :
    Reports .claim own deletionVerdict (LateTurn own) (lateRemoval own c) (HeardLate own c) where
  ending := by
    rintro w found ⟨-, ⟨hdormant, rfl⟩ | ⟨queue, hlistens, rfl⟩⟩
    · exact World.ending?_of_live (k := .claim) hdormant rfl
    · exact World.ending?_of_live (k := .claim) hlistens rfl
  turn := by
    rintro w w' found ⟨hsound, ⟨hdormant, rfl⟩ | ⟨queue, hlistens, hfound⟩⟩ hturn
    · -- Nothing is told before the start.
      unfold lateRemoval
      rw [if_neg (not_started_of_dormant hdormant)]
      refine ⟨hturn.sound hsound, ?_⟩
      cases hturn with
      | clients h => exact .inl ⟨ClientStep.dormant h hdormant, rfl⟩
      | listed h =>
        rw [h]
        exact .inr ⟨_, hdormant.startWatch, firstDecisive_added _⟩
    · unfold lateRemoval
      rw [if_pos (started_of_listens hlistens)]
      cases hturn with
      | clients h =>
        obtain ⟨hsound', htold⟩ := (reports_removal own c).turn ⟨hsound, queue, hlistens, hfound⟩ h
        exact ⟨hsound', .inr htold⟩
      | listed h =>
        have hsame : removal c w w' = none := by
          refine removal_eq_none_of_same ?_
          rw [h]
          rfl
        rw [hsame, Option.or_none]
        refine ⟨LateTurn.sound (.listed h) hsound, .inr ⟨queue, ?_, hfound⟩⟩
        rw [h]
        exact hlistens.startWatch

/-- A client that opens watches without a word tells of the removals after the list. -/
theorem removalWatch_answerLate (own : Nat) (c : String) :
    RemovalWatch World.answerLate own c (LateTurn own) (lateRemoval own c) (HeardLate own c) where
  swift := World.swift_answerLate
  same _ _ h := World.answerLate_eq h
  opens hs hopened := by
    obtain ⟨rfl, rfl⟩ := Prod.mk.inj (Option.some.inj hopened)
    exact ⟨(StoreStep.watchLater _).sound hs, .inl ⟨dormant_watchLater hs c, rfl⟩⟩
  keeps hturn hs := hturn.sound hs
  still _ := .clients .idle
  reports := reports_lateRemoval own c
  satisfies h := by
    unfold lateRemoval at h
    split at h
    · exact removal_eq_satisfied h
    · cases h
  silent w := by
    unfold lateRemoval
    rw [removal_eq_none_of_same rfl, ite_self]

/-- Removals in time since the start are news. -/
theorem newsBefore_lateRemoval_isSome_iff {deadline : Nat} {t : List (Event Unit)} :
    (newsBefore deadline (lateRemoval own c) t).isSome = true ↔
      ∃ e ∈ t, (e.before.Started own ∧ e.Removes c) ∧ e.after.clock < deadline := by
  have htold : ∀ e : Event Unit, (lateRemoval own c e.before e.after).isSome = true ↔
      e.before.Started own ∧ e.Removes c := by
    intro e
    unfold lateRemoval
    by_cases hstarted : e.before.Started own
    · rw [if_pos hstarted, removal_isSome_iff]
      exact (and_iff_right hstarted).symm
    · rw [if_neg hstarted]
      exact iff_of_false Bool.false_ne_true fun h => hstarted h.1
  simp only [newsBefore_isSome_iff, htold]

end

/-! ## The wait -/

section

variable {s : Settings} {c : String} {own : Nat} {w w' v v' u u' : World}
  {reply : Except ClusterFault Claim} {t₁ t₂ t₃ : List (Event Unit)}
  {q : Program (Except Failure Unit)}

/-- **A wait on a watch that starts late misses what happens before the start.** Others may delete
and create the claim at will, and the list that the watch begins with is made at any time. The wait
succeeds exactly if the claim was absent when it was looked for, or was removed after the list was
made and before `deleteTimeout` had gone by since the look; else it fails when its time is up. -/
theorem waitForClaimDeletion_late_ok_iff (hw : w.Reachable)
    (hothers : OthersDo (LateTurn own) (t₁ ++ .asked () (.watch .claim (.name c)) v own v' ::
      (t₂ ++ .asked () (.getClaim c) u reply u' :: t₃)))
    (h : Paced World.answerLate (waitForClaimDeletion s c).run w
      (t₁ ++ .asked () (.watch .claim (.name c)) v own v' ::
        (t₂ ++ .asked () (.getClaim c) u reply u' :: t₃)) q w') :
    let since := t₂ ++ .asked () (.getClaim c) u reply u' :: t₃
    let deadline := u.clock + s.deleteTimeout
    let gone := u.cluster.claims.contains c = false ∨
      ∃ e ∈ since, (e.before.Started own ∧ e.Removes c) ∧ e.after.clock < deadline
    (q.atOnce World.answerLate w' = some (.ok ()) ↔ gone) ∧
    (¬ gone → deadline ≤ w'.clock →
      q.atOnce World.answerLate w' = some (.error (.timeout
        ("deletion of PersistentVolumeClaim " ++ c) (.ofMillis s.deleteTimeout)))) := by
  intro since deadline gone
  have hends := h.awaited_deletion (removalWatch_answerLate own c) hw.sound.claims hothers
  dsimp only at hends
  rw [newsBefore_lateRemoval_isSome_iff] at hends
  exact hends

end

/-! ## Two deletions -/

/-- The cluster with the claim of the orders, and a watch on it that has not started. -/
def dormantWorld : World :=
  ordersWorld.modifyCluster
    (·.withStore .claim ((ordersWorld.cluster.store .claim).watchLater (.name "orders")).2)

/-- The world after the list was made that a watch begins with. -/
def World.makeList (w : World) (own : Nat) : World :=
  w.modifyCluster fun c => { c with claims := c.claims.startWatch own }

/-- The world after the claim of the orders was deleted. -/
def World.deleteOrders (w : World) : World := (w.request (·.deleteClaim "orders")).2

theorem lateTurn_makeList (w : World) (own : Nat) : LateTurn own w (w.makeList own) := .listed rfl

theorem lateTurn_deleteOrders (w : World) (own : Nat) : LateTurn own w w.deleteOrders :=
  .clients (World.storeTurn_of_answer (r := .deleteClaim "orders") rfl trivial)

theorem contains_dormantWorld : dormantWorld.cluster.claims.contains "orders" = true := by
  decide +kernel

/-- The claim is found by a wait whose watch has not started. -/
theorem paced_dormantWorld {t : List (Event Unit)} {q : Program (Except Failure Unit)} {w' : World}
    (h : ∀ o, Paced World.answerLate (afterClaimLook {} "orders" 0 (.ok o)) dormantWorld t q w') :
    Paced World.answerLate (waitForClaimDeletion {} "orders").run ordersWorld
      ([] ++ .asked () (.watch .claim (.name "orders")) ordersWorld 0 dormantWorld ::
        ([] ++ .asked () (.getClaim "orders") dormantWorld
          (dormantWorld.cluster.claims.get "orders") dormantWorld :: t)) q w' := by
  rw [waitForClaimDeletion_eq]
  refine .asked rfl (.asked rfl ?_)
  have hfound : (dormantWorld.cluster.claims.objects.find? "orders").isSome = true :=
    contains_dormantWorld
  obtain ⟨o, ho⟩ := Option.isSome_iff_exists.mp hfound
  rw [get_eq_ok_iff.mpr ho]
  exact h o

/-- The claim is deleted after the list was made. -/
theorem waitForClaimDeletion_late_ok_iff_orders :
    ∃ t q w', Paced World.answerLate (waitForClaimDeletion {} "orders").run ordersWorld
        ([] ++ .asked () (.watch .claim (.name "orders")) ordersWorld 0 dormantWorld ::
          ([] ++ .asked () (.getClaim "orders") dormantWorld
            (dormantWorld.cluster.claims.get "orders") dormantWorld :: t)) q w' ∧
      dormantWorld.cluster.claims.contains "orders" = true ∧
      q.atOnce World.answerLate w' = some (.ok ()) := by
  let listed := dormantWorld.makeList 0
  let t : List (Event Unit) :=
    [.asked () .now dormantWorld 0 dormantWorld, .other dormantWorld listed,
      .other listed listed.deleteOrders]
  have hafter : ∀ o, Paced World.answerLate (afterClaimLook {} "orders" 0 (.ok o)) dormantWorld t
      _ listed.deleteOrders := fun _ => .asked rfl (.other rfl (.other rfl (.start _ _)))
  have hrun := paced_dormantWorld hafter
  have hothers : OthersDo (LateTurn 0)
      ([] ++ .asked () (.watch .claim (.name "orders")) ordersWorld 0 dormantWorld ::
        ([] ++ .asked () (.getClaim "orders") dormantWorld
          (dormantWorld.cluster.claims.get "orders") dormantWorld :: t)) := by
    intro x y hmem
    simp only [t, List.nil_append, List.mem_cons, List.not_mem_nil, or_false, reduceCtorEq,
      false_or, Event.other.injEq] at hmem
    rcases hmem with ⟨rfl, rfl⟩ | ⟨rfl, rfl⟩
    · exact lateTurn_makeList dormantWorld 0
    · exact lateTurn_deleteOrders listed 0
  have hstarted : listed.Started 0 := by decide +kernel
  have hremoves : Event.Removes "orders" (.other listed listed.deleteOrders) := by
    constructor <;> decide +kernel
  refine ⟨t, _, _, hrun, contains_dormantWorld, ?_⟩
  have hexact := waitForClaimDeletion_late_ok_iff reachable_ordersWorld hothers hrun
  refine hexact.1.mpr (.inr ⟨.other listed listed.deleteOrders, ?_, ⟨hstarted, hremoves⟩, ?_⟩)
  · exact List.mem_cons_of_mem _ (List.mem_cons_of_mem _ (List.mem_cons_of_mem _
      List.mem_cons_self))
  · decide +kernel

/-- **A deletion can be missed**: of a claim that was found, and is deleted at that very time but
before the list is made, the wait is not told, and fails when its time is up. -/
theorem late_watch_misses_deletion :
    ¬ ∀ {s : Settings} {c : String} {own : Nat} {w w' v v' u u' : World}
      {reply : Except ClusterFault Claim} {t₁ t₂ t₃ : List (Event Unit)}
      {q : Program (Except Failure Unit)},
      w.Reachable →
      OthersDo (LateTurn own) (t₁ ++ .asked () (.watch .claim (.name c)) v own v' ::
        (t₂ ++ .asked () (.getClaim c) u reply u' :: t₃)) →
      Paced World.answerLate (waitForClaimDeletion s c).run w
        (t₁ ++ .asked () (.watch .claim (.name c)) v own v' ::
          (t₂ ++ .asked () (.getClaim c) u reply u' :: t₃)) q w' →
      u.cluster.claims.contains c = true → 0 < s.deleteTimeout →
      (∃ e ∈ t₃, e.Removes c ∧ e.after.clock = u.clock) →
      ∀ r, q = .done r → r = .ok () := by
  intro h
  let gone := dormantWorld.deleteOrders
  let listed := gone.makeList 0
  let timeUp : World := { listed with clock := 60000 }
  let t : List (Event Unit) :=
    [.other dormantWorld gone, .asked () .now gone 0 gone, .other gone listed,
      .other listed timeUp,
      .asked () (.await .claim 0 60000 deletionVerdict) timeUp .timedOut (timeUp.dropWatch .claim 0)]
  have hsilent : (listed.ending? .claim 0 deletionVerdict).isNone = true := by decide +kernel
  have hheld : listed.answer (.await .claim 0 60000 deletionVerdict) = none := by
    rw [World.answer_await_of_lt (show 0 < 60000 by decide), Option.isNone_iff_eq_none.mp hsilent]
    rfl
  have hafter : ∀ o, Paced World.answerLate (afterClaimLook {} "orders" 0 (.ok o)) dormantWorld t
      (.done (awaitedDeletion {} "orders" .timedOut)) (timeUp.dropWatch .claim 0) := by
    intro o
    have hwakes : ∀ d ∈ some 60000, 60000 ≤ d := fun d hd => by cases hd; exact Nat.le_refl _
    refine .other rfl (.asked rfl (.other rfl (.tick hheld (Nat.zero_le _) hwakes ?_)))
    exact .asked rfl (.start _ _)
  have hrun := paced_dormantWorld hafter
  have hothers : OthersDo (LateTurn 0)
      ([] ++ .asked () (.watch .claim (.name "orders")) ordersWorld 0 dormantWorld ::
        ([] ++ .asked () (.getClaim "orders") dormantWorld
          (dormantWorld.cluster.claims.get "orders") dormantWorld :: t)) := by
    intro x y hmem
    simp only [t, List.nil_append, List.mem_cons, List.not_mem_nil, or_false, reduceCtorEq,
      false_or, Event.other.injEq] at hmem
    rcases hmem with ⟨rfl, rfl⟩ | ⟨rfl, rfl⟩ | ⟨rfl, rfl⟩
    · exact lateTurn_deleteOrders dormantWorld 0
    · exact lateTurn_makeList gone 0
    · exact .clients .idle
  have hremoves : Event.Removes "orders" (.other dormantWorld gone) := by
    constructor <;> decide +kernel
  have hmissed := h reachable_ordersWorld hothers hrun contains_dormantWorld (by decide)
    ⟨_, List.mem_cons_self, hremoves, rfl⟩ _ rfl
  cases hmissed

end InnerLoop
