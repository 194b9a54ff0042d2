import InnerLoop.Operation.Wait
import InnerLoop.Proofs.Clients
import InnerLoop.Proofs.Paced
import InnerLoop.Watch.Wait
import Mathlib.Data.List.Basic

/-!
# A wait in the background and the plain one

For a pod it is waited in the background: one task goes through what the watch is told, without a
clock, and the caller waits for its result or for the time to be up, whichever comes first. Whether
what comes, the end of the task and the end of the time come in this order or another, nothing else
comes out than for one task that does it all.

- `arrivals`: what a watch on a stream is told and when; `endingInTime` of it is how the plain wait
  ends (`awaitFrom_ending`).
- `ToldBy`: a watch was told what came by some time.
- `JobTurn`: what may happen beside a background wait, and the turns of the wait itself.
- `JobState`: the phases of a background wait; `JobState.turn`: no turn leads out of them.
- `waitForRunningPod_agrees`: **the wait in the background comes to what the plain wait comes to**,
  if nothing is due just when the time is up.
-/

namespace InnerLoop

open Store

/-! ## What comes on a stream -/

section

variable {κ : Type} {timeout time now : Nat} {check : Change → κ → Verdict} {atEnd : StreamEnd}
  {arr : List (Nat × WatchEvent κ)} {heard : List (WatchEvent κ)}

/-- What a watch is told of an item. A break of the stream is the death of the watch. -/
def StreamItem.told : StreamItem κ → WatchEvent κ
  | .event e => e
  | .broken fault => .error fault.message

/-- What a watch on a stream is told, with when it comes. That the stream has ended comes last, if it
does end. -/
def arrivals (atEnd : StreamEnd) (now : Nat) : List (TimedItem κ) → List (Nat × WatchEvent κ)
  | [] => if atEnd = .closed then [(now, .error streamClosed)] else []
  | t :: r => (now + t.after, t.item.told) :: arrivals atEnd (now + t.after) r

theorem le_of_mem_arrivals {items : List (TimedItem κ)} {a : Nat × WatchEvent κ}
    (h : a ∈ arrivals atEnd now items) : now ≤ a.1 := by
  induction items generalizing now with
  | nil =>
    unfold arrivals at h
    split at h
    · cases List.mem_singleton.mp h
      exact Nat.le_refl _
    · cases h
  | cons t r ih =>
    rcases List.mem_cons.mp h with rfl | h
    · exact Nat.le_add_right _ _
    · exact Nat.le_trans (Nat.le_add_right _ _) (ih h)

/-- How the first decisive of what comes in time ends a wait. -/
def endingInTime (timeout : Nat) (check : Change → κ → Verdict) (arr : List (Nat × WatchEvent κ)) :
    Option (Ending κ) :=
  arr.findSome? fun a => if a.1 < timeout then a.2.ending? check else none

theorem endingInTime_late (h : ∀ a ∈ arr, timeout ≤ a.1) : endingInTime timeout check arr = none :=
  List.findSome?_eq_none_iff.mpr fun a ha => if_neg (Nat.not_lt.mpr (h a ha))

/-- How the plain wait ends. -/
theorem awaitFrom_ending (items : List (TimedItem κ)) :
    (awaitFrom timeout (fun _ change o => (check change o, ())) atEnd now () items).ending =
      (endingInTime timeout check (arrivals atEnd now items)).getD .timedOut := by
  induction items generalizing now with
  | nil =>
    unfold awaitFrom arrivals
    cases atEnd with
    | silent => rfl
    | closed =>
      by_cases hin : now < timeout
      · rw [if_pos ⟨rfl, hin⟩, if_pos rfl]
        show _ = Option.getD (List.findSome? _ [_]) _
        rw [List.findSome?_singleton, if_pos hin]
        rfl
      · rw [if_neg fun h => hin h.2, if_pos rfl, endingInTime_late]
        · rfl
        · intro a ha
          cases List.mem_singleton.mp ha
          exact Nat.not_lt.mp hin
  | cons t r ih =>
    unfold awaitFrom
    dsimp only
    by_cases hlate : timeout ≤ now + t.after
    · rw [if_pos hlate, endingInTime_late]
      · rfl
      · intro a ha
        rcases List.mem_cons.mp ha with rfl | ha
        · exact hlate
        · exact Nat.le_trans hlate (le_of_mem_arrivals ha)
    rw [if_neg hlate]
    have hcons : endingInTime timeout check (arrivals atEnd now (t :: r)) =
        (t.item.told.ending? check).or
          (endingInTime timeout check (arrivals atEnd (now + t.after) r)) := by
      show List.findSome? _ (_ :: _) = _
      rw [List.findSome?_cons, if_pos (Nat.not_le.mp hlate)]
      cases t.item.told.ending? check <;> rfl
    rw [hcons]
    obtain ⟨after, item⟩ := t
    cases item with
    | broken fault => rfl
    | event event =>
      cases event with
      | error reason => rfl
      | object change o =>
        have htold : (WatchEvent.object change o).ending? check = (check change o).ending? o := rfl
        show _ = Option.getD (((WatchEvent.object change o).ending? check).or _) _
        rw [htold]
        dsimp only
        cases (check change o).ending? o with
        | some e => rfl
        | none => exact ih

/-- By some time a watch was told all that came before, and of what comes just then as much as may
be. -/
def ToldBy (arr : List (Nat × WatchEvent κ)) (time : Nat) (heard : List (WatchEvent κ)) : Prop :=
  ∃ n, heard = (arr.take n).map (·.2) ∧ (∀ a ∈ arr.take n, a.1 ≤ time) ∧
    ∀ a ∈ arr.drop n, time ≤ a.1

/-- What decides as told decides in time, unless it comes when the time is up. -/
theorem ToldBy.endingInTime_eq_some {e : Ending κ} (h : ToldBy arr time heard)
    (htime : time ≤ timeout) (htie : ∀ a ∈ arr, a.1 ≠ timeout)
    (he : firstDecisive check heard = some e) : endingInTime timeout check arr = some e := by
  obtain ⟨n, rfl, htold, -⟩ := h
  have hin : endingInTime timeout check (arr.take n) = some e := by
    rw [← he]
    unfold endingInTime firstDecisive
    rw [List.findSome?_map, ← List.head?_filterMap, ← List.head?_filterMap]
    refine congrArg List.head? (List.filterMap_congr fun a ha => if_pos ?_)
    have hdue := htold a ha
    have hnot := htie a (List.mem_of_mem_take ha)
    omega
  have happend : endingInTime timeout check (arr.take n ++ arr.drop n) = some e := by
    unfold endingInTime at hin ⊢
    rw [List.findSome?_append, hin]
    rfl
  rwa [List.take_append_drop] at happend

/-- If nothing that was told decides when the time is up, nothing in time does. -/
theorem ToldBy.endingInTime_eq_none (h : ToldBy arr timeout heard)
    (hnone : firstDecisive check heard = none) : endingInTime timeout check arr = none := by
  obtain ⟨n, rfl, -, hrest⟩ := h
  refine List.findSome?_eq_none_iff.mpr fun a ha => ?_
  rw [← List.take_append_drop n arr] at ha
  rcases List.mem_append.mp ha with ha | ha
  · have hpending := List.findSome?_eq_none_iff.mp hnone a.2 (List.mem_map_of_mem ha)
    rw [hpending, ite_self]
  · exact if_neg (Nat.not_lt.mpr (hrest a ha))

end

/-- All that a watch was told, the end of it included. -/
def Subscription.heard {κ : Type} (s : Subscription κ) : List (WatchEvent κ) :=
  if s.live then s.queue else s.queue ++ [.error streamClosed]

theorem Subscription.ending?_eq {κ : Type} (check : Change → κ → Verdict) (s : Subscription κ) :
    s.ending? check = firstDecisive check s.heard := by
  unfold ending? heard
  cases s.live with
  | true =>
    rw [if_pos rfl, if_pos rfl]
    cases firstDecisive check s.queue <;> rfl
  | false =>
    rw [if_neg Bool.false_ne_true, if_neg Bool.false_ne_true]
    unfold firstDecisive
    rw [List.findSome?_append]
    cases List.findSome? (·.ending? check) s.queue <;> rfl

/-- How a wait on a watch ends goes by all that the watch was told. -/
theorem World.ending?_eq_heard {w : World} {own : Nat} {check : Change → Pod → Verdict}
    {s : Subscription Pod} (h : w.cluster.pods.subscription? own = some s) :
    w.ending? .pod own check = firstDecisive check s.heard := by
  have hs : (w.cluster.store .pod).subscription? own = some s := h
  unfold World.ending?
  rw [hs]
  exact s.ending?_eq check

/-! ## Background waits -/

/-- The numbers of background waits were given out before. -/
def World.Numbered (w : World) : Prop := ∀ p ∈ w.jobs, p.1 < w.nextJob

/-- A background wait has nothing to take notice of. -/
def World.JobIdle (w : World) (job : Nat) : Prop :=
  ∀ handle, w.jobs.lookup job = some ⟨handle, none⟩ → w.ending? .pod handle podVerdict = none

/-- What happens in one turn beside the caller of the background wait `job` on the watch `own`. -/
inductive JobTurn (own job : Nat) (w : World) : World → Prop
  /-- Others do what they like, but leave the wait and its watch alone. -/
  | spared {w' : World} (hclock : w'.clock = w.clock) (hnext : w.nextJob ≤ w'.nextJob)
      (hjob : w'.jobs.lookup job = w.jobs.lookup job)
      (hwatch : (w.cluster.pods.subscription? own).isSome = true →
        (w'.cluster.pods.subscription? own).isSome = true) : JobTurn own job w w'
  /-- The wait takes notice of what its watch was told. -/
  | notice : JobTurn own job w (w.finishJob job)
  /-- Time goes by, while there is nothing to take notice of. -/
  | rest {time : Nat} (hidle : w.JobIdle job) : JobTurn own job w { w with clock := time }

/-- What clients do to pods leaves a background wait alone. -/
theorem JobTurn.of_storeTurn {own job : Nat} {w w' : World} (h : StoreTurn .pod own w w')
    (hclock : w'.clock = w.clock) (hjobs : w'.jobs = w.jobs) (hnext : w'.nextJob = w.nextJob) :
    JobTurn own job w w' := by
  refine .spared hclock (Nat.le_of_eq hnext.symm) (by rw [hjobs]) fun hopen => ?_
  have hstep : w.cluster.pods.ClientStep own w'.cluster.pods := h
  exact hstep.isSome_subscription? hopen

/-- A watch carries a stream that began at some time. -/
def Carries (own since : Nat) (arr : List (Nat × WatchEvent Pod)) (w : World) : Prop :=
  ∀ s, w.cluster.pods.subscription? own = some s → ToldBy arr (w.clock - since) s.heard

/-- The phases of a background wait that is to come to `outcome`. -/
inductive JobState (own job deadline : Nat) (outcome : Option (Ending Pod)) (w : World) : Prop
  /-- It waits; by the deadline there is no outcome left to wait for. -/
  | waiting (hjob : w.jobs.lookup job = some ⟨own, none⟩)
      (hwatch : (w.cluster.pods.subscription? own).isSome = true) (htime : w.clock ≤ deadline)
      (hup : w.clock = deadline → outcome = none)
  /-- It has ended. -/
  | ended {e : Ending Pod} (hjob : w.jobs.lookup job = some ⟨own, some e⟩)
      (houtcome : outcome = some e)

section

variable {own job since timeout deadline : Nat} {arr : List (Nat × WatchEvent Pod)}
  {outcome : Option (Ending Pod)} {w w' : World} {e : Ending Pod}

namespace World

theorem jobIdle_of_none (h : w.jobs.lookup job = none) : w.JobIdle job := by
  intro handle hjob
  rw [h] at hjob
  cases hjob

theorem jobIdle_of_ended (h : w.jobs.lookup job = some ⟨own, some e⟩) : w.JobIdle job := by
  intro handle hjob
  rw [h] at hjob
  cases hjob

/-- A wait that has nothing to take notice of stays as it is. -/
theorem finishJob_of_idle (h : w.JobIdle job) : w.finishJob job = w := by
  unfold finishJob
  split
  · rename_i handle hjob
    rw [h handle hjob]
  · rfl

/-- A wait that takes notice of what decides it has ended. -/
theorem lookup_finishJob (hjob : w.jobs.lookup job = some ⟨own, none⟩)
    (he : w.ending? .pod own podVerdict = some e) :
    (w.finishJob job).jobs.lookup job = some ⟨own, some e⟩ := by
  unfold finishJob
  rw [hjob]
  dsimp only
  rw [he]
  show (w.jobs.map _).lookup job = _
  rw [lookup_map_of_fst, hjob]
  · show some (Prod.snd (if job = job then _ else _)) = _
    rw [if_pos rfl]
  · intro p
    split
    · exact Eq.symm ‹_›
    · rfl

/-- The result of a wait that has ended counts even when time is up. -/
theorem answer_join_of_ended (h : w.jobs.lookup job = some ⟨own, some e⟩) :
    w.answer (.joinPodWait job deadline) = some (e, w.dropJob job) := by
  unfold answer
  dsimp only
  rw [h]
  rfl

theorem answer_join_of_waiting (h : w.jobs.lookup job = some ⟨own, none⟩) :
    w.answer (.joinPodWait job deadline) =
      if deadline ≤ w.clock then some (.timedOut, w.dropJob job) else none := by
  unfold answer
  dsimp only
  rw [h]
  rfl

end World

namespace JobState

/-- The caller of a background wait gets its outcome, or that time was up if there is none. -/
theorem reply_eq {reply : Ending Pod} (h : JobState own job deadline outcome w)
    (hreply : w.answer (.joinPodWait job deadline) = some (reply, w')) :
    reply = outcome.getD .timedOut := by
  cases h with
  | waiting hjob hwatch htime hup =>
    rw [World.answer_join_of_waiting hjob] at hreply
    split at hreply
    · rename_i hlate
      cases hreply
      rw [hup (Nat.le_antisymm htime hlate)]
      rfl
    · cases hreply
  | ended hjob houtcome =>
    rw [World.answer_join_of_ended hjob] at hreply
    cases hreply
    rw [houtcome]
    rfl

/-- When its time is up, the caller goes on. -/
theorem exists_reply (h : JobState own job deadline outcome w) (hlate : deadline ≤ w.clock) :
    ∃ w₁, w.answer (.joinPodWait job deadline) = some (outcome.getD .timedOut, w₁) := by
  have hanswer : ∃ reply w₁, w.answer (.joinPodWait job deadline) = some (reply, w₁) := by
    cases h with
    | waiting hjob => exact ⟨_, _, (World.answer_join_of_waiting hjob).trans (if_pos hlate)⟩
    | ended hjob => exact ⟨_, _, World.answer_join_of_ended hjob⟩
  obtain ⟨reply, w₁, hreply⟩ := hanswer
  exact ⟨w₁, h.reply_eq hreply ▸ hreply⟩

/-- **No turn leads out of the phases.** What was told before time was up decides the outcome, in
whatever turn the wait takes notice of it; and time is not up before it has. -/
theorem turn (h : JobState own job (since + timeout) (endingInTime timeout podVerdict arr) w)
    (htie : ∀ a ∈ arr, a.1 ≠ timeout) (hcarries : Carries own since arr w)
    (hcarries' : Carries own since arr w') (hturn : JobTurn own job w w')
    (hclock : w'.clock = w.clock ∨ w'.clock ≤ since + timeout) :
    JobState own job (since + timeout) (endingInTime timeout podVerdict arr) w' := by
  cases h with
  | ended hjob houtcome =>
    cases hturn with
    | spared _ _ hsame => exact .ended (hsame.trans hjob) houtcome
    | notice =>
      rw [World.finishJob_of_idle (World.jobIdle_of_ended hjob)]
      exact .ended hjob houtcome
    | rest => exact .ended hjob houtcome
  | waiting hjob hwatch htime hup =>
    obtain ⟨s, hs⟩ := Option.isSome_iff_exists.mp hwatch
    cases hturn with
    | spared hsame _ hkept hopen =>
      exact .waiting (hkept.trans hjob) (hopen hwatch) (hsame ▸ htime) fun hlate =>
        hup (hsame ▸ hlate)
    | notice =>
      cases he : w.ending? .pod own podVerdict with
      | none =>
        have hidle : w.JobIdle job := by
          intro handle hhandle
          rw [hjob] at hhandle
          cases hhandle
          exact he
        rw [World.finishJob_of_idle hidle]
        exact .waiting hjob hwatch htime hup
      | some e =>
        refine .ended (World.lookup_finishJob hjob he) ?_
        rw [World.ending?_eq_heard hs] at he
        have hin : w.clock - since ≤ timeout := by omega
        exact (hcarries s hs).endingInTime_eq_some hin htie he
    | @rest time hidle =>
      have hnone : firstDecisive podVerdict s.heard = none := by
        rw [← World.ending?_eq_heard hs]
        exact hidle own hjob
      refine .waiting hjob hwatch ?_ fun hlate => ?_
      · rcases hclock with hsame | hin
        · exact hsame ▸ htime
        · exact hin
      · -- All that comes before the deadline was told, and none of it decides.
        have htold : ToldBy arr ({ w with clock := time }.clock - since) s.heard := hcarries' s hs
        rw [hlate, Nat.add_sub_cancel_left] at htold
        exact htold.endingInTime_eq_none hnone

end JobState

end

/-! ## Callers -/

section

variable {α : Type} {own job since timeout : Nat} {arr : List (Nat × WatchEvent Pod)}
  {g : Ending Pod → α} {w w' : World} {t : List (Event Unit)} {q : Program α}

/-- **A caller gets the outcome**, whichever comes first: the result or that time is up. -/
theorem Paced.joined (htie : ∀ a ∈ arr, a.1 ≠ timeout) (hturns : OthersDo (JobTurn own job) t)
    (hnow : Carries own since arr w) (hcarries : ∀ e ∈ t, Carries own since arr e.after)
    (hstate : JobState own job (since + timeout) (endingInTime timeout podVerdict arr) w)
    (h : Paced World.answer (.ask (.joinPodWait job (since + timeout)) fun e => .done (g e))
      w t q w') :
    let outcome := (endingInTime timeout podVerdict arr).getD .timedOut
    (∀ a, q = .done a → a = g outcome) ∧
    (since + timeout ≤ w'.clock → q.atOnce World.answer w' = some (g outcome)) := by
  intro outcome
  generalize hp : Program.ask (.joinPodWait job (since + timeout)) (fun e => .done (g e)) = p at h
  induction h with
  | start p w =>
    subst hp
    refine ⟨fun a ha => (nomatch ha), fun hlate => ?_⟩
    obtain ⟨w₁, hreply⟩ := hstate.exists_reply hlate
    exact Program.atOnce_ask hreply
  | asked hreply rest =>
    cases hp
    cases rest.of_done
    have houtcome := hstate.reply_eq hreply
    subst houtcome
    refine ⟨fun a ha => ?_, fun _ => rfl⟩
    cases ha
    rfl
  | other hclock _ ih =>
    have hafter := hcarries _ List.mem_cons_self
    exact ih hturns.tail hafter (fun e he => hcarries e (List.mem_cons_of_mem _ he))
      (hstate.turn htie hnow hafter (hturns _ _ List.mem_cons_self) (.inl hclock)) hp
  | tick _ _ hwakes _ ih =>
    -- The clock stops at the deadline as long as the caller waits.
    subst hp
    have hafter := hcarries _ List.mem_cons_self
    exact ih hturns.tail hafter (fun e he => hcarries e (List.mem_cons_of_mem _ he))
      (hstate.turn htie hnow hafter (hturns _ _ List.mem_cons_self) (.inr (hwakes _ rfl))) rfl

/-- A caller that waits for some milliseconds from now on. -/
theorem Paced.joined_for (htie : ∀ a ∈ arr, a.1 ≠ timeout) (hturns : OthersDo (JobTurn own job) t)
    (hnow : Carries own since arr w) (hcarries : ∀ e ∈ t, Carries own since arr e.after)
    (hstate : JobState own job (since + timeout) (endingInTime timeout podVerdict arr) w)
    (hsince : w.clock = since)
    (h : Paced World.answer (.ask .now fun now =>
      .ask (.joinPodWait job (now + timeout)) fun e => .done (g e)) w t q w') :
    let outcome := (endingInTime timeout podVerdict arr).getD .timedOut
    (∀ a, q = .done a → a = g outcome) ∧
    (since + timeout ≤ w'.clock → q.atOnce World.answer w' = some (g outcome)) := by
  intro outcome
  generalize hp : Program.ask .now (fun now =>
    .ask (.joinPodWait job (now + timeout)) fun e => .done (g e)) = p at h
  induction h with
  | start p w =>
    subst hp
    refine ⟨fun a ha => (nomatch ha), fun hlate => ?_⟩
    obtain ⟨w₁, hreply⟩ := hstate.exists_reply hlate
    have hclock : w.answer .now = some (w.clock, w) := rfl
    rw [Program.atOnce_ask hclock, hsince]
    exact Program.atOnce_ask hreply
  | asked hreply rest =>
    cases hp
    cases hreply
    rw [hsince] at rest
    exact Paced.joined htie hturns.tail hnow (fun e he => hcarries e (List.mem_cons_of_mem _ he))
      hstate rest
  | other hclock _ ih =>
    have hafter := hcarries _ List.mem_cons_self
    exact ih hturns.tail hafter (fun e he => hcarries e (List.mem_cons_of_mem _ he))
      (hstate.turn htie hnow hafter (hturns _ _ List.mem_cons_self) (.inl hclock))
      (hclock.trans hsince) hp
  | tick hheld =>
    subst hp
    cases hheld

end

section

variable {s : Settings} {selector : String} {own job : Nat} {w w' v v' u u' : World}
  {t₁ t₂ t₃ : List (Event Unit)} {q : Program (Except Failure Pod)} {atEnd : StreamEnd}
  {items : List (TimedItem Pod)}

/-- The caller of a background wait that was started. -/
def afterStartOfWait (s : Settings) (selector : String) (job : Nat) :
    Program (Except Failure Pod) :=
  .ask .now fun now => .ask (.joinPodWait job (now + s.podTimeout)) fun e =>
    .done (e.result ("pod matching " ++ selector) (.ofMillis s.podTimeout))

theorem waitForRunningPod_eq (s : Settings) (selector : String) :
    (waitForRunningPod s selector).run = .ask (.watch .pod (.labels selector)) fun own =>
      .ask (.startPodWait own) (afterStartOfWait s selector) := rfl

/-- The watch is opened once. -/
theorem asks_afterPodWatch (own : Nat) :
    (Program.ask (.startPodWait own) (afterStartOfWait s selector)).Asks
      fun r => r ≠ .watch .pod (.labels selector) :=
  ⟨nofun, fun _ => ⟨nofun, fun _ => ⟨nofun, fun _ => trivial⟩⟩⟩

/-- The wait is started once. -/
theorem asks_afterStartOfWait (job : Nat) :
    (afterStartOfWait s selector job).Asks fun r => r ≠ .startPodWait own :=
  ⟨nofun, fun _ => ⟨nofun, fun _ => trivial⟩⟩

/-! ### Before the wait is started -/

/-- No number is given out again. -/
theorem JobTurn.nextJob_le (h : JobTurn own job w w') : w.nextJob ≤ w'.nextJob := by
  cases h with
  | spared _ hnext => exact hnext
  | rest => exact Nat.le_refl _
  | notice =>
    unfold World.finishJob
    split
    · split <;> exact Nat.le_refl _
    · exact Nat.le_refl _

/-- A wait that was not started does nothing, and its watch stays open. -/
theorem JobTurn.unstarted (h : JobTurn own job w w') (hnone : w.jobs.lookup job = none) :
    w'.jobs.lookup job = none ∧ ((w.cluster.pods.subscription? own).isSome = true →
      (w'.cluster.pods.subscription? own).isSome = true) := by
  cases h with
  | spared _ _ hsame hopen => exact ⟨hsame.trans hnone, hopen⟩
  | rest => exact ⟨hnone, id⟩
  | notice =>
    rw [World.finishJob_of_idle (World.jobIdle_of_none hnone)]
    exact ⟨hnone, id⟩

theorem World.Numbered.lookup_eq_none (h : w.Numbered) (hle : w.nextJob ≤ job) :
    w.jobs.lookup job = none := by
  refine List.lookup_eq_none_iff.mpr fun p hp => ?_
  have hlt := h p hp
  exact bne_iff_ne.mpr (by omega)

/-- A wait in the background, from the opening of its watch to its start. -/
theorem Paced.at_start (hnumbered : w.Numbered)
    (hothers : OthersDo (JobTurn own job)
      (t₁ ++ .asked () (.watch .pod (.labels selector)) v own v' ::
        (t₂ ++ .asked () (.startPodWait own) u job u' :: t₃)))
    (h : Paced World.answer (waitForRunningPod s selector).run w
      (t₁ ++ .asked () (.watch .pod (.labels selector)) v own v' ::
        (t₂ ++ .asked () (.startPodWait own) u job u' :: t₃)) q w') :
    u'.clock = v.clock ∧ u'.jobs.lookup job = some ⟨own, none⟩ ∧
      (u'.cluster.pods.subscription? own).isSome = true ∧
      Paced World.answer (afterStartOfWait s selector job) u' t₃ q w' := by
  rw [waitForRunningPod_eq] at h
  obtain ⟨hidle₁, hbefore, hopened, hrest⟩ := h.at_question
    (P := fun r => r = .watch .pod (.labels selector)) rfl asks_afterPodWatch
  obtain ⟨hidle₂, hbetween, hstarted, hafter⟩ := hrest.at_question
    (P := fun r => r = .startPodWait own) rfl asks_afterStartOfWait
  have hturns₁ := hothers.left
  have hturns₂ := hothers.right.tail.left
  obtain ⟨rfl, rfl⟩ := Prod.mk.inj (Option.some.inj hopened)
  obtain ⟨rfl, rfl⟩ := Prod.mk.inj (Option.some.inj hstarted)
  -- The number of the wait is new, so nothing takes it for a wait of its own before.
  have hnext : w.nextJob ≤ u.nextJob := by
    have hnext₁ : w.nextJob ≤ v.nextJob :=
      hbefore.kept_of_idle (P := fun x => w.nextJob ≤ x.nextJob)
        (fun hturn hle => Nat.le_trans hle hturn.nextJob_le) hturns₁ hidle₁ (Nat.le_refl _)
    exact hbetween.kept_of_idle (P := fun x => w.nextJob ≤ x.nextJob)
      (fun hturn hle => Nat.le_trans hle hturn.nextJob_le) hturns₂ hidle₂ hnext₁
  have hnone : v.jobs.lookup u.nextJob = none :=
    hbefore.kept_of_idle (P := fun x => x.jobs.lookup u.nextJob = none)
      (fun hturn hnone => (hturn.unstarted hnone).1) hturns₁ hidle₁ (hnumbered.lookup_eq_none hnext)
  have hopen : ((v.cluster.pods.watch (.labels selector)).2.subscription?
      v.cluster.pods.nextHandle).isSome = true := by
    show ((v.cluster.pods.watches ++ _).lookup _).isSome = true
    rw [List.lookup_append, List.lookup_cons_self, Option.isSome_or]
    exact Bool.or_true _
  obtain ⟨hnone', hopen'⟩ := hbetween.kept_of_idle
    (P := fun x => x.jobs.lookup u.nextJob = none ∧
      (x.cluster.pods.subscription? v.cluster.pods.nextHandle).isSome = true)
    (fun hturn h => ⟨(hturn.unstarted h.1).1, (hturn.unstarted h.1).2 h.2⟩) hturns₂ hidle₂
    ⟨hnone, hopen⟩
  have hready : ∀ x : World, x.answer (.startPodWait v.cluster.pods.nextHandle) ≠ none :=
    fun _ => Option.some_ne_none _
  obtain ⟨-, hclock⟩ := hbetween.clock_eq_of_ready hready hidle₂
  refine ⟨hclock, ?_, hopen', hafter⟩
  show (u.jobs ++ _).lookup _ = _
  rw [List.lookup_append, hnone', Option.none_or, List.lookup_cons_self]

/-- **The wait in the background agrees with the plain one.** The watch carries a stream of pod
events, with breaks and an end as may be, at any times but not just when `podTimeout` is over.
Others do what they like between any two questions, the background wait takes notice of what came in
any turn between them, but before time goes by. Then whatever the wait comes to is what the plain
wait comes to on that stream, for the same verdicts and the same time; and once the time is up it
has come to it. -/
theorem waitForRunningPod_agrees (hnumbered : w.Numbered)
    (hothers : OthersDo (JobTurn own job)
      (t₁ ++ .asked () (.watch .pod (.labels selector)) v own v' ::
        (t₂ ++ .asked () (.startPodWait own) u job u' :: t₃)))
    (hcarries : ∀ e ∈ .asked () (.watch .pod (.labels selector)) v own v' ::
      (t₂ ++ .asked () (.startPodWait own) u job u' :: t₃),
        Carries own v.clock (arrivals atEnd 0 items) e.after)
    (htie : ∀ a ∈ arrivals atEnd 0 items, a.1 ≠ s.podTimeout)
    (h : Paced World.answer (waitForRunningPod s selector).run w
      (t₁ ++ .asked () (.watch .pod (.labels selector)) v own v' ::
        (t₂ ++ .asked () (.startPodWait own) u job u' :: t₃)) q w') :
    let plain := (awaitCondition s.podTimeout (fun _ change p => (podVerdict change p, ())) atEnd ()
      items).ending.result ("pod matching " ++ selector) (.ofMillis s.podTimeout)
    (∀ r, q = .done r → r = plain) ∧
    (v.clock + s.podTimeout ≤ w'.clock → q.atOnce World.answer w' = some plain) := by
  intro plain
  obtain ⟨hclock, hjob, hwatch, hrest⟩ := h.at_start hnumbered hothers
  have hcarries' : ∀ e ∈ .asked () (.startPodWait own) u job u' :: t₃,
      Carries own v.clock (arrivals atEnd 0 items) e.after :=
    fun e he => hcarries e (List.mem_cons_of_mem _ (List.mem_append_right _ he))
  have hstate : JobState own job (v.clock + s.podTimeout)
      (endingInTime s.podTimeout podVerdict (arrivals atEnd 0 items)) u' := by
    refine .waiting hjob hwatch (hclock ▸ Nat.le_add_right _ _) fun hlate => ?_
    have hzero : s.podTimeout = 0 := by omega
    rw [hzero]
    exact endingInTime_late fun a _ => Nat.zero_le _
  have hplain : plain = ((endingInTime s.podTimeout podVerdict (arrivals atEnd 0 items)).getD
      .timedOut).result ("pod matching " ++ selector) (.ofMillis s.podTimeout) :=
    congrArg (Ending.result _ _) (awaitFrom_ending items)
  rw [hplain]
  exact Paced.joined_for htie hothers.right.tail.right.tail
    (hcarries' _ List.mem_cons_self) (fun e he => hcarries' e (List.mem_cons_of_mem _ he)) hstate
    hclock hrest

end

/-! ## A pod that comes in time -/

/-- A pod that runs. -/
def runningPod : Pod where
  metadata := { name := some "web-1", resourceVersion := some "1"
                labels := some (.ofList [("app", "web")]) }
  status := some { phase := some "Running" }

/-- A stream on which the pod comes after a while. -/
def podStream : List (TimedItem Pod) := [⟨5, .event (.object .added runningPod)⟩]

/-- A world in which a wait for the pod was started. -/
def podAwaited : World where
  cluster := (Cluster.withStore { ns := "dev" } .pod (Store.watch {} (.labels "app=web")).2)
  jobs := [(0, ⟨0, none⟩)]
  nextJob := 1

/-- The world when the pod has come. -/
def podFiled : World where
  clock := 5
  cluster := { podAwaited.cluster with pods := (podAwaited.cluster.pods.upsert runningPod).2 }
  jobs := podAwaited.jobs
  nextJob := podAwaited.nextJob

/-- The pod comes, the background wait takes notice, and its caller gets the pod. -/
theorem waitForRunningPod_agrees_web :
    ∃ own job v' u' t₃ w', Paced World.answer (waitForRunningPod {} "app=web").run
        { cluster := { ns := "dev" } }
        ([] ++ .asked () (.watch .pod (.labels "app=web")) { cluster := { ns := "dev" } } own v' ::
          ([] ++ .asked () (.startPodWait own) v' job u' :: t₃)) (.done (.ok runningPod)) w' ∧
      (∀ e ∈ t₃, Carries own 0 (arrivals .silent 0 podStream) e.after) ∧
      (awaitCondition 120000 (fun _ change p => (podVerdict change p, ())) .silent ()
        podStream).ending.result "pod matching app=web" (.ofMillis 120000) = .ok runningPod := by
  let w : World := { cluster := { ns := "dev" } }
  let opened := w.modifyCluster
    (·.withStore .pod ((w.cluster.store .pod).watch (.labels "app=web")).2)
  let noticed := podFiled.finishJob 0
  let t₃ : List (Event Unit) := [.asked () .now podAwaited 0 podAwaited,
    .other podAwaited { podAwaited with clock := 5 }, .other { podAwaited with clock := 5 } podFiled,
    .other podFiled noticed,
    .asked () (.joinPodWait 0 120000) noticed (.satisfied runningPod) (noticed.dropJob 0)]
  have hfiled : podFiled.cluster.pods.subscription? 0 =
      some { selector := .labels "app=web", queue := [.object .added runningPod] } := rfl
  have hdecided : podFiled.ending? .pod 0 podVerdict = some (.satisfied runningPod) := by
    rw [World.ending?_eq_heard hfiled]
    rfl
  have hjoined : noticed.answer (.joinPodWait 0 120000) =
      some (.satisfied runningPod, noticed.dropJob 0) :=
    World.answer_join_of_ended (World.lookup_finishJob rfl hdecided)
  have hrun : Paced World.answer (waitForRunningPod {} "app=web").run w
      ([] ++ .asked () (.watch .pod (.labels "app=web")) w 0 opened ::
        ([] ++ .asked () (.startPodWait 0) opened 0 podAwaited :: t₃))
      (.done (.ok runningPod)) (noticed.dropJob 0) := by
    have hwakes : ∀ d ∈ some 120000, 5 ≤ d := fun d hd => by cases hd; decide
    refine .asked rfl (.asked rfl (.asked rfl (.tick rfl (Nat.zero_le 5) hwakes ?_)))
    exact .other rfl (.other rfl (.asked hjoined (.start _ _)))
  have hothers : OthersDo (JobTurn 0 0)
      ([] ++ .asked () (.watch .pod (.labels "app=web")) w 0 opened ::
        ([] ++ .asked () (.startPodWait 0) opened 0 podAwaited :: t₃)) := by
    intro x y hmem
    simp only [t₃, List.nil_append, List.mem_cons, List.not_mem_nil, or_false, reduceCtorEq,
      false_or, Event.other.injEq] at hmem
    rcases hmem with ⟨rfl, rfl⟩ | ⟨rfl, rfl⟩ | ⟨rfl, rfl⟩
    · refine .rest fun handle hjob => ?_
      cases hjob
      rfl
    · exact .of_storeTurn (.file runningPod) rfl rfl rfl
    · exact .notice
  -- Nothing is told before it is due, and the pod as soon as it is.
  have hsilent : ∀ time, time ≤ 5 → ToldBy (arrivals .silent 0 podStream) time [] := by
    intro time htime
    refine ⟨0, rfl, fun a ha => absurd ha List.not_mem_nil, fun a ha => ?_⟩
    cases List.mem_singleton.mp ha
    exact htime
  have htold : ToldBy (arrivals .silent 0 podStream) 5 [.object .added runningPod] := by
    refine ⟨1, rfl, fun a ha => ?_, fun a ha => absurd ha List.not_mem_nil⟩
    cases List.mem_singleton.mp ha
    exact Nat.le_refl 5
  have hcarries : ∀ e ∈ .asked () (.watch .pod (.labels "app=web")) w 0 opened ::
      ([] ++ .asked () (.startPodWait 0) opened 0 podAwaited :: t₃),
        Carries 0 w.clock (arrivals .silent 0 podStream) e.after := by
    intro e he s hs
    simp only [t₃, List.nil_append, List.mem_cons, List.not_mem_nil, or_false] at he
    rcases he with rfl | rfl | rfl | rfl | rfl | rfl | rfl
    · cases hs; exact hsilent 0 (Nat.zero_le 5)
    · cases hs; exact hsilent 0 (Nat.zero_le 5)
    · cases hs; exact hsilent 0 (Nat.zero_le 5)
    · cases hs; exact hsilent 5 (Nat.le_refl 5)
    · cases hfiled.symm.trans hs; exact htold
    · cases hs
    · cases hs
  have htie : ∀ a ∈ arrivals .silent 0 podStream, a.1 ≠ 120000 := by
    intro a ha
    cases List.mem_singleton.mp ha
    decide
  have hnumbered : w.Numbered := fun p hp => absurd hp List.not_mem_nil
  have hagrees := waitForRunningPod_agrees hnumbered hothers hcarries htie hrun
  refine ⟨0, 0, opened, podAwaited, t₃, _, hrun, fun e he => hcarries e ?_, (hagrees.1 _ rfl).symm⟩
  exact List.mem_cons_of_mem _ (List.mem_cons_of_mem _ he)

end InnerLoop
