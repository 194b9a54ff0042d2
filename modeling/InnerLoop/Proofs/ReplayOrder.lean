import InnerLoop.Proofs.Alone
import InnerLoop.Proofs.PodRace
import InnerLoop.Proofs.StoreRun
import Mathlib.Data.List.Perm.Basic

/-!
# In which order a wait is shown the pods

A watch is first told of the pods that are there, in the order of their names, and a wait for a
running pod ends with the first of them that decides: one that runs, or one that failed or is
unknown. So where there are pods of both kinds, their names decide.

- `Pod.Runs`, `Pod.IsLost`: the two kinds of pods that decide.
- `replayOutcome`: what a wait comes to that is shown some pods and nothing else.
- `QuietRun`, `QuietRun.eq_replayOutcome`: runs in which nothing is told later, and their result.
- `runAlone_waitForRunningPod`: the wait with nothing beside it ends, with that result.
- `SameButNames`, `World.arrange`: worlds with the same pods under other names.
- `replay_order_decides_iff`: **when the names of the pods do not matter**.
-/

namespace InnerLoop

open Store

/-! ## Pods that decide -/

namespace Pod

/-- The phase of a pod. -/
def phase? (p : Pod) : Option String := p.status.bind (·.phase)

/-- A pod that runs. -/
def Runs (p : Pod) : Prop := p.phase? = some "Running"

/-- A pod that failed, or of which nothing is known. -/
def IsLost (p : Pod) : Prop := p.phase? = some "Failed" ∨ p.phase? = some "Unknown"

instance (p : Pod) : Decidable p.Runs := inferInstanceAs (Decidable (_ = _))

instance (p : Pod) : Decidable p.IsLost := inferInstanceAs (Decidable (_ ∨ _))

/-- What is said of a pod that is lost. -/
def loss (p : Pod) : String :=
  Text.trimmedEnd ("pod " ++ Resource.nameOf p ++ " is " ++ p.phase?.getD "" ++ " " ++
    (p.status.bind (·.message)).getD "")

theorem not_isLost_of_runs {p : Pod} (h : p.Runs) : ¬ p.IsLost := by
  unfold IsLost
  rw [h]
  decide

end Pod

/-- What a wait says to a pod that is there. -/
theorem podVerdict_added (p : Pod) : podVerdict .added p =
    if p.Runs then .satisfied else if p.IsLost then .failed p.loss else .pending := by
  unfold podVerdict
  rw [if_neg (by decide)]
  split
  · rename_i hphase
    have hruns : p.Runs := hphase
    rw [if_pos hruns]
  · rename_i phase hother hphase
    have hruns : ¬ p.Runs := fun h => hother (Option.some.inj (hphase.symm.trans h))
    have hlost : p.IsLost ↔ phase = "Failed" ∨ phase = "Unknown" := by
      unfold Pod.IsLost Pod.phase?
      rw [hphase, Option.some.injEq, Option.some.injEq]
    have hloss : p.loss = Text.trimmedEnd ("pod " ++ Resource.nameOf p ++ " is " ++ phase ++ " " ++
        (p.status.bind (·.message)).getD "") := by
      unfold Pod.loss Pod.phase?
      rw [hphase]
      rfl
    rw [if_neg hruns, hloss]
    exact (if_congr hlost rfl rfl).symm
  · rename_i hphase
    have hnone : p.phase? = none := hphase
    have hruns : ¬ p.Runs := fun h => nomatch hnone.symm.trans h
    have hlost : ¬ p.IsLost := fun h => h.elim (fun h => nomatch hnone.symm.trans h)
      fun h => nomatch hnone.symm.trans h
    rw [if_neg hruns, if_neg hlost]

/-! ## Pods in a row -/

/-- What a wait for a pod comes to that is shown some pods in a row and nothing after them: the first
that runs or is lost decides, and if there is none its time runs up. -/
def replayOutcome (s : Settings) (selector : String) (pods : List Pod) : Except Failure Pod :=
  match pods.find? fun p => p.Runs ∨ p.IsLost with
  | none => .error (.timeout ("pod matching " ++ selector) (.ofMillis s.podTimeout))
  | some p =>
    if p.Runs then .ok p else .error (.conditionFailed ("pod matching " ++ selector) p.loss)

/-- What a watch is told of the pods that are there. -/
def replayed (pods : List Pod) : List (WatchEvent Pod) := pods.map (.object .added)

/-- The first that decides is what a wait ends with. -/
theorem result_firstDecisive_replayed (s : Settings) (selector : String) (pods : List Pod) :
    ((firstDecisive podVerdict (replayed pods)).getD .timedOut).result
        ("pod matching " ++ selector) (.ofMillis s.podTimeout) =
      replayOutcome s selector pods := by
  induction pods with
  | nil => rfl
  | cons p pods ih =>
    have hfirst : firstDecisive podVerdict (replayed (p :: pods)) =
        ((podVerdict .added p).ending? p).or (firstDecisive podVerdict (replayed pods)) := by
      show List.findSome? _ (_ :: _) = _
      have htold : (WatchEvent.object .added p).ending? podVerdict =
          (podVerdict .added p).ending? p := rfl
      rw [List.findSome?_cons, htold]
      cases (podVerdict .added p).ending? p <;> rfl
    rw [hfirst, podVerdict_added]
    unfold replayOutcome
    by_cases hruns : p.Runs
    · rw [if_pos hruns, List.find?_cons_of_pos (by simp [hruns])]
      exact (if_pos hruns).symm
    · by_cases hlost : p.IsLost
      · rw [if_neg hruns, if_pos hlost, List.find?_cons_of_pos (by simp [hlost])]
        exact (if_neg hruns).symm
      · rw [if_neg hruns, if_neg hlost, List.find?_cons_of_neg (by simp [hruns, hlost])]
        exact ih

/-! ## Runs in which nothing is told later -/

/-- The pods that a label selector means, in the order of their names. -/
def World.podsOf (w : World) (selector : String) : List Pod := w.cluster.pods.list (.labels selector)

/-- What happens in a run of the wait, around the opening of the watch `own` and the start of the
background wait `job`. -/
def waitEvents (selector : String) (own job : Nat) (v v' u u' : World)
    (between later : List (Event Unit)) : List (Event Unit) :=
  .asked () (.watch .pod (.labels selector)) v own v' ::
    (between ++ .asked () (.startPodWait own) u job u' :: later)

/-- A run of the wait up to a result, in which the watch is opened in the world `v` and is told of no
change after that. Others do what they like besides, in any turn, and leave the wait alone. -/
inductive QuietRun (s : Settings) (selector : String) (v : World) (r : Except Failure Pod) : Prop
  | intro {own job : Nat} {w v' u u' w' : World} {before between later : List (Event Unit)}
      (hnumbered : w.Numbered)
      (hothers : OthersDo (JobTurn own job)
        (before ++ waitEvents selector own job v v' u u' between later))
      (hquiet : ∀ e ∈ waitEvents selector own job v v' u u' between later, ∀ sub,
        e.after.cluster.pods.subscription? own = some sub →
        sub.heard = replayed (v.podsOf selector))
      (h : Paced World.answer (waitForRunningPod s selector).run w
        (before ++ waitEvents selector own job v v' u u' between later) (.done r) w')

section

variable {s : Settings} {selector : String} {v : World} {r : Except Failure Pod} {pods : List Pod}

/-- Pods that are there at once are there before any time is up. -/
theorem toldBy_replayed (pods : List Pod) (time : Nat) :
    ToldBy ((replayed pods).map fun e => (0, e)) time (replayed pods) := by
  refine ⟨((replayed pods).map fun e => (0, e)).length, ?_, ?_, ?_⟩
  · rw [List.take_length, List.map_map]
    exact (List.map_id _).symm
  · intro a ha
    rw [List.take_length] at ha
    obtain ⟨e, -, rfl⟩ := List.mem_map.mp ha
    exact Nat.zero_le time
  · intro a ha
    rw [List.drop_length] at ha
    cases ha

theorem endingInTime_replayed (hpos : 0 < s.podTimeout) (pods : List Pod) :
    endingInTime s.podTimeout podVerdict ((replayed pods).map fun e => (0, e)) =
      firstDecisive podVerdict (replayed pods) := by
  unfold endingInTime firstDecisive
  rw [List.findSome?_map]
  exact congrArg (List.findSome? · _) (funext fun e => if_pos hpos)

/-- **A run in which nothing is told later** comes to what the pods that are there come to. -/
theorem QuietRun.eq_replayOutcome (hpos : 0 < s.podTimeout) (h : QuietRun s selector v r) :
    r = replayOutcome s selector (v.podsOf selector) := by
  cases h with
  | @intro own job w v' u u' w' before between later hnumbered hothers hquiet h =>
    -- All is told at once, so nothing comes just when time is up.
    let arr := (replayed (v.podsOf selector)).map fun e => (0, e)
    have hcarries : ∀ e ∈ waitEvents selector own job v v' u u' between later,
        Carries own v.clock arr e.after := by
      intro e he sub hsub
      rw [hquiet e he sub hsub]
      exact toldBy_replayed _ _
    have hlater : ∀ e ∈ .asked () (.startPodWait own) u job u' :: later,
        Carries own v.clock arr e.after :=
      fun e he => hcarries e (List.mem_cons_of_mem _ (List.mem_append_right _ he))
    have htie : ∀ a ∈ arr, a.1 ≠ s.podTimeout := by
      intro a ha
      obtain ⟨e, -, rfl⟩ := List.mem_map.mp ha
      exact Nat.ne_of_lt hpos
    obtain ⟨hclock, hjob, hwatch, hrest⟩ := h.at_start hnumbered hothers
    have hstate : JobState own job (v.clock + s.podTimeout)
        (endingInTime s.podTimeout podVerdict arr) u' :=
      .waiting hjob hwatch (hclock ▸ Nat.le_add_right _ _) fun hlate => by omega
    have hjoined := (Paced.joined_for htie hothers.right.tail.right.tail
      (hlater _ List.mem_cons_self) (fun e he => hlater e (List.mem_cons_of_mem _ he)) hstate
      hclock hrest).1 r rfl
    rw [endingInTime_replayed hpos] at hjoined
    exact hjoined.trans (result_firstDecisive_replayed s selector _)

end

/-! ## The wait alone -/

/-- Nothing is waited for in the background, and the books of the store of pods are in order. -/
structure World.Unawaited (w : World) : Prop where
  jobs : w.jobs = []
  pods : w.cluster.pods.Sound

section

variable {s : Settings} {selector : String} {w : World}

/-- The world when the background wait is started. -/
def World.awaitingPod (w : World) (selector : String) : World where
  clock := w.clock
  cluster := w.cluster.withStore .pod (w.cluster.pods.watch (.labels selector)).2
  files := w.files
  jobs := [(w.nextJob, { handle := w.cluster.pods.nextHandle })]
  nextJob := w.nextJob + 1
  minted := w.minted
  observers := w.observers

/-- What leads to the background wait takes no turn. -/
theorem run_alone_awaitingPod (hjobs : w.jobs = []) (turns : Nat) :
    runAlone turns (waitForRunningPod s selector).run w =
      Joint.run none turns ((Program.ask (.joinPodWait w.nextJob (w.clock + s.podTimeout))
        fun e => .done (e.result ("pod matching " ++ selector) (.ofMillis s.podTimeout))).alone
          w.clock (w.awaitingPod selector)) := by
  let opened := w.modifyCluster (·.withStore .pod (w.cluster.pods.watch (.labels selector)).2)
  have hopen : w.answer (.watch .pod (.labels selector)) =
      some (w.cluster.pods.nextHandle, opened) := rfl
  have hstart : opened.answer (.startPodWait w.cluster.pods.nextHandle) =
      some (w.nextJob, w.awaitingPod selector) := by
    show some (w.nextJob, { opened with
      jobs := w.jobs ++ [(w.nextJob, _)], nextJob := w.nextJob + 1 }) = _
    rw [hjobs]
    rfl
  have hclock : (w.awaitingPod selector).answer .now = some (w.clock, w.awaitingPod selector) := rfl
  rw [runAlone_eq, waitForRunningPod_eq, run_alone_of_answer hopen, run_alone_of_answer hstart]
  exact run_alone_of_answer hclock turns

/-- The background wait ends as the pods decide that are there. -/
theorem ending?_awaitingPod (hw : w.Unawaited) :
    (w.awaitingPod selector).ending? .pod w.cluster.pods.nextHandle podVerdict =
      firstDecisive podVerdict (replayed (w.podsOf selector)) := by
  have hsub : (w.awaitingPod selector).cluster.pods.subscription? w.cluster.pods.nextHandle =
      some { selector := .labels selector, queue := replayed (w.podsOf selector) } := by
    show (w.cluster.pods.watches ++ _).lookup w.cluster.pods.nextHandle = _
    rw [List.lookup_append, hw.pods.lookup_nextHandle, Option.none_or, List.lookup_cons_self]
    rfl
  rw [World.ending?_eq_heard hsub]
  rfl

/-- A background wait that has ended is counted. -/
theorem World.finishedJobs_pos {job own : Nat} {e : Ending Pod}
    (h : w.jobs.lookup job = some ⟨own, some e⟩) : 0 < w.finishedJobs := by
  obtain ⟨l₁, l₂, hjobs, -⟩ := List.lookup_eq_some_iff.mp h
  have hmem : (job, (⟨own, some e⟩ : PodJob)) ∈ w.jobs := by
    rw [hjobs]
    exact List.mem_append_right _ List.mem_cons_self
  exact List.length_pos_of_mem (List.mem_filter.mpr ⟨hmem, rfl⟩)

/-- The background wait has not ended when it is started. -/
theorem lookup_awaitingPod (w : World) (selector : String) :
    (w.awaitingPod selector).jobs.lookup w.nextJob =
      some ⟨w.cluster.pods.nextHandle, none⟩ :=
  List.lookup_cons_self

/-- One turn later the wait is answered: the background wait has taken notice of the pod that
decides, or there is none and time is up. -/
theorem exists_answer_untilTime (selector : String) (hw : w.Unawaited) (deadline : Nat) :
    ∃ w', ((w.awaitingPod selector).untilTime deadline).answer (.joinPodWait w.nextJob deadline) =
      some ((firstDecisive podVerdict (replayed (w.podsOf selector))).getD .timedOut, w') := by
  let v := w.awaitingPod selector
  have hjob : v.jobs.lookup w.nextJob = some ⟨w.cluster.pods.nextHandle, none⟩ :=
    lookup_awaitingPod w selector
  have hfinish : v.finishJobs = v.finishJob w.nextJob := rfl
  have hfinished : v.finishedJobs = 0 := rfl
  rw [← ending?_awaitingPod hw]
  unfold World.untilTime
  rw [hfinish, hfinished]
  -- The runner lets time go by only if no background wait has taken notice of anything.
  cases he : v.ending? .pod w.cluster.pods.nextHandle podVerdict with
  | some e =>
    have hended := World.lookup_finishJob hjob he
    rw [if_pos (World.finishedJobs_pos hended)]
    exact ⟨_, World.answer_join_of_ended hended⟩
  | none =>
    have hidle : v.JobIdle w.nextJob := by
      intro handle hhandle
      cases hjob.symm.trans hhandle
      exact he
    rw [World.finishJob_of_idle hidle, hfinished, if_neg (Nat.lt_irrefl 0)]
    let late : World := { v with clock := max v.clock deadline }
    have hjob' : late.jobs.lookup w.nextJob = some ⟨w.cluster.pods.nextHandle, none⟩ := hjob
    refine ⟨late.dropJob w.nextJob, ?_⟩
    rw [World.answer_join_of_waiting hjob']
    exact if_pos (Nat.le_max_right _ _)

/-- **The wait alone** ends in its second turn, with what the pods come to that are there. -/
theorem runAlone_waitForRunningPod (selector : String) (hpos : 0 < s.podTimeout)
    (hw : w.Unawaited) (turns : Nat) :
    (runAlone turns (waitForRunningPod s selector).run w).map (·.main.result) =
      if turns < 2 then none else some (some (replayOutcome s selector (w.podsOf selector))) := by
  have hheld : (w.awaitingPod selector).answer
      (.joinPodWait w.nextJob (w.clock + s.podTimeout)) = none := by
    rw [World.answer_join_of_waiting (lookup_awaitingPod w selector), if_neg]
    show ¬ w.clock + s.podTimeout ≤ w.clock
    omega
  rw [run_alone_awaitingPod hw.jobs]
  match turns with
  | 0 => rfl
  | 1 =>
    rw [run_alone_of_held hheld nofun rfl]
    rfl
  | turns + 2 =>
    obtain ⟨w', hanswer⟩ := exists_answer_untilTime selector hw (w.clock + s.podTimeout)
    rw [run_alone_of_held hheld nofun rfl, run_alone_of_answer hanswer, if_neg (by omega),
      ← result_firstDecisive_replayed]
    rfl

/-- So it comes to its end, whatever the pods are. -/
theorem exists_runAlone_waitForRunningPod (selector : String) (hpos : 0 < s.podTimeout)
    (hw : w.Unawaited) :
    ∃ turns o, runAlone turns (waitForRunningPod s selector).run w = some o ∧
      o.main.result = some (replayOutcome s selector (w.podsOf selector)) := by
  have hall := runAlone_waitForRunningPod selector hpos hw 2
  rw [if_neg (Nat.lt_irrefl 2)] at hall
  exact ⟨2, Option.map_eq_some_iff.mp hall⟩

/-- The wait succeeds when it is run with nothing beside it. -/
def Succeeds (s : Settings) (selector : String) (w : World) : Prop :=
  ∃ turns o p, runAlone turns (waitForRunningPod s selector).run w = some o ∧
    o.main.result = some (.ok p)

/-- It succeeds if the pods come to one of them. -/
theorem succeeds_iff (hpos : 0 < s.podTimeout) (hw : w.Unawaited) :
    Succeeds s selector w ↔ ∃ p, replayOutcome s selector (w.podsOf selector) = .ok p := by
  constructor
  · rintro ⟨turns, o, p, hrun, hresult⟩
    have hall := runAlone_waitForRunningPod selector hpos hw turns
    rw [hrun] at hall
    split at hall
    · cases hall
    · exact ⟨p, Option.some.inj ((Option.some.inj hall).symm.trans hresult)⟩
  · rintro ⟨p, hp⟩
    obtain ⟨turns, o, hrun, hresult⟩ := exists_runAlone_waitForRunningPod selector hpos hw
    exact ⟨turns, o, p, hrun, hresult.trans (congrArg some hp)⟩

end

/-! ## The first that decides -/

section

variable {s : Settings} {selector : String} {p : Pod} {pods : List Pod}

/-- A pod is what others come to if it is the first that decides, and runs. -/
theorem replayOutcome_eq_ok_iff : replayOutcome s selector pods = .ok p ↔
    (pods.find? fun p => p.Runs ∨ p.IsLost) = some p ∧ p.Runs := by
  unfold replayOutcome
  cases pods.find? fun p => p.Runs ∨ p.IsLost with
  | none => exact ⟨nofun, fun h => nomatch h.1⟩
  | some q =>
    dsimp only
    by_cases hruns : q.Runs
    · rw [if_pos hruns]
      constructor
      · rintro ⟨⟩
        exact ⟨rfl, hruns⟩
      · rintro ⟨⟨⟩, -⟩
        rfl
    · rw [if_neg hruns]
      constructor
      · exact nofun
      · rintro ⟨⟨⟩, h⟩
        exact absurd h hruns

/-- Where no pod is lost, one that runs is enough. -/
theorem exists_ok_iff_of_no_loss (h : ¬ ∃ p ∈ pods, p.IsLost) :
    (∃ p, replayOutcome s selector pods = .ok p) ↔ ∃ p ∈ pods, p.Runs := by
  constructor
  · rintro ⟨p, hp⟩
    obtain ⟨hfind, hruns⟩ := replayOutcome_eq_ok_iff.mp hp
    exact ⟨p, List.mem_of_find?_eq_some hfind, hruns⟩
  · rintro ⟨p, hp, hruns⟩
    have hsome : (pods.find? fun p => p.Runs ∨ p.IsLost).isSome :=
      List.find?_isSome.mpr ⟨p, hp, by simp [hruns]⟩
    obtain ⟨q, hq⟩ := Option.isSome_iff_exists.mp hsome
    have hkind : q.Runs ∨ q.IsLost := by simpa using List.find?_some hq
    have hlost : ¬ q.IsLost := fun hlost => h ⟨q, List.mem_of_find?_eq_some hq, hlost⟩
    exact ⟨q, replayOutcome_eq_ok_iff.mpr ⟨hq, hkind.resolve_right hlost⟩⟩

/-- Where no pod runs there is none to come to. -/
theorem not_exists_ok_of_none_runs (h : ¬ ∃ p ∈ pods, p.Runs) :
    ¬ ∃ p, replayOutcome s selector pods = .ok p := by
  rintro ⟨p, hp⟩
  obtain ⟨hfind, hruns⟩ := replayOutcome_eq_ok_iff.mp hp
  exact h ⟨p, List.mem_of_find?_eq_some hfind, hruns⟩

/-- A pod that decides and comes first is what counts. -/
theorem exists_ok_cons_iff (h : p.Runs ∨ p.IsLost) :
    (∃ q, replayOutcome s selector (p :: pods) = .ok q) ↔ p.Runs := by
  have hfind : ((p :: pods).find? fun p => p.Runs ∨ p.IsLost) = some p :=
    List.find?_cons_of_pos (by simpa using h)
  constructor
  · rintro ⟨q, hq⟩
    obtain ⟨hfirst, hruns⟩ := replayOutcome_eq_ok_iff.mp hq
    cases hfind.symm.trans hfirst
    exact hruns
  · intro hruns
    exact ⟨p, replayOutcome_eq_ok_iff.mpr ⟨hfind, hruns⟩⟩

end

/-! ## Other names -/

namespace Pod

/-- A pod under another name. -/
def renamed (name : String) (p : Pod) : Pod :=
  { p with metadata := { p.metadata with name := some name } }

/-- What a pod is but for its name, given or to be made up, and the version under which it was
filed. -/
def anonymous (p : Pod) : Pod :=
  { p with metadata := { p.metadata with
      name := none, generateName := none, resourceVersion := none } }

end Pod

/-- The pods that a selector means in two worlds are the same but for their names. -/
def SameButNames (selector : String) (w w' : World) : Prop :=
  ((w.podsOf selector).map Pod.anonymous).Perm ((w'.podsOf selector).map Pod.anonymous)

/-- A name for the pod that is to be at a place in the order of names. -/
def placeName (i : Nat) : String := String.ofList (List.replicate (i + 1) 'a')

/-- Pods under names that keep them in their order. -/
def inOrder (pods : List Pod) : List (String × Pod) :=
  pods.mapIdx fun i p => (placeName i, p.renamed (placeName i))

theorem replicate_lt {c : Char} {i j : Nat} (h : i < j) :
    List.replicate i c < List.replicate j c := by
  induction i generalizing j with
  | zero =>
    obtain ⟨j, rfl⟩ := Nat.exists_eq_succ_of_ne_zero (Nat.ne_of_gt h)
    exact List.nil_lt_cons c _
  | succ i ih =>
    obtain ⟨j, rfl⟩ := Nat.exists_eq_succ_of_ne_zero (Nat.ne_of_gt (Nat.zero_lt_of_lt h))
    exact List.cons_lt_cons_iff.mpr (.inr ⟨rfl, ih (Nat.lt_of_succ_lt_succ h)⟩)

theorem ascending_inOrder (pods : List Pod) : Ascending (inOrder pods) := by
  refine List.pairwise_iff_getElem.mpr fun i j hi hj hij => ?_
  have hname : ∀ {k} (hk : k < (inOrder pods).length), (inOrder pods)[k].1 = placeName k := by
    intro k hk
    simp only [inOrder, List.getElem_mapIdx]
  rw [hname, hname]
  refine compareOfLessAndEq_eq_lt.mpr (String.lt_iff.mpr ?_)
  unfold placeName
  rw [String.toList_ofList, String.toList_ofList]
  exact replicate_lt (Nat.succ_lt_succ hij)

/-- The world with these pods in its store, under names that keep them in their order. -/
def World.arrange (w : World) (pods : List Pod) : World :=
  w.modifyCluster fun c => { c with
    pods := { c.pods with objects := ⟨inOrder pods, ascending_inOrder pods⟩ } }

section

variable {s : Settings} {selector : String} {w w' : World} {pods : List Pod}

/-- The store of pods under other names is in order, if the pods were in a store that is. -/
theorem World.Unawaited.arrange (hw : w.Unawaited) (hpods : pods ⊆ w.podsOf selector) :
    (w.arrange pods).Unawaited where
  jobs := hw.jobs
  pods := by
    have hfound : ∀ {name : String} {o : Pod},
        (w.arrange pods).cluster.pods.objects.find? name = some o →
        ∃ p ∈ pods, o = p.renamed name := by
      intro name o ho
      obtain ⟨i, hi, heq⟩ := List.mem_mapIdx.mp (SortedMap.find?_eq_some_iff.mp ho)
      cases heq
      exact ⟨pods[i], List.getElem_mem hi, rfl⟩
    refine ⟨fun name o ho => ?_, fun name o ho => ?_, hw.pods.handles⟩
    · obtain ⟨p, -, rfl⟩ := hfound ho
      rfl
    · -- A pod keeps the version under which it was filed before.
      obtain ⟨p, hp, rfl⟩ := hfound ho
      obtain ⟨⟨name', p'⟩, hmem, rfl⟩ := List.mem_map.mp (List.mem_filter.mp (hpods hp)).1
      exact hw.pods.versioned name' p' (SortedMap.find?_eq_some_iff.mpr hmem)

/-- A name is nothing that labels say. -/
theorem podsOf_arrange (hpods : pods ⊆ w.podsOf selector) :
    (w.arrange pods).podsOf selector = pods.mapIdx fun i p => p.renamed (placeName i) := by
  have hvalues : (w.arrange pods).cluster.pods.objects.values =
      pods.mapIdx fun i p => p.renamed (placeName i) := by
    show (inOrder pods).map Prod.snd = _
    refine List.ext_getElem (by simp [inOrder]) fun i hi _ => ?_
    simp only [inOrder, List.getElem_map, List.getElem_mapIdx]
  show List.filter _ (w.arrange pods).cluster.pods.objects.values = _
  rw [hvalues]
  refine List.filter_eq_self.mpr fun o ho => ?_
  obtain ⟨i, hi, rfl⟩ := List.mem_mapIdx.mp ho
  exact (List.mem_filter.mp (hpods (List.getElem_mem hi))).2

theorem sameButNames_arrange (h : (w.podsOf selector).Perm pods) :
    SameButNames selector w (w.arrange pods) := by
  unfold SameButNames
  rw [podsOf_arrange h.symm.subset]
  have hnameless : (pods.mapIdx fun i p => p.renamed (placeName i)).map Pod.anonymous =
      pods.map Pod.anonymous := by
    refine List.ext_getElem (by simp) fun i hi _ => ?_
    simp only [List.getElem_map, List.getElem_mapIdx]
    rfl
  rw [hnameless]
  exact h.map Pod.anonymous

/-- What does not depend on names holds of one of the pods in both worlds, or in neither. -/
theorem SameButNames.exists_iff {P : Pod → Prop} (h : SameButNames selector w w')
    (hP : ∀ p, P p.anonymous ↔ P p) :
    (∃ p ∈ w.podsOf selector, P p) ↔ ∃ p ∈ w'.podsOf selector, P p := by
  have hnameless : ∀ pods : List Pod,
      (∃ p ∈ pods, P p) ↔ ∃ p ∈ pods.map Pod.anonymous, P p := by
    intro pods
    simp only [List.mem_map, exists_exists_and_eq_and, hP]
  rw [hnameless, hnameless (w'.podsOf selector)]
  exact exists_congr fun p => and_congr_left fun _ => h.mem_iff

/-- A pod that decides decides alone under the first of all names. -/
theorem exists_succeeds_iff_runs (hpos : 0 < s.podTimeout) (hw : w.Unawaited) {p : Pod}
    (hp : p ∈ w.podsOf selector) (hkind : p.Runs ∨ p.IsLost) :
    ∃ w', w'.Unawaited ∧ SameButNames selector w w' ∧ (Succeeds s selector w' ↔ p.Runs) := by
  obtain ⟨l₁, l₂, heq⟩ := List.append_of_mem hp
  have hperm : (w.podsOf selector).Perm (p :: (l₁ ++ l₂)) := heq ▸ List.perm_middle
  have hsubset : p :: (l₁ ++ l₂) ⊆ w.podsOf selector := hperm.symm.subset
  refine ⟨w.arrange (p :: (l₁ ++ l₂)), hw.arrange hsubset, sameButNames_arrange hperm, ?_⟩
  rw [succeeds_iff hpos (hw.arrange hsubset), podsOf_arrange hsubset, List.mapIdx_cons]
  exact exists_ok_cons_iff (p := p.renamed (placeName 0)) hkind

/-! ## When names decide -/

/-- **When the names of the pods do not matter.** A wait that is told of no change comes to what the
pods that are there come to in the order of their names. So all worlds with the same pods under
other names agree on whether it succeeds, exactly if there are not both a pod that runs and one that
is lost. -/
theorem replay_order_decides_iff (selector : String) (hpos : 0 < s.podTimeout) :
    (∀ v r, QuietRun s selector v r → r = replayOutcome s selector (v.podsOf selector)) ∧
    ∀ w : World, w.Unawaited →
      (∃ turns o, runAlone turns (waitForRunningPod s selector).run w = some o ∧
        o.main.result = some (replayOutcome s selector (w.podsOf selector))) ∧
      ((∀ w', w'.Unawaited → SameButNames selector w w' →
          (Succeeds s selector w' ↔ Succeeds s selector w)) ↔
        ¬ ((∃ p ∈ w.podsOf selector, p.Runs) ∧ ∃ p ∈ w.podsOf selector, p.IsLost)) := by
  refine ⟨fun v r h => h.eq_replayOutcome hpos, fun w hw =>
    ⟨exists_runAlone_waitForRunningPod selector hpos hw, ?_, ?_⟩⟩
  · -- Of two pods that decide differently each one can come first.
    rintro hall ⟨⟨p, hp, hruns⟩, q, hq, hlost⟩
    obtain ⟨w₁, hw₁, hsame₁, hp₁⟩ := exists_succeeds_iff_runs hpos hw hp (.inl hruns)
    obtain ⟨w₂, hw₂, hsame₂, hq₂⟩ := exists_succeeds_iff_runs hpos hw hq (.inr hlost)
    have hok : Succeeds s selector w := (hall w₁ hw₁ hsame₁).mp (hp₁.mpr hruns)
    exact Pod.not_isLost_of_runs (hq₂.mp ((hall w₂ hw₂ hsame₂).mpr hok)) hlost
  · intro hkinds w' hw' hsame
    have hruns : (∃ p ∈ w.podsOf selector, p.Runs) ↔ ∃ p ∈ w'.podsOf selector, p.Runs :=
      hsame.exists_iff fun _ => Iff.rfl
    have hlost : (∃ p ∈ w.podsOf selector, p.IsLost) ↔ ∃ p ∈ w'.podsOf selector, p.IsLost :=
      hsame.exists_iff fun _ => Iff.rfl
    rw [succeeds_iff hpos hw, succeeds_iff hpos hw']
    -- Pods of one kind decide alike, whichever comes first.
    by_cases h : ∃ p ∈ w.podsOf selector, p.IsLost
    · have hnone : ¬ ∃ p ∈ w.podsOf selector, p.Runs := fun hrun => hkinds ⟨hrun, h⟩
      exact iff_of_false (not_exists_ok_of_none_runs fun hrun => hnone (hruns.mpr hrun))
        (not_exists_ok_of_none_runs hnone)
    · rw [exists_ok_iff_of_no_loss h, exists_ok_iff_of_no_loss fun hloss => h (hlost.mpr hloss)]
      exact hruns.symm

end

/-- A pod of the web workload. -/
def webPod (name phase : String) : Pod where
  metadata := { name := some name, labels := some (.ofList [("app", "web")]) }
  status := some { phase := some phase }

/-- A world with two pods in these phases. -/
def podPair (first second : String) : World where
  cluster := (Cluster.withStore { ns := "dev" } .pod
    ((Store.upsert {} (webPod "web-1" first)).2.upsert (webPod "web-2" second)).2)

theorem podsOf_podPair (first second : String) : (podPair first second).podsOf "app=web" =
    [Resource.withVersion (toString 1) (webPod "web-1" first),
      Resource.withVersion (toString 2) (webPod "web-2" second)] := by
  have hobjects : (podPair first second).cluster.pods.objects =
      (SortedMap.insert {} "web-1" (Resource.withVersion (toString 1) (webPod "web-1" first))).insert
        "web-2" (Resource.withVersion (toString 2) (webPod "web-2" second)) := rfl
  show List.filter _ (podPair first second).cluster.pods.objects.values = _
  rw [hobjects]
  rfl

theorem unawaited_podPair (first second : String) : (podPair first second).Unawaited where
  jobs := rfl
  pods := (Sound.empty.upsert _).upsert _

theorem sameButNames_podPair (first second : String) :
    SameButNames "app=web" (podPair first second) (podPair second first) := by
  unfold SameButNames
  rw [podsOf_podPair, podsOf_podPair]
  exact List.Perm.swap _ _ []

/-- What is said of a pod that failed and is still there. -/
def leftoverLoss : Failure := .conditionFailed "pod matching app=web" "pod web-1 is Failed"

theorem replayOutcome_leftover :
    replayOutcome {} "app=web" ((podPair "Failed" "Running").podsOf "app=web") =
      .error leftoverLoss := by
  rw [podsOf_podPair]
  rfl

/-- A run in which the background wait takes notice of a pod that failed and is still there. -/
theorem quietRun_leftover :
    QuietRun {} "app=web" (podPair "Failed" "Running") (.error leftoverLoss) := by
  let w := podPair "Failed" "Running"
  let opened := w.modifyCluster (·.withStore .pod (w.cluster.pods.watch (.labels "app=web")).2)
  let v := w.awaitingPod "app=web"
  let noticed := v.finishJob 0
  have hw : w.Unawaited := unawaited_podPair _ _
  have hended : v.ending? .pod 0 podVerdict = some (.failed "pod web-1 is Failed") := by
    refine (ending?_awaitingPod hw).trans ?_
    rw [podsOf_podPair]
    rfl
  have hjoin : noticed.answer (.joinPodWait 0 120000) =
      some (.failed "pod web-1 is Failed", noticed.dropJob 0) :=
    World.answer_join_of_ended (World.lookup_finishJob rfl hended)
  have hrun : Paced World.answer (waitForRunningPod {} "app=web").run w
      ([] ++ waitEvents "app=web" 0 0 w opened opened v [] [.asked () .now v 0 v, .other v noticed,
        .asked () (.joinPodWait 0 120000) noticed (.failed "pod web-1 is Failed")
          (noticed.dropJob 0)])
      (.done (.error leftoverLoss)) (noticed.dropJob 0) := by
    refine .asked rfl (.asked rfl (.asked rfl (.other (World.clock_finishJob v 0) ?_)))
    exact .asked hjoin (.start _ _)
  have hnumbered : w.Numbered := fun p hp => absurd hp List.not_mem_nil
  refine .intro hnumbered ?_ ?_ hrun
  · intro x y hmem
    simp only [waitEvents, List.nil_append, List.mem_cons, List.not_mem_nil, or_false,
      reduceCtorEq, false_or, Event.other.injEq] at hmem
    obtain ⟨rfl, rfl⟩ := hmem
    exact .notice
  · intro e he sub hsub
    simp only [waitEvents, List.nil_append, List.mem_cons, List.not_mem_nil, or_false] at he
    rcases he with rfl | rfl | rfl | rfl | rfl
    · cases hsub; rfl
    · cases hsub; rfl
    · cases hsub; rfl
    · cases hsub
    · cases hsub

theorem replay_order_decides_iff_leftover :
    0 < ({} : Settings).podTimeout ∧ (podPair "Failed" "Running").Unawaited ∧
      QuietRun {} "app=web" (podPair "Failed" "Running") (.error leftoverLoss) ∧
      (∃ turns o, runAlone turns (waitForRunningPod {} "app=web").run (podPair "Failed" "Running") =
        some o ∧ o.main.result = some (.error leftoverLoss)) ∧
      ¬ ∀ w', w'.Unawaited → SameButNames "app=web" (podPair "Failed" "Running") w' →
        (Succeeds {} "app=web" w' ↔ Succeeds {} "app=web" (podPair "Failed" "Running")) := by
  have hpos : 0 < ({} : Settings).podTimeout := by decide
  have hw : (podPair "Failed" "Running").Unawaited := unawaited_podPair _ _
  obtain ⟨⟨turns, o, hrun, hresult⟩, hiff⟩ := (replay_order_decides_iff "app=web" hpos).2 _ hw
  refine ⟨hpos, hw, quietRun_leftover, ⟨turns, o, hrun, ?_⟩, fun hall => hiff.mp hall ?_⟩
  · rw [hresult, ← (replay_order_decides_iff "app=web" hpos).1 _ _ quietRun_leftover]
  · rw [podsOf_podPair]
    exact ⟨⟨_, .tail _ (.head _), rfl⟩, _, .head _, .inl rfl⟩

/-- **A pod that failed and is still there decides**: not every wait for a running pod is
independent of the names of the pods. If the pod that failed comes first it fails the wait, and if
the pod that runs comes first the wait succeeds. -/
theorem leftover_pod_decides :
    ¬ ∀ (s : Settings) (selector : String) (w w' : World), 0 < s.podTimeout →
      w.Unawaited → w'.Unawaited → SameButNames selector w w' →
      (Succeeds s selector w ↔ Succeeds s selector w') := by
  intro h
  have hpos : 0 < ({} : Settings).podTimeout := by decide
  have hsame := h {} "app=web" (podPair "Running" "Failed") (podPair "Failed" "Running") hpos
    (unawaited_podPair _ _) (unawaited_podPair _ _) (sameButNames_podPair _ _)
  rw [succeeds_iff hpos (unawaited_podPair _ _), succeeds_iff hpos (unawaited_podPair _ _)] at hsame
  have hfirst : replayOutcome {} "app=web" ((podPair "Running" "Failed").podsOf "app=web") =
      .ok (Resource.withVersion (toString 1) (webPod "web-1" "Running")) := by
    rw [podsOf_podPair]
    rfl
  obtain ⟨p, hp⟩ := hsame.mp ⟨_, hfirst⟩
  cases replayOutcome_leftover.symm.trans hp

end InnerLoop
