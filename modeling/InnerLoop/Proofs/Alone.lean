import InnerLoop.Proofs.Pace

/-!
# Programs that end

A program that asks for nothing but what is answered at once, or what time alone brings about, ends
when it is run with nothing beside it. Before the clock moves on background waits may take notice,
each of them once.

- `Request.NeedsOnlyTime`: the questions.
- `exists_runAlone`: **the program ends**.
- `Paced.run`: what the runner runs is a run of the program, among turns that others may take.
- `exists_run_alone`: **it comes to a result**, among what the runner does of its own accord.
-/

namespace InnerLoop

/-! ## Running alone -/

/-- A question that is always answered, or answered once it is time. -/
def Request.NeedsOnlyTime (r : Request) : Prop :=
  (∃ time, r = .sleepUntil time) ∨ ∀ w : World, w.answer r ≠ none

theorem Request.NeedsOnlyTime.ne_pause {r : Request} (h : r.NeedsOnlyTime) : r ≠ .pause := by
  rintro rfl
  rcases h with ⟨time, h⟩ | h
  · cases h
  · exact h default rfl

section

variable {α : Type}

/-- A program with nothing beside it. -/
def Program.alone (start : Nat) (p : Program α) (w : World) : Joint α Empty where
  start := start
  main := .inl p
  beside := {}
  world := w

theorem runAlone_eq (turns : Nat) (p : Program α) (w : World) :
    runAlone turns p w = Joint.run none turns (p.alone w.clock w) := rfl

variable {start time : Nat} {w w₁ : World}

/-- A question that is answered takes no turn. -/
theorem run_alone_of_answer {r : Request} {reply : r.Reply} {next : r.Reply → Program α}
    (h : w.answer r = some (reply, w₁)) (turns : Nat) :
    Joint.run none turns ((Program.ask r next).alone start w) =
      Joint.run none turns ((next reply).alone start w₁) := by
  have hdrive : (Program.ask r next).drive w = (next reply).drive w₁ := by
    rw [Program.drive, h]
  have hmain : ((Program.ask r next).alone start w).driveMain none =
      ((next reply).alone start w₁).driveMain none := by
    unfold Joint.driveMain Program.alone
    dsimp only
    rw [hdrive]
  cases turns with
  | zero => rfl
  | succ turns =>
    unfold Joint.run
    rw [hmain]

/-- The world in which the runner goes on while a program is held back until some time: background
waits take notice, or else it is time. -/
def World.untilTime (w : World) (time : Nat) : World :=
  if w.finishedJobs < w.finishJobs.finishedJobs then w.finishJobs
  else { w with clock := max w.clock time }

/-- A program that is held back until some time waits for a turn. -/
theorem run_alone_of_held {r : Request} {next : r.Reply → Program α} (hheld : w.answer r = none)
    (hpause : r ≠ .pause) (hwakes : r.wakesAt = some time) (turns : Nat) :
    Joint.run none (turns + 1) ((Program.ask r next).alone start w) =
      Joint.run none turns ((Program.ask r next).alone start (w.untilTime time)) := by
  have hdrive : (Program.ask r next).drive w = (.ask r next, w) := by
    rw [Program.drive, hheld]
  have hmain : ((Program.ask r next).alone start w).driveMain none =
      (Program.ask r next).alone start w := by
    unfold Joint.driveMain Program.alone
    dsimp only
    rw [hdrive]
    rfl
  have hready : ((Program.ask r next).alone start w).isReady = false := by
    show (w.answer r).isSome = false
    rw [hheld]
    rfl
  have hunpause : ((Program.ask r next).alone start w).unpause? = none := by
    cases r with
    | pause => exact absurd rfl hpause
    | _ => rfl
  have hwakesAt : ((Program.ask r next).alone start w).wakesAt none = some time := by
    show earlier (earlier r.wakesAt none) none = some time
    rw [hwakes]
    rfl
  have hwait : ((Program.ask r next).alone start w).wait none =
      (Program.ask r next).alone start (w.untilTime time) := by
    unfold Joint.wait World.untilTime
    dsimp only
    rw [hready, if_neg Bool.false_ne_true, hunpause, hwakesAt]
    by_cases hjobs : w.finishedJobs < w.finishJobs.finishedJobs
    · rw [if_pos hjobs]
      exact if_pos hjobs
    · rw [if_neg hjobs]
      exact if_neg hjobs
  rw [Joint.run, hmain]
  show Joint.run none turns (((Program.ask r next).alone start w).wait none) = _
  rw [hwait]

/-- A program that sleeps waits for a turn. -/
theorem run_alone_of_asleep {next : Unit → Program α} (h : w.clock < time) (turns : Nat) :
    Joint.run none (turns + 1) ((Program.ask (.sleepUntil time) next).alone start w) =
      Joint.run none turns
        ((Program.ask (.sleepUntil time) next).alone start (w.untilTime time)) := by
  have hheld : w.answer (.sleepUntil time) = none := if_neg (Nat.not_le.mpr h)
  exact run_alone_of_held hheld nofun rfl turns

end

/-! ## Coming to an end -/

theorem World.length_jobs_finishJob (w : World) (job : Nat) :
    (w.finishJob job).jobs.length = w.jobs.length := by
  unfold finishJob
  split
  · split
    · exact List.length_map _
    · rfl
  · rfl

/-- Background waits that take notice are there as before. -/
theorem World.length_jobs_finishJobs (w : World) : w.finishJobs.jobs.length = w.jobs.length := by
  unfold finishJobs
  generalize w.jobs.map (·.1) = jobs
  induction jobs generalizing w with
  | nil => rfl
  | cons job jobs ih => exact (ih _).trans (w.length_jobs_finishJob job)

section

variable {α : Type} {start time : Nat}

/-- A program that sleeps goes on at last. The induction is on the background waits that have not
taken notice. -/
theorem exists_run_of_asleep {next : Unit → Program α}
    (hnext : ∀ w, ∃ turns o, Joint.run none turns ((next ()).alone start w) = some o) (w : World) :
    ∃ turns o, Joint.run none turns ((Program.ask (.sleepUntil time) next).alone start w) =
      some o := by
  have hawake : ∀ v : World, time ≤ v.clock →
      ∃ turns o, Joint.run none turns ((Program.ask (.sleepUntil time) next).alone start v) =
        some o := by
    intro v hv
    obtain ⟨turns, o, ho⟩ := hnext v
    have hanswer : v.answer (.sleepUntil time) = some ((), v) := if_pos hv
    exact ⟨turns, o, (run_alone_of_answer hanswer turns).trans ho⟩
  generalize hleft : w.jobs.length - w.finishedJobs = left
  induction left using Nat.strongRecOn generalizing w with
  | ind left ih =>
    rcases Nat.lt_or_ge w.clock time with hearly | htime
    · -- The turn that goes by is one in which a background wait takes notice, or makes it time.
      obtain ⟨turns, o, ho⟩ : ∃ turns o, Joint.run none turns
          ((Program.ask (.sleepUntil time) next).alone start (w.untilTime time)) = some o := by
        unfold World.untilTime
        split
        · rename_i hjobs
          have hlength : w.finishJobs.finishedJobs ≤ w.finishJobs.jobs.length :=
            List.length_filter_le _ _
          rw [w.length_jobs_finishJobs] at hlength
          refine ih _ ?_ w.finishJobs rfl
          rw [w.length_jobs_finishJobs]
          omega
        · exact hawake _ (Nat.le_max_right _ _)
      exact ⟨turns + 1, o, (run_alone_of_asleep hearly turns).trans ho⟩
    · exact hawake w htime

/-- **A program that needs only time ends** when it is run alone. The induction is on the
program. -/
theorem exists_runAlone {p : Program α} (hp : p.Asks Request.NeedsOnlyTime) (w : World) :
    ∃ turns o, runAlone turns p w = some o := by
  suffices ∀ start w, ∃ turns o, Joint.run none turns (p.alone start w) = some o from
    this w.clock w
  intro start w
  induction p generalizing w with
  | done a => exact ⟨1, _, rfl⟩
  | ask r next ih =>
    obtain ⟨hr, hnext⟩ := hp
    rcases hr with ⟨time, rfl⟩ | hready
    · exact exists_run_of_asleep (fun v => ih () (hnext ()) v) w
    · obtain ⟨⟨reply, w₁⟩, hanswer⟩ := Option.ne_none_iff_exists'.mp (hready w)
      obtain ⟨turns, o, ho⟩ := ih reply (hnext reply) w₁
      exact ⟨turns, o, (run_alone_of_answer hanswer turns).trans ho⟩

end

/-! ## What was run -/

/-- **What the runner runs** to an end is a run of the program, if others take no turns but such as
they may. -/
theorem Paced.run {α : Type} {p : Program α} {a : α} {w w' : World} {t : List (Event Unit)}
    (hothers : OthersDo Others t) (h : Paced World.answer p w t (.done a) w') :
    Run p w t (some a) w' := by
  generalize hq : Program.done a = q at h
  induction h with
  | start =>
    subst hq
    exact .done a _
  | asked h _ ih => exact .asked h (ih hothers.tail hq)
  | other _ _ ih => exact .other (hothers _ _ List.mem_cons_self) (ih hothers.tail hq)
  | tick _ _ _ _ ih => exact .other (hothers _ _ List.mem_cons_self) (ih hothers.tail hq)

/-- What the runner does of its own accord. -/
inductive RunnersOwn (w : World) : World → Prop
  | notice : RunnersOwn w w.finishJobs
  | rest (time : Nat) : RunnersOwn w { w with clock := time }

theorem runnersTurn_runnersOwn : RunnersTurn RunnersOwn := ⟨fun _ => .notice, fun _ => .rest⟩

/-- A background wait that takes notice lets go of a watch of pods. -/
theorem World.exists_cluster_finishJob (w : World) (job : Nat) :
    ∃ pods, (w.finishJob job).cluster = { w.cluster with pods := pods } := by
  unfold finishJob
  split
  · split
    · exact ⟨_, rfl⟩
    · exact ⟨_, rfl⟩
  · exact ⟨_, rfl⟩

theorem World.exists_cluster_finishJobs (w : World) :
    ∃ pods, w.finishJobs.cluster = { w.cluster with pods := pods } := by
  unfold finishJobs
  generalize w.jobs.map (·.1) = jobs
  induction jobs generalizing w with
  | nil => exact ⟨_, rfl⟩
  | cons job jobs ih =>
    obtain ⟨first, hfirst⟩ := w.exists_cluster_finishJob job
    obtain ⟨later, hlater⟩ := ih (w.finishJob job)
    exact ⟨later, hlater.trans (by rw [hfirst])⟩

namespace RunnersOwn

variable {w w' : World}

/-- Of its own accord the runner changes no more of the cluster than who watches pods. -/
theorem exists_cluster (h : RunnersOwn w w') :
    ∃ pods, w'.cluster = { w.cluster with pods := pods } := by
  cases h with
  | notice => exact w.exists_cluster_finishJobs
  | rest => exact ⟨_, rfl⟩

theorem others (h : RunnersOwn w w') : Others w w' := by
  obtain ⟨pods, hcluster⟩ := h.exists_cluster
  exact .same (by rw [hcluster]) (by rw [hcluster])

end RunnersOwn

/-- **A program that needs only time comes to a result** when it is run alone, in a run among what
the runner does of its own accord. -/
theorem exists_run_alone {α : Type} {p : Program α} (hp : p.Asks Request.NeedsOnlyTime)
    (w : World) :
    ∃ turns o t a, runAlone turns p w = some o ∧ o.main.result = some a ∧
      Run p w t (some a) o.world ∧ OthersDo RunnersOwn t := by
  obtain ⟨turns, o, hend⟩ := exists_runAlone hp w
  have hpauses : p.Asks fun r => r ≠ .pause := hp.mono fun r => Request.NeedsOnlyTime.ne_pause
  obtain ⟨t, a, hrun, hothers, hresult⟩ :=
    exists_paced_of_runBeside hpauses (fun _ he => absurd he List.not_mem_nil)
      runnersTurn_runnersOwn hend
  exact ⟨turns, o, t, a, hend, hresult, hrun.run fun x y hmem => (hothers x y hmem).others,
    hothers⟩

end InnerLoop
