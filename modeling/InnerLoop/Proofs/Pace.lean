import InnerLoop.Proofs.Paced
import InnerLoop.Proofs.SideSteps
import Mathlib.Logic.Relation

/-!
# The pace of the runner

The runner lets the clock jump only when neither the program nor the steps beside it can go on, and
then no further than to the time at which the first of them wakes. So what it runs are paced runs,
and what is said of those is said of what runs.

- `InNoTime`: the turns of others in which no time goes by.
- `RunnersTurn`: what the runner does on its own counts as turns of others.
- `exists_paced_of_runBeside`: **a run together is a paced run of its program**, if the program makes
  no pauses and is not cut off.
-/

namespace InnerLoop

/-- A turn of some sort in which no time goes by. -/
def InNoTime (Turn : World → World → Prop) (w w' : World) : Prop := w'.clock = w.clock ∧ Turn w w'

/-- Background waits that take notice, and time that goes by, are turns of some sort. -/
structure RunnersTurn (Turn : World → World → Prop) : Prop where
  notice : ∀ w : World, Turn w w.finishJobs
  rest : ∀ (w : World) (time : Nat), Turn w { w with clock := time }

/-! ## Programs that are held back -/

/-- A program that is held back wakes later. -/
theorem Program.clock_lt_of_heldBack {α : Type} {p : Program α} {w : World}
    (h : p.HeldBack World.answer w) : ∀ d ∈ p.wakesAt, w.clock < d := by
  intro d hd
  cases p with
  | done a => cases hd
  | ask r next =>
    replace h : w.answer r = none := h
    cases r with
    | sleepUntil time =>
      cases hd
      replace h : (if d ≤ w.clock then some ((), w) else none) = none := h
      split at h
      · cases h
      · exact Nat.not_le.mp ‹_›
    | await k handle deadline check =>
      cases hd
      refine Nat.not_le.mp fun hle => ?_
      rw [World.answer_await_of_le hle] at h
      cases h
    | joinPodWait job deadline =>
      cases hd
      unfold World.answer at h
      dsimp only at h
      split at h
      · cases h
      · split at h
        · cases h
        · exact Nat.not_le.mp ‹_›
    | _ => cases hd

theorem World.clock_finishJob (w : World) (job : Nat) : (w.finishJob job).clock = w.clock := by
  unfold finishJob
  split
  · split <;> rfl
  · rfl

theorem World.clock_finishJobs (w : World) : w.finishJobs.clock = w.clock := by
  unfold finishJobs
  generalize w.jobs.map (·.1) = jobs
  induction jobs generalizing w with
  | nil => rfl
  | cons job jobs ih => exact (ih _).trans (w.clock_finishJob job)

/-- The earlier of two times is no later than the first. -/
theorem le_of_mem_earlier {a b : Option Nat} {d time : Nat} (hd : d ∈ a)
    (htime : time ∈ earlier a b) : time ≤ d := by
  cases hd
  cases b with
  | none =>
    cases htime
    exact Nat.le_refl _
  | some b =>
    cases htime
    exact Nat.min_le_left _ _

/-! ## Pieces of a paced run -/

section

variable {α β : Type} {answer : Surroundings} {Turn : World → World → Prop} {p q : Program α}
  {w w₁ w' : World} {t t₁ t₂ : List (Event Unit)}

theorem OthersDo.append (h₁ : OthersDo Turn t₁) (h₂ : OthersDo Turn t₂) :
    OthersDo Turn (t₁ ++ t₂) := by
  intro x y hmem
  rcases List.mem_append.mp hmem with hmem | hmem
  · exact h₁ x y hmem
  · exact h₂ x y hmem

theorem OthersDo.other (h : Turn w w₁) (ht : OthersDo Turn t) :
    OthersDo Turn (.other w w₁ :: t) := by
  intro x y hmem
  rcases List.mem_cons.mp hmem with heq | hmem
  · cases heq
    exact h
  · exact ht x y hmem

theorem Paced.trans {q' : Program α} (h₁ : Paced answer p w t₁ q w₁)
    (h₂ : Paced answer q w₁ t₂ q' w') : Paced answer p w (t₁ ++ t₂) q' w' := by
  induction h₁ with
  | start => exact h₂
  | asked h _ ih => exact .asked h (ih h₂)
  | other hclock _ ih => exact .other hclock (ih h₂)
  | tick hheld hlater hwakes _ ih => exact .tick hheld hlater hwakes (ih h₂)

/-- While others take turns in no time a program stays as it is. -/
theorem Paced.exists_of_inNoTime (q : Program α)
    (h : Relation.ReflTransGen (InNoTime Turn) w w') :
    ∃ t, Paced answer q w t q w' ∧ OthersDo Turn t := by
  induction h with
  | refl => exact ⟨[], .start q w, nofun⟩
  | tail _ hturn ih =>
    obtain ⟨t, hrun, hothers⟩ := ih
    exact ⟨_, hrun.trans (.other hturn.1 (.start q _)), hothers.append (.other hturn.2 nofun)⟩

/-- In a run up to a result the first question of the program is answered at some time. -/
theorem Paced.exists_answered {r : Request} {next : r.Reply → Program α} {a : α}
    (h : Paced answer (.ask r next) w t (.done a) w') :
    ∃ t₁ t₂ v reply v', t = t₁ ++ .asked () r v reply v' :: t₂ ∧
      Paced answer (next reply) v' t₂ (.done a) w' := by
  generalize hp : Program.ask r next = p at h
  generalize hq : Program.done a = q at h
  induction h with
  | start =>
    subst hp
    cases hq
  | @asked r' next' u u₁ _ reply t' q h rest =>
    cases hp
    subst hq
    exact ⟨[], t', u, reply, u₁, rfl, rest⟩
  | other _ _ ih =>
    obtain ⟨t₁, t₂, v, reply, v', rfl, hrest⟩ := ih hp hq
    exact ⟨_ :: t₁, t₂, v, reply, v', rfl, hrest⟩
  | tick _ _ _ _ ih =>
    obtain ⟨t₁, t₂, v, reply, v', rfl, hrest⟩ := ih hp hq
    exact ⟨_ :: t₁, t₂, v, reply, v', rfl, hrest⟩

/-- A program that runs as far as it can makes a paced run, in which others do nothing. -/
theorem Program.exists_paced_drive (p : Program α) (w : World) :
    ∃ t, Paced World.answer p w t (p.drive w).1 (p.drive w).2 ∧ OthersDo Turn t := by
  induction p generalizing w with
  | done a => exact ⟨[], .start _ w, nofun⟩
  | ask r next ih =>
    unfold drive
    cases h : w.answer r with
    | none => exact ⟨[], .start _ w, nofun⟩
    | some answered =>
      obtain ⟨reply, w₁⟩ := answered
      obtain ⟨t, hrun, hothers⟩ := ih reply w₁
      refine ⟨_, .asked h hrun, fun x y hmem => ?_⟩
      rcases List.mem_cons.mp hmem with heq | hmem
      · cases heq
      · exact hothers x y hmem

/-- What is left of a program can ask no more than the program. -/
theorem Program.asks_drive {P : Request → Prop} {p : Program α} (hp : p.Asks P) (w : World) :
    (p.drive w).1.Asks P := by
  induction p generalizing w with
  | done a => trivial
  | ask r next ih =>
    unfold drive
    cases w.answer r with
    | none => exact hp
    | some answered => exact ih answered.1 (hp.2 answered.1) answered.2

end

/-! ## The runner -/

/-- The program that a run is about, or how it ended, is where a paced run of it led. -/
structure OnPace {α β : Type} (Turn : World → World → Prop) (p : Program α) (w : World)
    (j : Joint α β) : Prop where
  run : ∃ t q, Paced World.answer p w t q j.world ∧ OthersDo Turn t ∧
    (q.Asks fun r => r ≠ .pause) ∧ match j.main with
      | .inl p' => q = p'
      | .inr ended => ∃ a, q = .done a ∧ ended.result = some a
  beside : j.beside.Does (Relation.ReflTransGen (InNoTime Turn))

namespace OnPace

variable {α β : Type} {Turn : World → World → Prop} {p : Program α} {w : World} {j : Joint α β}

/-- Others take turns in no time. -/
theorem others (h : OnPace Turn p w j) {w₁ : World}
    (hturns : Relation.ReflTransGen (InNoTime Turn) j.world w₁) {b : Beside β}
    (hb : b.Does (Relation.ReflTransGen (InNoTime Turn))) :
    OnPace Turn p w { j with world := w₁, beside := b } := by
  obtain ⟨t, q, hrun, hothers, hpauses, hq⟩ := h.run
  obtain ⟨t', hwaits, hothers'⟩ := Paced.exists_of_inNoTime q hturns
  exact ⟨⟨_, q, hrun.trans hwaits, hothers.append hothers', hpauses, hq⟩, hb⟩

theorem driveMain (h : OnPace Turn p w j) : OnPace Turn p w (j.driveMain none) := by
  obtain ⟨t, q, hrun, hothers, hpauses, hq⟩ := h.run
  unfold Joint.driveMain
  cases hmain : j.main with
  | inr ended => exact h
  | inl p' =>
    rw [hmain] at hq
    obtain rfl : q = p' := hq
    obtain ⟨t', hdrive, hothers'⟩ : ∃ t, Paced World.answer q j.world t (q.drive j.world).1
        (q.drive j.world).2 ∧ OthersDo Turn t := q.exists_paced_drive j.world
    have hpauses' := Program.asks_drive hpauses j.world
    dsimp only
    generalize q.drive j.world = x at hdrive hpauses'
    obtain ⟨q', w₁⟩ := x
    cases q' with
    | done a =>
      exact ⟨⟨_, _, hrun.trans hdrive, hothers.append hothers', trivial, a, rfl, rfl⟩, h.beside⟩
    | ask r next =>
      exact ⟨⟨_, _, hrun.trans hdrive, hothers.append hothers', hpauses', rfl⟩, h.beside⟩

theorem driveBeside (h : OnPace Turn p w j) : OnPace Turn p w j.driveBeside := by
  obtain ⟨hleft, hturns⟩ := h.beside.drive (fun _ => .refl) .trans j.world
  exact h.others hturns hleft

theorem unpause (h : OnPace Turn p w j) {j' : Joint α β} (hj : j.unpause? = some j') :
    OnPace Turn p w j' := by
  -- It is a step beside the program that was in a pause.
  have hstep : Joint.unpause?.step j = some j' := by
    unfold Joint.unpause? at hj
    cases hmain : j.main with
    | inr ended =>
      rw [hmain] at hj
      exact hj
    | inl p' =>
      rw [hmain] at hj
      dsimp only at hj
      cases hp : p'.unpause? with
      | none =>
        rw [hp] at hj
        exact hj
      | some p'' =>
        obtain ⟨next, rfl, -⟩ := Program.unpause?_eq_some hp
        obtain ⟨t, q, -, -, hpauses, hq⟩ := h.run
        rw [hmain] at hq
        obtain rfl : q = _ := hq
        exact absurd rfl hpauses.1
  obtain ⟨b, rfl, hb⟩ := h.beside.unpause hstep
  exact ⟨h.run, hb⟩

/-- The clock jumps to the time at which the first wakes, if nobody can go on. -/
theorem rest (h : OnPace Turn p w j) (hrunner : RunnersTurn Turn) (hready : j.isReady = false)
    {time : Nat} (htime : time ∈ j.wakesAt none) :
    OnPace Turn p w { j with world := { j.world with clock := max j.world.clock time } } := by
  obtain ⟨t, q, hrun, hothers, hpauses, hq⟩ := h.run
  have hheld : q.HeldBack World.answer j.world := by
    cases q with
    | done a => trivial
    | ask r next =>
      unfold Joint.isReady at hready
      cases hmain : j.main with
      | inl p' =>
        rw [hmain] at hq hready
        obtain rfl : Program.ask r next = p' := hq
        exact Option.isSome_eq_false_iff.mp hready |> Option.isNone_iff_eq_none.mp
      | inr ended =>
        rw [hmain] at hq
        obtain ⟨a, ha, -⟩ := hq
        cases ha
  have hwakes : ∀ d ∈ q.wakesAt, max j.world.clock time ≤ d := by
    intro d hd
    have hlater : j.world.clock < d := Program.clock_lt_of_heldBack hheld d hd
    have hfirst : time ≤ d := by
      unfold Joint.wakesAt at htime
      cases hmain : j.main with
      | inl p' =>
        rw [hmain] at hq htime
        obtain rfl : q = p' := hq
        have hmine : earlier q.wakesAt none = q.wakesAt := by cases q.wakesAt <;> rfl
        dsimp only at htime
        rw [hmine] at htime
        exact le_of_mem_earlier hd htime
      | inr ended =>
        rw [hmain] at hq
        obtain ⟨a, rfl, -⟩ := hq
        cases hd
    omega
  have hjump := Paced.tick hheld (Nat.le_max_left j.world.clock time) hwakes (.start q _)
  exact ⟨⟨_, q, hrun.trans hjump, hothers.append (.other (hrunner.rest _ _) nofun), hpauses, hq⟩,
    h.beside⟩

theorem wait (h : OnPace Turn p w j) (hrunner : RunnersTurn Turn) :
    OnPace Turn p w (j.wait none) := by
  unfold Joint.wait
  dsimp only
  by_cases hready : j.isReady = true
  · rw [if_pos hready]
    exact h
  rw [if_neg hready]
  split
  · exact h.others (.single ⟨j.world.clock_finishJobs, hrunner.notice _⟩) h.beside
  split
  · rename_i j' hj
    exact h.unpause hj
  split
  · rename_i time htime
    exact h.rest hrunner (Bool.eq_false_iff.mpr hready) htime
  · exact h

theorem outcome (h : OnPace Turn p w j) {o : Outcome α β} (ho : j.outcome? = some o) :
    ∃ t a, Paced World.answer p w t (.done a) o.world ∧ OthersDo Turn t ∧
      o.main.result = some a := by
  obtain ⟨t, q, hrun, hothers, -, hq⟩ := h.run
  unfold Joint.outcome? at ho
  cases hmain : j.main with
  | inl p' =>
    rw [hmain] at ho
    cases ho
  | inr ended =>
    rw [hmain] at ho hq
    obtain ⟨a, rfl, hresult⟩ := hq
    dsimp only at ho
    split at ho
    · cases ho
      exact ⟨t, a, hrun, hothers, hresult⟩
    · cases ho

theorem run_outcome (h : OnPace Turn p w j) (hrunner : RunnersTurn Turn) {turns : Nat}
    {o : Outcome α β} (hrun : Joint.run none turns j = some o) :
    ∃ t a, Paced World.answer p w t (.done a) o.world ∧ OthersDo Turn t ∧
      o.main.result = some a := by
  induction turns generalizing j with
  | zero => cases hrun
  | succ turns ih =>
    unfold Joint.run at hrun
    have hnext : OnPace Turn p w (j.driveMain none).driveBeside := h.driveMain.driveBeside
    dsimp only at hrun
    generalize (j.driveMain none).driveBeside = j' at hrun hnext
    cases houtcome : j'.outcome? with
    | none =>
      rw [houtcome] at hrun
      exact ih (hnext.wait hrunner) hrun
    | some o' =>
      rw [houtcome] at hrun
      cases hrun
      exact hnext.outcome houtcome

end OnPace

/-- **The runner keeps the pace**: a program that makes no pauses, run beside steps that do no more
than some turns in no time, makes a paced run among such turns, up to its result. -/
theorem exists_paced_of_runBeside {α β : Type} {Turn : World → World → Prop} {turns : Nat}
    {p : Program α} {entries : List (Entry β)} {w : World} {o : Outcome α β}
    (hpauses : p.Asks fun r => r ≠ .pause)
    (hbeside : ∀ e ∈ entries, e.step.Does (Relation.ReflTransGen (InNoTime Turn)))
    (hrunner : RunnersTurn Turn) (h : runBeside turns none p entries w = some o) :
    ∃ t a, Paced World.answer p w t (.done a) o.world ∧ OthersDo Turn t ∧
      o.main.result = some a := by
  have hstart : OnPace Turn p w
      { start := w.clock, main := .inl p, beside := { rest := entries }, world := w } :=
    ⟨⟨[], p, .start p w, nofun, hpauses, rfl⟩, ⟨nofun, hbeside⟩⟩
  exact hstart.run_outcome hrunner h

end InnerLoop
