import InnerLoop.Proofs.Recorded
import InnerLoop.Proofs.SideSteps

/-!
# Programs that run alongside

The runner lets a program and the steps beside it go as far as they can, by turns, and lets the
clock jump when nobody can go on. Whatever it does, the program takes a course.

- `Tame`: what is done beside a program ends no commands.
- `exists_course_of_runBeside`: **a run together is a course of its program**, on the record of
  which nothing comes from elsewhere.
-/

namespace InnerLoop

/-! ## What puts nothing on record -/

namespace World

theorem sameRecord_abandon (w : World) (r : Request) : w.SameRecord (w.abandon r) := by
  unfold abandon
  split
  · exact w.sameRecord_dropWatch _ _
  · exact w.sameRecord_dropJob _
  · exact .refl w

theorem sameRecord_finishJob (w : World) (job : Nat) : w.SameRecord (w.finishJob job) := by
  unfold finishJob
  split
  · split
    · exact w.sameRecord_dropWatch .pod _
    · exact .refl w
  · exact .refl w

theorem sameRecord_finishJobs (w : World) : w.SameRecord w.finishJobs := by
  unfold finishJobs
  generalize w.jobs.map (·.1) = jobs
  induction jobs generalizing w with
  | nil => exact .refl w
  | cons job jobs ih => exact (w.sameRecord_finishJob job).trans (ih _)

theorem sameRecord_answer {w w₁ : World} {r : Request} {reply : r.Reply} (hr : ¬ r.IsCommand)
    (h : w.answer r = some (reply, w₁)) : w.SameRecord w₁ := by
  have hquiet : Quiescent [⟨r, reply⟩] := by
    refine quiescent_of_forall fun e he => ?_
    cases List.mem_singleton.mp he
    exact hr
  unfold SameRecord
  rw [execCalls_of_answer h, hquiet.2, List.append_nil]

end World

/-! ## Steps beside a program -/

/-- A program that runs as far as it can takes a course, in which others do nothing. -/
theorem Program.exists_course_drive {α : Type} (p : Program α) (w : World) :
    ∃ t, Course p w t (p.drive w).1 (p.drive w).2 ∧ Unrecorded t := by
  induction p generalizing w with
  | done a => exact ⟨[], .start _ w, fun _ _ h => nomatch h⟩
  | ask r next ih =>
    unfold drive
    cases h : w.answer r with
    | none => exact ⟨[], .start _ w, fun _ _ h => nomatch h⟩
    | some answered =>
      obtain ⟨reply, w₁⟩ := answered
      obtain ⟨t, hcourse, hnone⟩ := ih reply w₁
      refine ⟨_, .asked h hcourse, fun w₂ w₃ hmem => ?_⟩
      rcases List.mem_cons.mp hmem with heq | hmem
      · cases heq
      · exact hnone w₂ w₃ hmem

/-- A step that puts nothing on record. -/
def Step.Tame {β : Type} : Step β → Prop
  | .act f => ∀ w : World, w.SameRecord (f w).2
  | .run p => p.Asks fun r => ¬ r.IsCommand

/-- What runs no commands puts nothing on record. -/
theorem Step.Tame.does {β : Type} {step : Step β} (h : step.Tame) :
    step.Does World.SameRecord := by
  cases step with
  | act f => exact h
  | run p => exact Program.Asks.mono (fun _ hr _ _ _ => World.sameRecord_answer hr) h

/-! ## The runner -/

/-- The program that a run is about, or how it ended, is where a course of it led. -/
structure Follows {α β : Type} (p : Program α) (w : World) (j : Joint α β) : Prop where
  course : ∃ t q, Course p w t q j.world ∧ Unrecorded t ∧ match j.main with
    | .inl p' => q = p'
    | .inr ended => q.result? = ended.result
  beside : j.beside.Does World.SameRecord

namespace Follows

variable {α β : Type} {p : Program α} {w : World} {j : Joint α β}

/-- Others may do something that puts nothing on record. -/
theorem others (h : Follows p w j) {w₁ : World} (hsame : j.world.SameRecord w₁) {b : Beside β}
    (hb : b.Does World.SameRecord) : Follows p w { j with world := w₁, beside := b } := by
  obtain ⟨t, q, hcourse, hnone, hq⟩ := h.course
  exact ⟨⟨_, q, hcourse.trans (.other (.start q w₁)), hnone.append (.other hsame), hq⟩, hb⟩

theorem driveMain (h : Follows p w j) (stop : Option Nat) : Follows p w (j.driveMain stop) := by
  obtain ⟨t, q, hcourse, hnone, hq⟩ := h.course
  unfold Joint.driveMain
  cases hmain : j.main with
  | inr ended => exact h
  | inl p' =>
    rw [hmain] at hq
    obtain rfl : q = p' := hq
    obtain ⟨t', hdrive, hnone'⟩ := q.exists_course_drive j.world
    dsimp only
    generalize q.drive j.world = x at hdrive
    obtain ⟨q', w₁⟩ := x
    cases q' with
    | done a => exact ⟨⟨_, _, hcourse.trans hdrive, hnone.append hnone', rfl⟩, h.beside⟩
    | ask r next =>
      dsimp only
      split
      · have hsame := w₁.sameRecord_abandon r
        exact ⟨⟨_, _, (hcourse.trans hdrive).trans (.other (.start _ _)),
          (hnone.append hnone').append (.other hsame), rfl⟩, h.beside⟩
      · exact ⟨⟨_, _, hcourse.trans hdrive, hnone.append hnone', rfl⟩, h.beside⟩

theorem driveBeside (h : Follows p w j) : Follows p w j.driveBeside := by
  obtain ⟨hleft, hsame⟩ := h.beside.drive World.SameRecord.refl World.SameRecord.trans j.world
  exact h.others hsame hleft

theorem unpauseBeside (h : Follows p w j) {j' : Joint α β}
    (hj : Joint.unpause?.step j = some j') : Follows p w j' := by
  obtain ⟨b, rfl, hb⟩ := h.beside.unpause hj
  exact ⟨h.course, hb⟩

theorem unpause (h : Follows p w j) {j' : Joint α β} (hj : j.unpause? = some j') :
    Follows p w j' := by
  unfold Joint.unpause? at hj
  cases hmain : j.main with
  | inr ended =>
    rw [hmain] at hj
    exact h.unpauseBeside hj
  | inl p' =>
    rw [hmain] at hj
    dsimp only at hj
    cases hp : p'.unpause? with
    | none =>
      rw [hp] at hj
      exact h.unpauseBeside hj
    | some p'' =>
      rw [hp] at hj
      cases hj
      obtain ⟨next, rfl, rfl⟩ := Program.unpause?_eq_some hp
      obtain ⟨t, q, hcourse, hnone, hq⟩ := h.course
      rw [hmain] at hq
      obtain rfl : q = _ := hq
      have hpaused : Unrecorded [.asked () .pause j.world () j.world] := by
        intro w₁ w₂ hmem
        exact nomatch List.mem_singleton.mp hmem
      exact ⟨⟨_, _, hcourse.trans (.paused (.start _ _)), hnone.append hpaused, rfl⟩, h.beside⟩

theorem wait (h : Follows p w j) (stop : Option Nat) : Follows p w (j.wait stop) := by
  unfold Joint.wait
  dsimp only
  split
  · exact h
  split
  · exact h.others j.world.sameRecord_finishJobs h.beside
  split
  · rename_i j' hj
    exact h.unpause hj
  split
  · rename_i time _
    have hsame : j.world.SameRecord { j.world with clock := max j.world.clock time } := rfl
    exact h.others hsame h.beside
  · exact h

theorem outcome (h : Follows p w j) {o : Outcome α β} (ho : j.outcome? = some o) :
    ∃ t q, Course p w t q o.world ∧ Unrecorded t ∧ q.result? = o.main.result := by
  obtain ⟨t, q, hcourse, hnone, hq⟩ := h.course
  unfold Joint.outcome? at ho
  cases hmain : j.main with
  | inl p' =>
    rw [hmain] at ho
    cases ho
  | inr ended =>
    rw [hmain] at ho hq
    dsimp only at ho
    split at ho
    · cases ho
      exact ⟨t, q, hcourse, hnone, hq⟩
    · cases ho

theorem run (h : Follows p w j) {stop : Option Nat} {turns : Nat} {o : Outcome α β}
    (hrun : Joint.run stop turns j = some o) :
    ∃ t q, Course p w t q o.world ∧ Unrecorded t ∧ q.result? = o.main.result := by
  induction turns generalizing j with
  | zero => cases hrun
  | succ turns ih =>
    unfold Joint.run at hrun
    have hnext : Follows p w (j.driveMain stop).driveBeside := (h.driveMain stop).driveBeside
    dsimp only at hrun
    generalize (j.driveMain stop).driveBeside = j' at hrun hnext
    cases houtcome : j'.outcome? with
    | none =>
      rw [houtcome] at hrun
      exact ih (hnext.wait stop) hrun
    | some o' =>
      rw [houtcome] at hrun
      cases hrun
      exact hnext.outcome houtcome

end Follows

/-- **Running together**: a program that is run beside steps that put nothing on record takes a
course, which leads to its result. -/
theorem exists_course_of_runBeside {α β : Type} {turns : Nat} {stop : Option Nat} {p : Program α}
    {entries : List (Entry β)} {w : World} {o : Outcome α β}
    (htame : ∀ e ∈ entries, e.step.Tame) (h : runBeside turns stop p entries w = some o) :
    ∃ t q, Course p w t q o.world ∧ Unrecorded t ∧ q.result? = o.main.result := by
  have hstart : Follows p w
      { start := w.clock, main := .inl p, beside := { rest := entries }, world := w } :=
    ⟨⟨[], p, .start p w, nofun, rfl⟩, ⟨nofun, fun e he => (htame e he).does⟩⟩
  exact hstart.run h

end InnerLoop
