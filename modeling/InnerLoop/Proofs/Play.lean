import InnerLoop.Proofs.RoundTrip
import InnerLoop.Proofs.Run

/-!
# Runs from a script

A run of a program among others can be played from a script that says when its questions are
answered and what is done in between.

- `ScriptStep`, `Program.play`: what a script consists of, and how it is played.
- `Run.play`: what is played is a run.
- `shopWorld`: a world to play in, with the shop and its builder image.
-/

namespace InnerLoop

/-- The world after another writer has filed a workload. -/
def World.fileWorkload (w : World) (d : DeploymentConfig) : World :=
  w.modifyCluster fun c => { c with workloads := (c.workloads.upsert d).2 }

theorem Others.fileWorkload (w : World) (d : DeploymentConfig) : Others w (w.fileWorkload d) :=
  ⟨.inr (.inl (.upsert d)), .inl rfl⟩

/-- One step of a script for the programs of `ι`. -/
inductive ScriptStep (ι : Type) where
  /-- The next question of a program is answered. -/
  | answer (who : ι)
  /-- Another writer files a workload. -/
  | file (d : DeploymentConfig)
  /-- Some milliseconds go by. -/
  | pass (time : Nat)

namespace Program

variable {α : Type}

/-- Plays a script until the program ends or a question cannot be answered. Gives what happened, the
result if the program ended, and the world after it. -/
def play : List (ScriptStep Unit) → Program α → World → List (Event Unit) × Option α × World
  | .file d :: script, p, w =>
    let (t, res, w') := play script p (w.fileWorkload d)
    (.other w (w.fileWorkload d) :: t, res, w')
  | .pass time :: script, p, w =>
    let (t, res, w') := play script p { w with clock := w.clock + time }
    (.other w { w with clock := w.clock + time } :: t, res, w')
  | .answer _ :: script, .ask r next, w =>
    match w.answer r with
    | none => ([], none, w)
    | some (reply, w₁) =>
      let (t, res, w') := play script (next reply) w₁
      (.asked () r w reply w₁ :: t, res, w')
  | _, .done a, w => ([], some a, w)
  | [], .ask _ _, w => ([], none, w)

end Program

/-- **What is played is a run.** -/
theorem Run.play {α : Type} (script : List (ScriptStep Unit)) (p : Program α) (w : World) :
    Run p w (p.play script w).1 (p.play script w).2.1 (p.play script w).2.2 := by
  fun_induction Program.play script p w with
  | case1 d script p w t res w' hplay ih =>
    rw [hplay] at ih
    exact .other (.fileWorkload w d) ih
  | case2 time script p w t res w' hplay ih =>
    rw [hplay] at ih
    exact .other (.same rfl rfl) ih
  | case3 => exact .stop _ _
  | case4 script _ r next w reply w₁ hanswer t res w' hplay ih =>
    rw [hplay] at ih
    exact .asked hanswer ih
  | case5 => exact .done _ _
  | case6 => exact .stop _ _

/-- A script in which nobody interferes. -/
def undisturbed (turns : Nat) : List (ScriptStep Unit) := List.replicate turns (.answer ())

/-- The shop in a cluster of its own that knows the builder image. -/
def shopWorld : World :=
  World.fileWorkload
    { cluster := Cluster.setImage { ns := "dev" } "dev" "nodejs:latest" shopBuilder.metadata }
    shopWorkload

theorem reachable_shopWorld : shopWorld.Reachable :=
  .turn (.start rfl rfl) (.fileWorkload _ shopWorkload)

end InnerLoop
