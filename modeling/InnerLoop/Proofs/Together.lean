import Mathlib.Logic.Function.Basic
import InnerLoop.Proofs.Play

/-!
# Programs that run together

Several programs run in one world, in any order, among others. To each of them the answers that the
rest get are turns of others.

- `Runs`: a run of programs together, watched up to any moment.
- `Runs.seenBy`: **what each of them sees is a run of its own**.
- `playTogether`: a run of programs together, played from a script.
-/

namespace InnerLoop

variable {ι α : Type} [DecidableEq ι]

/-- A run of the programs `p` from one world to another: what happened. -/
inductive Runs : (ι → Program α) → World → List (Event ι) → World → Prop
  | stop (p : ι → Program α) (w : World) : Runs p w [] w
  | asked {p : ι → Program α} {i : ι} {r : Request} {next : r.Reply → Program α} {w w₁ w' : World}
      {reply : r.Reply} {t : List (Event ι)} (hi : p i = .ask r next)
      (h : w.answer r = some (reply, w₁)) (rest : Runs (Function.update p i (next reply)) w₁ t w') :
      Runs p w (.asked i r w reply w₁ :: t) w'
  | other {p : ι → Program α} {w w₁ w' : World} {t : List (Event ι)} (h : Others w w₁)
      (rest : Runs p w₁ t w') : Runs p w (.other w w₁ :: t) w'

/-- A turn as one of `ι` sees it, to whom all the rest are others. -/
def Event.seenBy (i : ι) : Event ι → Event Unit
  | .asked j r before reply after =>
    if j = i then .asked () r before reply after else .other before after
  | .other before after => .other before after

namespace Runs

variable {p : ι → Program α} {w w' : World} {t : List (Event ι)}

/-- **What one program sees is a run of it**, among others. -/
theorem seenBy (i : ι) (h : Runs p w t w') : Run (p i) w (t.map (Event.seenBy i)) none w' := by
  induction h with
  | stop p w => exact .stop _ _
  | @asked p j r next w w₁ w' reply t hj h rest ih =>
    show Run (p i) w ((if j = i then .asked () r w reply w₁ else .other w w₁) ::
      t.map (Event.seenBy i)) none w'
    by_cases hji : j = i
    · subst hji
      rw [Function.update_self] at ih
      rw [if_pos rfl, hj]
      exact .asked h ih
    · rw [Function.update_of_ne (Ne.symm hji)] at ih
      rw [if_neg hji]
      exact .other (World.others_of_answer h) ih
  | other h _ ih => exact .other h ih

end Runs

/-- Plays a script until a question cannot be answered, or there is none. Gives what happened, and
the world after it. -/
def playTogether : List (ScriptStep ι) → (ι → Program α) → World → List (Event ι) × World
  | [], _, w => ([], w)
  | .file d :: script, p, w =>
    let (t, w') := playTogether script p (w.fileWorkload d)
    (.other w (w.fileWorkload d) :: t, w')
  | .pass time :: script, p, w =>
    let (t, w') := playTogether script p { w with clock := w.clock + time }
    (.other w { w with clock := w.clock + time } :: t, w')
  | .answer i :: script, p, w =>
    match p i with
    | .done _ => ([], w)
    | .ask r next =>
      match w.answer r with
      | none => ([], w)
      | some (reply, w₁) =>
        let (t, w') := playTogether script (Function.update p i (next reply)) w₁
        (.asked i r w reply w₁ :: t, w')

/-- What is played is a run of the programs together. -/
theorem Runs.play (script : List (ScriptStep ι)) (p : ι → Program α) (w : World) :
    Runs p w (playTogether script p w).1 (playTogether script p w).2 := by
  fun_induction playTogether script p w with
  | case1 p w => exact .stop p w
  | case2 d script p w t w' hplay ih =>
    rw [hplay] at ih
    exact .other (.fileWorkload w d) ih
  | case3 time script p w t w' hplay ih =>
    rw [hplay] at ih
    exact .other (.same rfl rfl) ih
  | case4 => exact .stop _ _
  | case5 => exact .stop _ _
  | case6 i script p w r next hi reply w₁ hanswer t w' hplay ih =>
    rw [hplay] at ih
    exact .asked hi hanswer ih

end InnerLoop
