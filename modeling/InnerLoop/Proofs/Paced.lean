import InnerLoop.Program.Schedule
import InnerLoop.Proofs.Course

/-!
# Runs in which time waits for the program

How long a wait takes depends on who is quicker: those who act beside the program, or the clock. In
a paced run a program that can go on is not kept waiting. Questions are answered in no time, others
take turns in no time between any two of them, and the clock moves on only while the program is held
back, never past the time at which it wakes. What others do is left open; so is who answers.

- `Surroundings`: who answers the questions; `World.answer` is the cluster in memory.
- `Program.atOnce`: the result that a program comes to without waiting.
- `Paced`: the runs, from a program in one world to what is left of it in another.
- `Paced.at_question`: a run is cut where a question is answered that is asked only once.
-/

namespace InnerLoop

/-- Who answers questions: at once, with the world after the answer, or not yet. -/
abbrev Surroundings := World → (r : Request) → Option (r.Reply × World)

/-- Answers take no time. -/
def Surroundings.Swift (answer : Surroundings) : Prop :=
  ∀ {w w₁ : World} {r : Request} {reply : r.Reply},
    answer w r = some (reply, w₁) → w₁.clock = w.clock

/-! ## Answers of the cluster in memory take no time -/

namespace World

theorem clock_dropJob (w : World) (job : Nat) : (w.dropJob job).clock = w.clock := by
  unfold dropJob
  split <;> rfl

section

variable {w : World} {k : Kind} {own deadline : Nat} {check : Change → k.Object → Verdict}

/-- How a wait is answered that is not over time. -/
theorem answer_await_of_lt (h : w.clock < deadline) :
    w.answer (.await k own deadline check) =
      (w.ending? k own check).map fun e => (e, w.dropWatch k own) :=
  if_neg (Nat.not_le.mpr h)

/-- How a wait is answered that is over time. -/
theorem answer_await_of_le (h : deadline ≤ w.clock) :
    w.answer (.await k own deadline check) = some (.timedOut, w.dropWatch k own) :=
  if_pos h

end

theorem swift_answer : Surroundings.Swift World.answer := by
  intro w w₁ r reply h
  cases r with
  | sleepUntil time =>
    replace h : (if time ≤ w.clock then some ((), w) else none) = some (reply, w₁) := h
    split at h
    · cases h; rfl
    · cases h
  | await k handle deadline check =>
    rcases Nat.lt_or_ge w.clock deadline with htime | htime
    · rw [answer_await_of_lt htime] at h
      obtain ⟨e, -, he⟩ := Option.map_eq_some_iff.mp h
      cases he
      rfl
    · rw [answer_await_of_le htime] at h
      cases h
      rfl
  | joinPodWait job deadline =>
    unfold answer at h
    dsimp only at h
    split at h
    · cases h; exact w.clock_dropJob job
    · split at h
      · cases h; exact w.clock_dropJob job
      · cases h
  | pause => cases h
  | _ => cases h; rfl

end World

/-! ## Programs that need not wait -/

section

variable {α : Type} (answer : Surroundings)

/-- The program cannot go on. -/
def Program.HeldBack : Program α → World → Prop
  | .done _, _ => True
  | .ask r _, w => answer w r = none

/-- The result that a program comes to without waiting, if it comes to one. -/
def Program.atOnce : Program α → World → Option α
  | .done a, _ => some a
  | .ask r next, w =>
    match answer w r with
    | some (reply, w₁) => (next reply).atOnce w₁
    | none => none

end

section

variable {α : Type} {answer : Surroundings}

theorem Program.atOnce_ask {r : Request} {next : r.Reply → Program α} {w w₁ : World}
    {reply : r.Reply} (h : answer w r = some (reply, w₁)) :
    (Program.ask r next).atOnce answer w = (next reply).atOnce answer w₁ := by
  rw [Program.atOnce, h]

theorem Program.atOnce_of_none {r : Request} {next : r.Reply → Program α} {w : World}
    (h : answer w r = none) : (Program.ask r next).atOnce answer w = none := by
  rw [Program.atOnce, h]

end

/-! ## Paced runs -/

/-- A paced run of a program from one world to another, and what is left of the program there. -/
inductive Paced (answer : Surroundings) {α : Type} :
    Program α → World → List (Event Unit) → Program α → World → Prop
  | start (p : Program α) (w : World) : Paced answer p w [] p w
  /-- The program goes on. -/
  | asked {r : Request} {next : r.Reply → Program α} {w w₁ w' : World} {reply : r.Reply}
      {t : List (Event Unit)} {q : Program α} (h : answer w r = some (reply, w₁))
      (rest : Paced answer (next reply) w₁ t q w') :
      Paced answer (.ask r next) w (.asked () r w reply w₁ :: t) q w'
  /-- Others do something. -/
  | other {p q : Program α} {w w₁ w' : World} {t : List (Event Unit)}
      (hclock : w₁.clock = w.clock) (rest : Paced answer p w₁ t q w') :
      Paced answer p w (.other w w₁ :: t) q w'
  /-- Time goes by. -/
  | tick {p q : Program α} {w w' : World} {t : List (Event Unit)} {time : Nat}
      (hheld : p.HeldBack answer w) (hlater : w.clock ≤ time) (hwakes : ∀ d ∈ p.wakesAt, time ≤ d)
      (rest : Paced answer p { w with clock := time } t q w') :
      Paced answer p w (.other w { w with clock := time } :: t) q w'

/-- What is done in the turns of others, and while time goes by, is of some sort. -/
def OthersDo (Turn : World → World → Prop) (t : List (Event Unit)) : Prop :=
  ∀ x y, .other x y ∈ t → Turn x y

namespace OthersDo

variable {Turn : World → World → Prop} {e : Event Unit} {t t₁ t₂ : List (Event Unit)}

theorem tail (h : OthersDo Turn (e :: t)) : OthersDo Turn t :=
  fun x y hmem => h x y (List.mem_cons_of_mem _ hmem)

theorem left (h : OthersDo Turn (t₁ ++ t₂)) : OthersDo Turn t₁ :=
  fun x y hmem => h x y (List.mem_append_left _ hmem)

theorem right (h : OthersDo Turn (t₁ ++ t₂)) : OthersDo Turn t₂ :=
  fun x y hmem => h x y (List.mem_append_right _ hmem)

end OthersDo

namespace Paced

variable {α : Type} {answer : Surroundings} {p q : Program α} {w w' : World}
  {t t₁ t₂ : List (Event Unit)}

/-- The clock never goes back. -/
theorem clocks (hswift : answer.Swift) (h : Paced answer p w t q w') :
    w.clock ≤ w'.clock ∧ ∀ e ∈ t, w.clock ≤ e.after.clock ∧ e.after.clock ≤ w'.clock := by
  induction h with
  | start => exact ⟨Nat.le_refl _, fun _ he => absurd he List.not_mem_nil⟩
  | asked h _ ih =>
    rw [hswift h] at ih
    refine ⟨ih.1, fun e he => ?_⟩
    rcases List.mem_cons.mp he with rfl | he
    · exact ⟨Nat.le_of_eq (hswift h).symm, (hswift h).symm ▸ ih.1⟩
    · exact ih.2 e he
  | other hclock _ ih =>
    rw [hclock] at ih
    refine ⟨ih.1, fun e he => ?_⟩
    rcases List.mem_cons.mp he with rfl | he
    · exact ⟨Nat.le_of_eq hclock.symm, hclock.symm ▸ ih.1⟩
    · exact ih.2 e he
  | tick _ hlater _ _ ih =>
    refine ⟨Nat.le_trans hlater ih.1, fun e he => ?_⟩
    rcases List.mem_cons.mp he with rfl | he
    · exact ⟨hlater, ih.1⟩
    · exact ⟨Nat.le_trans hlater (ih.2 e he).1, (ih.2 e he).2⟩

/-- A program that has ended stays as it is. -/
theorem of_done {a : α} (h : Paced answer (.done a) w t q w') : q = .done a := by
  generalize hp : Program.done a = p at h
  induction h with
  | start => rfl
  | asked => cases hp
  | other _ _ ih => exact ih hp
  | tick _ _ _ _ ih => exact ih hp

/-- What a run asked is what its program can ask. -/
theorem forall_asked {P : Request → Prop} (h : Paced answer p w t q w') (hp : p.Asks P) :
    ∀ e ∈ t, e.Asked P := by
  induction h with
  | start => exact fun _ he => absurd he List.not_mem_nil
  | asked h _ ih =>
    intro e he
    rcases List.mem_cons.mp he with rfl | he
    · exact hp.1
    · exact ih (hp.2 _) e he
  | other _ _ ih =>
    intro e he
    rcases List.mem_cons.mp he with rfl | he
    · trivial
    · exact ih hp e he
  | tick _ _ _ _ ih =>
    intro e he
    rcases List.mem_cons.mp he with rfl | he
    · trivial
    · exact ih hp e he

/-- A run is cut where a question is answered that is asked only once: before it nothing was asked,
and after it the program goes on with the answer. -/
theorem at_question {P : Request → Prop} {r : Request} {next : r.Reply → Program α}
    {reply : r.Reply} {v v' : World} (hr : P r) (hnext : ∀ a, (next a).Asks fun r => ¬ P r)
    (h : Paced answer (.ask r next) w (t₁ ++ .asked () r v reply v' :: t₂) q w') :
    Idle t₁ ∧ Paced answer (.ask r next) w t₁ (.ask r next) v ∧
      answer v r = some (reply, v') ∧ Paced answer (next reply) v' t₂ q w' := by
  generalize hp : Program.ask r next = p at h
  generalize ht : t₁ ++ .asked () r v reply v' :: t₂ = t at h
  induction h generalizing t₁ with
  | start => exact absurd ht (List.append_ne_nil_of_right_ne_nil _ (List.cons_ne_nil _ _))
  | @asked r' next' u u₁ _ reply' t' q h rest ih =>
    cases hp
    cases t₁ with
    | nil =>
      cases ht
      exact ⟨.nil, .start _ _, h, rest⟩
    | cons e t₁ =>
      -- The question would have been answered again later.
      cases ht
      have hlater := rest.forall_asked (hnext reply') _
        (List.mem_append_right t₁ List.mem_cons_self)
      exact absurd hr hlater
  | other hclock _ ih =>
    cases t₁ with
    | nil => cases ht
    | cons e t₁ =>
      cases ht
      obtain ⟨hidle, hbefore, hrest⟩ := ih hp rfl
      subst hp
      exact ⟨hidle.other _ _, .other hclock hbefore, hrest⟩
  | tick hheld hlater hwakes _ ih =>
    cases t₁ with
    | nil => cases ht
    | cons e t₁ =>
      cases ht
      obtain ⟨hidle, hbefore, hrest⟩ := ih hp rfl
      subst hp
      exact ⟨hidle.other _ _, .tick hheld hlater hwakes hbefore, hrest⟩

/-- No time goes by before a question that is always answered. -/
theorem clock_eq_of_ready {r : Request} {next : r.Reply → Program α}
    (hready : ∀ w, answer w r ≠ none) (hidle : Idle t)
    (h : Paced answer (.ask r next) w t q w') : q = .ask r next ∧ w'.clock = w.clock := by
  generalize hp : Program.ask r next = p at h
  induction h with
  | start => exact ⟨rfl, rfl⟩
  | asked => exact (hidle _ List.mem_cons_self).elim
  | other hclock _ ih =>
    obtain ⟨hq, hsame⟩ := ih (fun e he => hidle e (List.mem_cons_of_mem _ he)) hp
    exact ⟨hq, hsame.trans hclock⟩
  | tick hheld =>
    subst hp
    exact absurd hheld (hready _)

/-- What the turns of others keep is kept as long as nothing is asked. -/
theorem kept_of_idle {P : World → Prop} {Turn : World → World → Prop}
    (hkeeps : ∀ {w w'}, Turn w w' → P w → P w') (hturns : OthersDo Turn t) (hidle : Idle t)
    (h : Paced answer p w t q w') (hw : P w) : P w' := by
  induction h with
  | start => exact hw
  | asked => exact (hidle _ List.mem_cons_self).elim
  | other _ _ ih =>
    exact ih hturns.tail (fun e he => hidle e (List.mem_cons_of_mem _ he))
      (hkeeps (hturns _ _ List.mem_cons_self) hw)
  | tick _ _ _ _ ih =>
    exact ih hturns.tail (fun e he => hidle e (List.mem_cons_of_mem _ he))
      (hkeeps (hturns _ _ List.mem_cons_self) hw)

/-- A program that ends with a question that is always answered comes to its end without waiting. -/
theorem atOnce_of_ready {r : Request} {a : α} (hready : ∀ w, answer w r ≠ none)
    (h : Paced answer (.ask r fun _ => .done a) w t q w') : q.atOnce answer w' = some a := by
  generalize hp : Program.ask r (fun _ => .done a) = p at h
  induction h with
  | start p w =>
    subst hp
    cases hanswer : answer w r with
    | none => exact absurd hanswer (hready w)
    | some answered => exact Program.atOnce_ask hanswer
  | asked _ rest =>
    cases hp
    cases rest.of_done
    rfl
  | other _ _ ih => exact ih hp
  | tick hheld =>
    subst hp
    exact absurd hheld (hready _)

end Paced

end InnerLoop
