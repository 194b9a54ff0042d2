import InnerLoop.Program.Schedule
import InnerLoop.Proofs.Run

/-!
# What steps beside a program do

The steps that are taken beside a program act on the world, or are programs themselves. What each act
and each answer does to the world, the steps do to it altogether, however far they come.

- `Step.Does`, `Beside.Does`: the steps do nothing else to the world than some relation says.
- `Program.does_drive`, `Beside.Does.drive`: **nor do they when they go on** as far as they can.
- `Beside.Does.unpause`: nor after a pause.
-/

namespace InnerLoop

/-- Whatever a question is answered, no more is done to the world than `R` says. -/
def Request.Does (R : World → World → Prop) (r : Request) : Prop :=
  ∀ {w w₁ : World} {reply : r.Reply}, w.answer r = some (reply, w₁) → R w w₁

/-- No more is done in a step than `R` says. -/
def Step.Does {β : Type} (R : World → World → Prop) : Step β → Prop
  | .act f => ∀ w : World, R w (f w).2
  | .run p => p.Asks (Request.Does R)

/-- No more is done in any step than `R` says, nor in what is left of the one under way. -/
structure Beside.Does {β : Type} (R : World → World → Prop) (b : Beside β) : Prop where
  current : ∀ x ∈ b.current, x.1.Asks (Request.Does R)
  rest : ∀ e ∈ b.rest, e.step.Does R

theorem Program.unpause?_eq_some {α : Type} {p q : Program α} (h : p.unpause? = some q) :
    ∃ next, p = .ask .pause next ∧ q = next () := by
  unfold unpause? at h
  split at h
  · rename_i next
    cases h
    exact ⟨next, rfl, rfl⟩
  · cases h

section

variable {β : Type} {R : World → World → Prop} (hrefl : ∀ w, R w w)
  (htrans : ∀ {w₁ w₂ w₃}, R w₁ w₂ → R w₂ w₃ → R w₁ w₃)

include hrefl htrans

/-- A program that runs as far as it can does what its questions do, and so does what is left. -/
theorem Program.does_drive {p : Program β} (hp : p.Asks (Request.Does R)) (w : World) :
    R w (p.drive w).2 ∧ (p.drive w).1.Asks (Request.Does R) := by
  induction p generalizing w with
  | done a => exact ⟨hrefl w, trivial⟩
  | ask r next ih =>
    unfold drive
    cases h : w.answer r with
    | none => exact ⟨hrefl w, hp⟩
    | some answered =>
      obtain ⟨reply, w₁⟩ := answered
      obtain ⟨hdone, hleft⟩ := ih reply (hp.2 reply) w₁
      exact ⟨htrans (hp.1 h) hdone, hleft⟩

namespace Beside

theorem does_take {entries : List (Entry β)} (h : ∀ e ∈ entries, e.step.Does R) (b : Beside β)
    (w : World) : (b.take entries w).1.Does R ∧ R w (b.take entries w).2 := by
  induction entries generalizing b w with
  | nil => exact ⟨⟨nofun, nofun⟩, hrefl w⟩
  | cons e rest ih =>
    have hrest : ∀ e ∈ rest, e.step.Does R := fun e he => h e (List.mem_cons_of_mem _ he)
    have he : e.step.Does R := h e List.mem_cons_self
    obtain ⟨time, step⟩ := e
    by_cases htime : w.clock < time
    · have hwaits : b.take (⟨time, step⟩ :: rest) w
          = ({ b with current := none, rest := ⟨time, step⟩ :: rest }, w) := if_pos htime
      rw [hwaits]
      exact ⟨⟨nofun, h⟩, hrefl w⟩
    cases step with
    | act f =>
      have hacts : b.take (⟨time, .act f⟩ :: rest) w
          = (b.finish (f w).1 w.clock (f w).2).take rest (f w).2 := if_neg htime
      rw [hacts]
      obtain ⟨hleft, hdone⟩ := ih hrest (b.finish (f w).1 w.clock (f w).2) (f w).2
      exact ⟨hleft, htrans (he w) hdone⟩
    | run p =>
      unfold Beside.take
      rw [if_neg htime]
      obtain ⟨hdone, hleft⟩ := Program.does_drive hrefl htrans he w
      dsimp only
      generalize p.drive w = x at hdone hleft
      obtain ⟨q, w₁⟩ := x
      cases q with
      | done result =>
        obtain ⟨hlater, hdone'⟩ := ih hrest (b.finish result w.clock w₁) w₁
        exact ⟨hlater, htrans hdone hdone'⟩
      | ask r next =>
        refine ⟨⟨?_, hrest⟩, hdone⟩
        rintro _ ⟨⟩
        exact hleft

theorem Does.drive {b : Beside β} (h : b.Does R) (w : World) :
    (b.drive w).1.Does R ∧ R w (b.drive w).2 := by
  unfold Beside.drive
  cases hcurrent : b.current with
  | none => exact does_take hrefl htrans h.rest b w
  | some x =>
    obtain ⟨p, start⟩ := x
    obtain ⟨hdone, hleft⟩ := Program.does_drive hrefl htrans (h.current _ hcurrent) w
    dsimp only
    generalize p.drive w = x at hdone hleft
    obtain ⟨q, w₁⟩ := x
    cases q with
    | done result =>
      obtain ⟨hlater, hdone'⟩ := does_take hrefl htrans h.rest (b.finish result start w₁) w₁
      exact ⟨hlater, htrans hdone hdone'⟩
    | ask r next =>
      refine ⟨⟨?_, h.rest⟩, hdone⟩
      rintro _ ⟨⟩
      exact hleft

end Beside

end

/-- When a pause of theirs ends, the steps beside a program are all that changes. -/
theorem Beside.Does.unpause {α β : Type} {R : World → World → Prop} {j j' : Joint α β}
    (h : j.beside.Does R) (hj : Joint.unpause?.step j = some j') :
    ∃ b : Beside β, j' = { j with beside := b } ∧ b.Does R := by
  unfold Joint.unpause?.step at hj
  cases hcurrent : j.beside.current with
  | none =>
    rw [hcurrent] at hj
    cases hj
  | some x =>
    obtain ⟨p, start⟩ := x
    rw [hcurrent] at hj
    obtain ⟨p', hp, rfl⟩ := Option.map_eq_some_iff.mp hj
    obtain ⟨next, rfl, rfl⟩ := Program.unpause?_eq_some hp
    refine ⟨_, rfl, ?_, h.rest⟩
    rintro _ ⟨⟩
    exact (h.current _ hcurrent).2 ()

end InnerLoop
