import InnerLoop.Proofs.Run
import InnerLoop.Proofs.Transcript
import InnerLoop.Proofs.Transfers

/-!
# Courses of a program

A program goes on when its question is answered. While it is in a pause, everyone else may act. A
course tells turn by turn how far a program got, with no limit to what others do in between, and
whichever side of a transfer is quicker.

- `Course`: the turns that lead from a program in one world to what is left of it in another.
- `Course.transcript`: its questions and answers alone are a transcript of the program.
- `Course.answers`: every answer is the one of the world at the time, if it is not left open.
- `Course.obeys`: every transfer went as a command in memory makes it.
-/

namespace InnerLoop

/-- A course of a program from one world to another, and what is left of the program there. -/
inductive Course {α : Type} : Program α → World → List (Event Unit) → Program α → World → Prop
  | start (p : Program α) (w : World) : Course p w [] p w
  | asked {r : Request} {next : r.Reply → Program α} {w w₁ w' : World} {reply : r.Reply}
      {t : List (Event Unit)} {q : Program α} (h : w.answer r = some (reply, w₁))
      (rest : Course (next reply) w₁ t q w') :
      Course (.ask r next) w (.asked () r w reply w₁ :: t) q w'
  | paused {next : Unit → Program α} {w w' : World} {t : List (Event Unit)} {q : Program α}
      (rest : Course (next ()) w t q w') :
      Course (.ask .pause next) w (.asked () .pause w () w :: t) q w'
  /-- Neither side of a transfer need be the quicker one. -/
  | raced {trouble : Option ExecTrouble} {writing : Writing} {next : Settlement writing → Program α}
      {w w' : World} {s : Settlement writing} {t : List (Event Unit)} {q : Program α}
      (h : s.Obeys trouble) (rest : Course (next s) w t q w') :
      Course (.ask (.transfer trouble writing) next) w
        (.asked () (.transfer trouble writing) w s w :: t) q w'
  | other {p : Program α} {w w₁ w' : World} {t : List (Event Unit)} {q : Program α}
      (rest : Course p w₁ t q w') : Course p w (.other w w₁ :: t) q w'

/-- The result of a program that has ended. -/
def Program.result? {α : Type} : Program α → Option α
  | .done a => some a
  | .ask .. => none

/-- The world has no answer to the question that is the only one. -/
def Request.IsOpen : Request → Prop
  | .pause | .transfer .. => True
  | _ => False

/-- The cluster in memory settles a transfer in one of the ways in which its commands can. -/
theorem World.obeys_of_answer {w w₁ : World} {trouble : Option ExecTrouble} {writing : Writing}
    {s : Settlement writing} (h : w.answer (.transfer trouble writing) = some (s, w₁)) :
    s.Obeys trouble := by
  obtain rfl : (if hangsUp trouble then .deserted writing (exitOf trouble)
      else .drained writing (exitOf trouble)) = s := congrArg Prod.fst (Option.some.inj h)
  cases hhangs : hangsUp trouble with
  | true => exact Settlement.obeys_deserted writing hhangs
  | false => exact Settlement.obeys_drained writing hhangs

/-- The exchange that a turn was, if a question was answered in it. -/
def Event.exchange? {ι : Type} : Event ι → Option Exchange
  | .asked _ r _ reply _ => some ⟨r, reply⟩
  | .other .. => none

/-- The questions and answers of what happened. -/
def exchanges (t : List (Event Unit)) : List Exchange := t.filterMap Event.exchange?

namespace Course

variable {α : Type} {p q : Program α} {w w₁ w' : World} {t t₁ t₂ : List (Event Unit)}

theorem trans {q' : Program α} (h₁ : Course p w t₁ q w₁) (h₂ : Course q w₁ t₂ q' w') :
    Course p w (t₁ ++ t₂) q' w' := by
  induction h₁ with
  | start => exact h₂
  | asked h _ ih => exact .asked h (ih h₂)
  | paused _ ih => exact .paused (ih h₂)
  | raced h _ ih => exact .raced h (ih h₂)
  | other _ ih => exact .other (ih h₂)

/-- What a program does in a course it does because of the answers alone. -/
theorem transcript (h : Course p w t q w') : Transcript p (exchanges t) q.result? := by
  induction h with
  | start p w =>
    cases p with
    | done a => exact .done a
    | ask r next => exact .stop _
  | asked h _ ih => exact .asked _ ih
  | paused _ ih => exact .asked (r := .pause) () ih
  | raced h _ ih => exact .asked (r := .transfer ..) _ ih
  | other _ ih => exact ih

/-- In each turn of a course a question is answered by the world, or it is an open one, or others
act. -/
theorem answers (h : Course p w t q w') {who : Unit} {r : Request} {before after : World}
    {reply : r.Reply} (hmem : Event.asked who r before reply after ∈ t) :
    before.answer r = some (reply, after) ∨ r.IsOpen := by
  induction h with
  | start => cases hmem
  | asked h _ ih =>
    rcases List.mem_cons.mp hmem with heq | hmem
    · cases heq
      exact .inl h
    · exact ih hmem
  | paused _ ih =>
    rcases List.mem_cons.mp hmem with heq | hmem
    · cases heq
      exact .inr trivial
    · exact ih hmem
  | raced _ _ ih =>
    rcases List.mem_cons.mp hmem with heq | hmem
    · cases heq
      exact .inr trivial
    · exact ih hmem
  | other _ ih =>
    rcases List.mem_cons.mp hmem with heq | hmem
    · cases heq
    · exact ih hmem

/-- Every transfer was settled in one of the ways in which commands in memory can. -/
theorem obeys (h : Course p w t q w') {who : Unit} {trouble : Option ExecTrouble}
    {writing : Writing} {s : Settlement writing} {before after : World}
    (hmem : Event.asked who (.transfer trouble writing) before s after ∈ t) : s.Obeys trouble := by
  induction h with
  | start => cases hmem
  | asked h _ ih =>
    rcases List.mem_cons.mp hmem with heq | hmem
    · cases heq
      exact World.obeys_of_answer h
    · exact ih hmem
  | paused _ ih =>
    rcases List.mem_cons.mp hmem with heq | hmem
    · cases heq
    · exact ih hmem
  | raced h _ ih =>
    rcases List.mem_cons.mp hmem with heq | hmem
    · cases heq
      exact h
    · exact ih hmem
  | other _ ih =>
    rcases List.mem_cons.mp hmem with heq | hmem
    · cases heq
    · exact ih hmem

end Course

/-- An exchange was made in one of the turns. -/
theorem exists_event_of_exchange {t : List (Event Unit)} {r : Request} {reply : r.Reply}
    (h : ⟨r, reply⟩ ∈ exchanges t) :
    ∃ before after, Event.asked () r before reply after ∈ t := by
  obtain ⟨e, he, heq⟩ := List.mem_filterMap.mp h
  cases e with
  | asked who r' before reply' after =>
    cases heq
    exact ⟨before, after, he⟩
  | other before after => cases heq

end InnerLoop
