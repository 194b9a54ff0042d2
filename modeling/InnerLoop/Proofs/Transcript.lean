import InnerLoop.Program.Basic

/-!
# Transcripts of a program

What a program does depends on the answers that it gets, and on nothing else. A transcript lists its
questions with the answers, whatever these are, so what is proved of every transcript holds in any
surroundings.

- `Exchange`: a question with the answer to it.
- `Transcript`: what a program may ask and be answered, to its end or up to any moment before.
- `Transcript.bind_cases`, `Transcript.bind`: the transcript of steps in a row is cut where the
  first of them ends; `Transcript.operation_cases`, where the first of them may also fail.
- `Program.answered`, `Transcript.answered`: the transcript with answers that are fixed in advance.
-/

namespace InnerLoop

/-- A question with the answer to it. -/
structure Exchange where
  request : Request
  reply : request.Reply

/-- The exchanges of a program with its surroundings, and the result if the program ended. It may be
cut off at any moment. -/
inductive Transcript {α : Type} : Program α → List Exchange → Option α → Prop
  | stop (p : Program α) : Transcript p [] none
  | done (a : α) : Transcript (.done a) [] (some a)
  | asked {r : Request} {next : r.Reply → Program α} {d : List Exchange} {res : Option α}
      (reply : r.Reply) (rest : Transcript (next reply) d res) :
      Transcript (.ask r next) (⟨r, reply⟩ :: d) res

namespace Transcript

variable {α β : Type} {d d₁ d₂ : List Exchange}

/-- A program that has ended asks nothing and keeps its result. -/
theorem of_done {a : α} {res : Option α} (h : Transcript (.done a) d res) :
    d = [] ∧ ∀ b ∈ res, b = a := by
  cases h with
  | stop => exact ⟨rfl, fun _ hb => nomatch hb⟩
  | done => exact ⟨rfl, fun b hb => (Option.mem_some.mp hb).symm⟩

/-- A question is answered, or the program is cut off before. -/
theorem ask_cases {r : Request} {next : r.Reply → Program α} {res : Option α}
    (h : Transcript (.ask r next) d res) :
    (d = [] ∧ res = none) ∨
      ∃ reply rest, d = ⟨r, reply⟩ :: rest ∧ Transcript (next reply) rest res := by
  cases h with
  | stop => exact .inl ⟨rfl, rfl⟩
  | asked reply hrest => exact .inr ⟨reply, _, rfl, hrest⟩

/-- The transcript of steps in a row is cut off in the first of them, or it is one of the first to
its end and then one of the rest. -/
theorem bind_cases {p : Program α} {f : α → Program β} {res : Option β}
    (h : Transcript (p.bind f) d res) :
    (res = none ∧ Transcript p d none) ∨
      ∃ a d₁ d₂, d = d₁ ++ d₂ ∧ Transcript p d₁ (some a) ∧ Transcript (f a) d₂ res := by
  induction p generalizing d with
  | done a => exact .inr ⟨a, [], d, rfl, .done a, h⟩
  | ask r next ih =>
    rcases ask_cases h with ⟨rfl, rfl⟩ | ⟨reply, rest, rfl, hrest⟩
    · exact .inl ⟨rfl, .stop _⟩
    · rcases ih reply hrest with ⟨hres, hcut⟩ | ⟨a, d₁, d₂, rfl, h₁, h₂⟩
      · exact .inl ⟨hres, .asked reply hcut⟩
      · exact .inr ⟨a, _ :: d₁, d₂, rfl, .asked reply h₁, h₂⟩

theorem bind {p : Program α} {f : α → Program β} {a : α} {res : Option β}
    (h₁ : Transcript p d₁ (some a)) (h₂ : Transcript (f a) d₂ res) :
    Transcript (p.bind f) (d₁ ++ d₂) res := by
  generalize hr : some a = r at h₁
  induction h₁ with
  | stop => cases hr
  | done a' =>
    cases hr
    exact h₂
  | asked reply _ ih => exact .asked reply (ih hr)

/-- A transcript may be cut off where it ends. -/
theorem cut {p : Program α} {res : Option α} (h : Transcript p d res) : Transcript p d none := by
  induction h with
  | stop p => exact .stop p
  | done a => exact .stop _
  | asked reply _ ih => exact .asked reply ih

/-- What is made of a result in the end asks nothing. -/
theorem map_cases {p : Program α} {g : α → β} {res : Option β}
    (h : Transcript (p.bind fun a => .done (g a)) d res) :
    ∃ r, Transcript p d r ∧ res = r.map g := by
  rcases h.bind_cases with ⟨hres, hcut⟩ | ⟨a, d₁, d₂, rfl, hrun, hrest⟩
  · exact ⟨none, hcut, hres⟩
  · obtain ⟨rfl, hres⟩ := hrest.of_done
    rw [List.append_nil]
    cases res with
    | none => exact ⟨none, hrun.cut, rfl⟩
    | some b => exact ⟨some a, hrun, congrArg some (hres b rfl)⟩

/-! ## Operations -/

/-- A transcript of two operations in a row is one of the first, which is cut off or fails, or it is
one of the first to its end and then one of the second. -/
theorem operation_cases {x : Operation α} {f : α → Operation β} {res : Option (Except Failure β)}
    (h : Transcript (x >>= f).run d res) :
    ((∀ b, res ≠ some (.ok b)) ∧ ∃ r, Transcript x.run d r) ∨
      ∃ a d₁ d₂, d = d₁ ++ d₂ ∧ Transcript x.run d₁ (some (.ok a)) ∧
        Transcript (f a).run d₂ res := by
  replace h : Transcript (x.run.bind (ExceptT.bindCont f)) d res := h
  rcases h.bind_cases with ⟨rfl, hcut⟩ | ⟨r, d₁, d₂, rfl, hrun, hrest⟩
  · exact .inl ⟨fun _ => nofun, none, hcut⟩
  cases r with
  | ok a => exact .inr ⟨a, d₁, d₂, rfl, hrun, hrest⟩
  | error e =>
    replace hrest : Transcript (.done (.error e)) d₂ res := hrest
    obtain ⟨rfl, hres⟩ := hrest.of_done
    rw [List.append_nil]
    exact .inl ⟨fun b hb => (nomatch hres _ hb), _, hrun⟩

/-- An operation that asks one question is cut off before it, or is answered and goes on. -/
theorem ask_bind_cases {r : Request} {f : r.Reply → Operation β}
    {res : Option (Except Failure β)} (h : Transcript (Operation.ask r >>= f).run d res) :
    (d = [] ∧ res = none) ∨
      ∃ reply rest, d = ⟨r, reply⟩ :: rest ∧ Transcript (f reply).run rest res := by
  replace h : Transcript (.ask r fun reply => (f reply).run) d res := h
  exact h.ask_cases

/-- A result that is known is the failure, or goes into the rest. -/
theorem given_bind_cases {x : Except Failure α} {f : α → Operation β}
    {res : Option (Except Failure β)} (h : Transcript (Operation.given x >>= f).run d res) :
    (∃ e, x = .error e ∧ d = [] ∧ ∀ r ∈ res, r = .error e) ∨
      ∃ a, x = .ok a ∧ Transcript (f a).run d res := by
  cases x with
  | error e =>
    replace h : Transcript (.done (.error e)) d res := h
    exact .inl ⟨e, rfl, h.of_done⟩
  | ok a => exact .inr ⟨a, rfl, h⟩

end Transcript

/-! ## Answers that are fixed in advance -/

/-- The exchanges of a program that gets the answers of `answer`, and its result. -/
def Program.answered {α : Type} (answer : (r : Request) → r.Reply) :
    Program α → List Exchange × α
  | .done a => ([], a)
  | .ask r next =>
    let (d, a) := answered answer (next (answer r))
    (⟨r, answer r⟩ :: d, a)

/-- A program that always gets an answer comes to its end. -/
theorem Transcript.answered {α : Type} (answer : (r : Request) → r.Reply) (p : Program α) :
    Transcript p (p.answered answer).1 (some (p.answered answer).2) := by
  induction p with
  | done a => exact .done a
  | ask r next ih => exact .asked (answer r) (ih (answer r))

end InnerLoop
