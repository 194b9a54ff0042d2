import InnerLoop.Operation.Wait
import InnerLoop.Proofs.Others

/-!
# Runs of a program

A program asks its questions one by one, and others take turns between any two of them. What is
proved of every such run holds however the program is scheduled, and whether it ends or is cut off.

- `Event`, `Turns`: what happened turn by turn, and that it leads from one world to another.
- `Run`: a program's run, watched to its end or up to any moment before.
- `Run.bind_cases`: a run of steps in a row is cut where the first of them ends.
- `Program.Asks`: all questions that a program can ask are of some sort, and so are all that a run
  of it asked (`Run.forall_asked`).
- `commits`: the workloads that were written in a run.
-/

namespace InnerLoop

/-! ## What happened -/

/-- One turn, with the worlds before and after it: one of `ι` had a question answered, or others did
something. -/
inductive Event (ι : Type) where
  | asked (who : ι) (request : Request) (before : World) (reply : request.Reply) (after : World)
  | other (before after : World)

namespace Event

variable {ι : Type}

/-- The world before a turn. -/
def before : Event ι → World
  | .asked _ _ before _ _ => before
  | .other before _ => before

/-- The world after a turn. -/
def after : Event ι → World
  | .asked _ _ _ _ after => after
  | .other _ after => after

/-- The question that was asked was of some sort, if one was. -/
def Asked (P : Request → Prop) : Event ι → Prop
  | .asked _ r _ _ _ => P r
  | .other _ _ => True

end Event

/-- The turns lead from one world to another, each of them one that others could have taken. -/
inductive Turns {ι : Type} : World → List (Event ι) → World → Prop
  | nil (w : World) : Turns w [] w
  | cons {e : Event ι} {t : List (Event ι)} {w : World} (h : Others e.before e.after)
      (rest : Turns e.after t w) : Turns e.before (e :: t) w

namespace Turns

variable {ι : Type} {w w' : World} {t : List (Event ι)}

theorem sound (h : Turns w t w') (hs : w.Sound) : w'.Sound := by
  induction h with
  | nil => exact hs
  | cons h _ ih => exact ih (h.sound hs)

theorem since (h : Turns w t w') : Store.Since w.cluster.workloads w'.cluster.workloads := by
  induction h with
  | nil => exact .refl _
  | cons h _ ih => exact h.since.trans ih

end Turns

/-! ## Runs -/

/-- A run of a program from one world to another: what happened, and the result if the program
ended. It may be cut off at any moment. -/
inductive Run {α : Type} : Program α → World → List (Event Unit) → Option α → World → Prop
  | stop (p : Program α) (w : World) : Run p w [] none w
  | done (a : α) (w : World) : Run (.done a) w [] (some a) w
  | asked {r : Request} {next : r.Reply → Program α} {w w₁ w' : World} {reply : r.Reply}
      {t : List (Event Unit)} {res : Option α} (h : w.answer r = some (reply, w₁))
      (rest : Run (next reply) w₁ t res w') :
      Run (.ask r next) w (.asked () r w reply w₁ :: t) res w'
  | other {p : Program α} {w w₁ w' : World} {t : List (Event Unit)} {res : Option α}
      (h : Others w w₁) (rest : Run p w₁ t res w') : Run p w (.other w w₁ :: t) res w'

/-- Nothing was asked. -/
def Idle {ι : Type} (t : List (Event ι)) : Prop := ∀ e ∈ t, e.Asked fun _ => False

theorem Idle.nil {ι : Type} : Idle ([] : List (Event ι)) := fun _ he => nomatch he

theorem Idle.other {ι : Type} {t : List (Event ι)} (h : Idle t) (w w₁ : World) :
    Idle (.other w w₁ :: t) := by
  intro e he
  rcases List.mem_cons.mp he with rfl | he
  · trivial
  · exact h e he

namespace Run

variable {α β : Type} {w w₁ w' : World} {t t₁ t₂ : List (Event Unit)}

theorem turns {p : Program α} {res : Option α} (h : Run p w t res w') : Turns w t w' := by
  induction h with
  | stop p w => exact .nil w
  | done a w => exact .nil w
  | asked h _ ih => exact .cons (e := .asked ..) (World.others_of_answer h) ih
  | other h _ ih => exact .cons (e := .other ..) h ih

/-- A program that has ended asks nothing and keeps its result. -/
theorem of_done {a : α} {res : Option α} (h : Run (.done a) w t res w') :
    Idle t ∧ ∀ b ∈ res, b = a := by
  generalize hp : Program.done a = p at h
  induction h with
  | stop => exact ⟨.nil, fun _ hb => nomatch hb⟩
  | done a' =>
    cases hp
    exact ⟨.nil, fun b hb => (Option.mem_some.mp hb).symm⟩
  | asked => cases hp
  | other _ _ ih =>
    obtain ⟨hidle, hres⟩ := ih hp
    exact ⟨hidle.other _ _, hres⟩

/-- A run may go on after the program has ended. -/
theorem linger {p : Program α} {a : α} {res : Option α} (h₁ : Run p w t₁ (some a) w₁)
    (h₂ : Run (.done a) w₁ t₂ res w') : Run p w (t₁ ++ t₂) res w' := by
  generalize hr : some a = r at h₁
  induction h₁ with
  | stop => cases hr
  | done a' =>
    cases hr
    exact h₂
  | asked h _ ih => exact .asked h (ih h₂ hr)
  | other h _ ih => exact .other h (ih h₂ hr)

/-- A run of steps in a row is cut off in the first of them, or it is a run of the first to its end
and then one of the rest. -/
theorem bind_cases {p : Program α} {f : α → Program β} {res : Option β}
    (h : Run (p.bind f) w t res w') :
    (res = none ∧ Run p w t none w') ∨
    ∃ a t₁ t₂ w₁, t = t₁ ++ t₂ ∧ Run p w t₁ (some a) w₁ ∧ Run (f a) w₁ t₂ res w' := by
  generalize hq : p.bind f = q at h
  induction h generalizing p with
  | stop => exact .inl ⟨rfl, .stop _ _⟩
  | done b w =>
    cases p with
    | done a =>
      have hq : f a = .done b := hq
      refine .inr ⟨a, [], [], w, rfl, .done a w, ?_⟩
      rw [hq]
      exact .done b w
    | ask r next => cases hq
  | @asked r next w w₁ w' reply t res h rest ih =>
    cases p with
    | done a =>
      have hq : f a = .ask r next := hq
      refine .inr ⟨a, [], _, w, rfl, .done a w, ?_⟩
      rw [hq]
      exact .asked h rest
    | ask r' next' =>
      cases hq
      rcases ih rfl with ⟨hres, hrun⟩ | ⟨a, t₁, t₂, w₂, ht, hrun, hrest⟩
      · exact .inl ⟨hres, .asked h hrun⟩
      · exact .inr ⟨a, _ :: t₁, t₂, w₂, by rw [ht]; rfl, .asked h hrun, hrest⟩
  | other h rest ih =>
    rcases ih hq with ⟨hres, hrun⟩ | ⟨a, t₁, t₂, w₂, ht, hrun, hrest⟩
    · exact .inl ⟨hres, .other h hrun⟩
    · exact .inr ⟨a, _ :: t₁, t₂, w₂, by rw [ht]; rfl, .other h hrun, hrest⟩

/-- It does not matter to others with what a program has ended. -/
theorem done_congr {a : α} {res : Option α} (h : Run (.done a) w t res w') (b : β) :
    Run (.done b) w t (res.map fun _ => b) w' := by
  generalize hp : Program.done a = p at h
  induction h with
  | stop => exact .stop _ _
  | done => exact .done b _
  | asked => cases hp
  | other h _ ih => exact .other h (ih hp)

/-- What is made of a result in the end asks nothing. -/
theorem map_cases {p : Program α} {g : α → β} {res : Option β}
    (h : Run (p.bind fun a => .done (g a)) w t res w') :
    ∃ r, Run p w t r w' ∧ res = r.map g := by
  rcases h.bind_cases with ⟨hres, hrun⟩ | ⟨a, t₁, t₂, w₁, ht, hrun, hrest⟩
  · exact ⟨none, hrun, hres⟩
  · refine ⟨res.map fun _ => a, ht ▸ hrun.linger (hrest.done_congr a), ?_⟩
    cases res with
    | none => rfl
    | some b => rw [hrest.of_done.2 b rfl]; rfl

/-- A question is answered between turns of others, or not at all. -/
theorem question_cases {r : Request} {res : Option r.Reply}
    (h : Run (.question r) w t res w') :
    (res = none ∧ Idle t) ∨
    ∃ t₁ t₂ w₁ w₂ reply, t = t₁ ++ .asked () r w₁ reply w₂ :: t₂ ∧ Idle t₁ ∧ Idle t₂ ∧
      Turns w t₁ w₁ ∧ w₁.answer r = some (reply, w₂) ∧ Turns w₂ t₂ w' ∧ ∀ a ∈ res, a = reply := by
  generalize hp : Program.question r = p at h
  induction h with
  | stop => exact .inl ⟨rfl, .nil⟩
  | done => cases hp
  | asked h rest =>
    cases hp
    exact .inr ⟨[], _, _, _, _, rfl, .nil, rest.of_done.1, .nil _, h, rest.turns, rest.of_done.2⟩
  | other h _ ih =>
    rcases ih hp with ⟨hres, hidle⟩ | ⟨t₁, t₂, w₁, w₂, reply, ht, h₁, h₂, hturns, hrest⟩
    · exact .inl ⟨hres, hidle.other _ _⟩
    · refine .inr ⟨_ :: t₁, t₂, w₁, w₂, reply, by rw [ht]; rfl, h₁.other _ _, h₂, ?_, hrest⟩
      exact .cons (e := .other ..) h hturns

end Run

/-! ## Questions -/

/-- All questions that a program can ask are of some sort. -/
def Program.Asks {α : Type} (P : Request → Prop) : Program α → Prop
  | .done _ => True
  | .ask r next => P r ∧ ∀ reply, (next reply).Asks P

namespace Program.Asks

variable {α β : Type} {P Q : Request → Prop}

theorem bind {p : Program α} {f : α → Program β} (hp : p.Asks P) (hf : ∀ a, (f a).Asks P) :
    (p.bind f).Asks P := by
  induction p with
  | done a => exact hf a
  | ask r next ih => exact ⟨hp.1, fun reply => ih reply (hp.2 reply)⟩

theorem mono (h : ∀ r, P r → Q r) {p : Program α} (hp : p.Asks P) : p.Asks Q := by
  induction p with
  | done a => trivial
  | ask r next ih => exact ⟨h r hp.1, fun reply => ih reply (hp.2 reply)⟩

end Program.Asks

/-- All results that a program can end with are of some sort. -/
def Program.Ends {α : Type} (Q : α → Prop) : Program α → Prop
  | .done a => Q a
  | .ask _ next => ∀ reply, (next reply).Ends Q

theorem Program.Ends.bind {α β : Type} {Q : α → Prop} {R : β → Prop} {p : Program α}
    {f : α → Program β} (hp : p.Ends Q) (hf : ∀ a, Q a → (f a).Ends R) : (p.bind f).Ends R := by
  induction p with
  | done a => exact hf a hp
  | ask r next ih => exact fun reply => ih reply (hp reply)

/-- What a run asked is what its program can ask. -/
theorem Run.forall_asked {α : Type} {P : Request → Prop} {p : Program α} {w w' : World}
    {t : List (Event Unit)} {res : Option α} (h : Run p w t res w') (hp : p.Asks P) :
    ∀ e ∈ t, e.Asked P := by
  induction h with
  | stop => exact fun _ he => nomatch he
  | done => exact fun _ he => nomatch he
  | asked h _ ih =>
    intro e he
    rcases List.mem_cons.mp he with rfl | he
    · exact hp.1
    · exact ih (hp.2 _) e he
  | other h _ ih =>
    intro e he
    rcases List.mem_cons.mp he with rfl | he
    · trivial
    · exact ih hp e he

/-- What is made of every result in the end is all that counts. -/
theorem Program.Ends.of_forall {α β : Type} {R : β → Prop} {p : Program α} {f : α → Program β}
    (hf : ∀ a, (f a).Ends R) : (p.bind f).Ends R := by
  induction p with
  | done a => exact hf a
  | ask r next ih => exact fun reply => ih reply

/-- What a run ends with is what its program can end with. -/
theorem Run.ends {α : Type} {Q : α → Prop} {p : Program α} {w w' : World} {t : List (Event Unit)}
    {res : Option α} (h : Run p w t res w') (hp : p.Ends Q) : ∀ a ∈ res, Q a := by
  induction h with
  | stop => exact fun _ ha => nomatch ha
  | done a =>
    rintro b ⟨⟩
    exact hp
  | asked h _ ih => exact ih (hp _)
  | other h _ ih => exact ih hp

/-! ## Operations -/

/-- A run of two operations in a row is cut off in the first of them, or that one fails, or it is a
run of the first to its end and then one of the second. -/
theorem Run.operation_cases {α β : Type} {x : Operation α} {f : α → Operation β} {w w' : World}
    {t : List (Event Unit)} {res : Option (Except Failure β)} (h : Run (x >>= f).run w t res w') :
    (res = none ∧ Run x.run w t none w') ∨
    (∃ e, res = some (.error e) ∧ Run x.run w t (some (.error e)) w') ∨
    ∃ a t₁ t₂ w₁, t = t₁ ++ t₂ ∧ Run x.run w t₁ (some (.ok a)) w₁ ∧ Run (f a).run w₁ t₂ res w' := by
  replace h : Run (x.run.bind (ExceptT.bindCont f)) w t res w' := h
  rcases h.bind_cases with h | ⟨r, t₁, t₂, w₁, rfl, hrun, hrest⟩
  · exact .inl h
  · cases r with
    | ok a => exact .inr (.inr ⟨a, t₁, t₂, w₁, rfl, hrun, hrest⟩)
    | error e =>
      replace hrest : Run (.done (.error e)) w₁ t₂ res w' := hrest
      have hlinger := hrun.linger (hrest.done_congr (Except.error e : Except Failure α))
      cases res with
      | none => exact .inl ⟨rfl, hlinger⟩
      | some r =>
        rw [hrest.of_done.2 r rfl]
        exact .inr (.inl ⟨e, rfl, hlinger⟩)

/-- A run of two operations in a row that succeeded is a run of the first that succeeded and one of
the second. -/
theorem Run.ok_cases {α β : Type} {x : Operation α} {f : α → Operation β} {b : β} {w w' : World}
    {t : List (Event Unit)} (h : Run (x >>= f).run w t (some (.ok b)) w') :
    ∃ a t₁ t₂ w₁, t = t₁ ++ t₂ ∧ Run x.run w t₁ (some (.ok a)) w₁ ∧
      Run (f a).run w₁ t₂ (some (.ok b)) w' := by
  rcases h.operation_cases with ⟨hnone, -⟩ | ⟨e, he, -⟩ | hok
  · cases hnone
  · cases he
  · exact hok

/-- A run of two operations in a row that failed is a run of the first that failed, or a run of it
that succeeded and one of the second that failed. -/
theorem Run.error_cases {α β : Type} {x : Operation α} {f : α → Operation β} {e : Failure}
    {w w' : World} {t : List (Event Unit)} (h : Run (x >>= f).run w t (some (.error e)) w') :
    Run x.run w t (some (.error e)) w' ∨
    ∃ a t₁ t₂ w₁, t = t₁ ++ t₂ ∧ Run x.run w t₁ (some (.ok a)) w₁ ∧
      Run (f a).run w₁ t₂ (some (.error e)) w' := by
  rcases h.operation_cases with ⟨hnone, -⟩ | ⟨e', he, hrun⟩ | hok
  · cases hnone
  · cases he
    exact .inl hrun
  · exact .inr hok

/-- An operation that says what it does fails as it does without. -/
theorem Run.within_error {α : Type} {x : Operation α} {a : Activity} {e : Failure} {w w' : World}
    {t : List (Event Unit)} (h : Run (Operation.within a x).run w t (some (.error e)) w') :
    ∃ e', e = .during a e' ∧ Run x.run w t (some (.error e')) w' := by
  obtain ⟨r, hrun, hres⟩ := h.map_cases
  obtain ⟨b, rfl, hb⟩ := Option.map_eq_some_iff.mp hres.symm
  cases b with
  | ok b => cases hb
  | error e' =>
    cases hb
    exact ⟨e', rfl, hrun⟩

/-- An operation that says what it does succeeds as it does without. -/
theorem Run.within_ok {α : Type} {x : Operation α} {a : Activity} {b : α} {w w' : World}
    {t : List (Event Unit)} (h : Run (Operation.within a x).run w t (some (.ok b)) w') :
    Run x.run w t (some (.ok b)) w' := by
  obtain ⟨r, hrun, hres⟩ := h.map_cases
  obtain ⟨b', rfl, hb⟩ := Option.map_eq_some_iff.mp hres.symm
  cases b' with
  | ok b' =>
    cases hb
    exact hrun
  | error e => cases hb

/-- A question that was answered was answered at some moment. -/
theorem Run.ask_cases {r : Request} {reply : r.Reply} {w w' : World} {t : List (Event Unit)}
    (h : Run (Operation.ask r).run w t (some (.ok reply)) w') :
    ∃ t₁ t₂ w₁ w₂, t = t₁ ++ .asked () r w₁ reply w₂ :: t₂ ∧ Idle t₁ ∧ Turns w t₁ w₁ ∧
      w₁.answer r = some (reply, w₂) ∧ Turns w₂ t₂ w' := by
  obtain ⟨res, hrun, hres⟩ := map_cases h
  rcases hrun.question_cases with ⟨rfl, -⟩ | ⟨t₁, t₂, w₁, w₂, reply', ht, hidle, -, h₁, ha, h₂, hr⟩
  · cases hres
  · obtain ⟨a, ha', heq⟩ := Option.map_eq_some_iff.mp hres.symm
    cases heq
    cases hr reply ha'
    exact ⟨t₁, t₂, w₁, w₂, ht, hidle, h₁, ha, h₂⟩

namespace Operation

variable {α β : Type} {P : Request → Prop}

/-- All questions that an operation can ask are of some sort. -/
def Asks (P : Request → Prop) (x : Operation α) : Prop := x.run.Asks P

namespace Asks

theorem given (r : Except Failure α) : (given r).Asks P := trivial

theorem pure (a : α) : (Pure.pure a : Operation α).Asks P := trivial

theorem throw (f : Failure) : (MonadExcept.throw f : Operation α).Asks P := trivial

theorem ask {r : Request} (h : P r) : (ask r).Asks P := ⟨h, fun _ => trivial⟩

theorem bind {x : Operation α} {f : α → Operation β} (hx : x.Asks P) (hf : ∀ a, (f a).Asks P) :
    (x >>= f).Asks P :=
  Program.Asks.bind hx fun r => match r with
    | .ok a => hf a
    | .error _ => trivial

theorem within {x : Operation α} (hx : x.Asks P) (a : Activity) : (within a x).Asks P :=
  Program.Asks.bind hx fun _ => trivial

theorem ofCluster {p : Program (Except ClusterFault α)} (hp : p.Asks P) : (ofCluster p).Asks P :=
  Program.Asks.bind hp fun _ => trivial

theorem awaitObject {k : Kind} {selector : Selector} {what : String} {timeout : Nat}
    {check : Change → k.Object → Verdict} (hwatch : P (.watch k selector)) (hnow : P .now)
    (hawait : ∀ handle deadline, P (.await k handle deadline check)) :
    (awaitObject k selector what timeout check).Asks P :=
  (ask hwatch).bind fun handle => (ask hnow).bind fun _ => (ask (hawait handle _)).bind fun _ =>
    given _

end Asks

/-- All failures that an operation can end with are of some sort. -/
def Fails (K : Failure → Prop) (x : Operation α) : Prop :=
  x.run.Ends fun r => ∀ e, r = .error e → K e

namespace Fails

variable {K L : Failure → Prop}

theorem given {r : Except Failure α} (h : ∀ e, r = .error e → K e) : (given r).Fails K := h

theorem pure (a : α) : (Pure.pure a : Operation α).Fails K := fun _ h => nomatch h

theorem throw {f : Failure} (h : K f) : (MonadExcept.throw f : Operation α).Fails K := by
  rintro e ⟨⟩
  exact h

theorem ask (r : Request) : (ask r).Fails K := fun _ _ h => nomatch h

theorem bind {x : Operation α} {f : α → Operation β} (hx : x.Fails K) (hf : ∀ a, (f a).Fails K) :
    (x >>= f).Fails K :=
  Program.Ends.bind hx fun r hr => match r with
    | .ok a => hf a
    | .error e => by
      rintro e' ⟨⟩
      exact hr e rfl

theorem within {x : Operation α} {a : Activity} (hx : x.Fails K) (h : ∀ e, K e → L (.during a e)) :
    (within a x).Fails L :=
  Program.Ends.bind hx fun r hr => match r with
    | .ok _ => fun _ h => nomatch h
    | .error e => by
      rintro e' ⟨⟩
      exact h e (hr e rfl)

end Fails

end Operation

/-! ## Commits -/

/-- A workload that was written: what was sent, what was stored, and the worlds around it. -/
structure Commit where
  before : World
  sent : DeploymentConfig
  stored : DeploymentConfig
  after : World

/-- The commit that a turn was, if it was one. -/
def Event.commit? {ι : Type} : Event ι → Option Commit
  | .asked _ (.updateWorkload sent) before (.ok stored) after => some ⟨before, sent, stored, after⟩
  | _ => none

/-- The commits of what happened, one after another. -/
def commits {ι : Type} (t : List (Event ι)) : List Commit := t.filterMap Event.commit?

/-- The question is for a claim to be created or deleted. -/
def Request.ChangesClaims : Request → Prop
  | .createClaim .. => True
  | .deleteClaim _ => True
  | _ => False

theorem commits_append {ι : Type} (t₁ t₂ : List (Event ι)) :
    commits (t₁ ++ t₂) = commits t₁ ++ commits t₂ :=
  List.filterMap_append

/-- Turns without commits in front do not count. -/
theorem commits_append_of_nil {ι : Type} {t₁ t₂ : List (Event ι)} (h : commits t₁ = []) :
    commits (t₁ ++ t₂) = commits t₂ := by
  rw [commits_append, h, List.nil_append]

/-- Who asks for no update commits nothing. -/
theorem commits_eq_nil {ι : Type} {t : List (Event ι)}
    (h : ∀ e ∈ t, e.Asked fun r => ¬ r.IsUpdate) : commits t = [] := by
  refine List.filterMap_eq_nil_iff.mpr ?_
  intro e he
  unfold Event.commit?
  split
  · exact absurd trivial (h _ he)
  · rfl

theorem Idle.commits_eq_nil {ι : Type} {t : List (Event ι)} (h : Idle t) : commits t = [] := by
  refine InnerLoop.commits_eq_nil ?_
  intro e he
  cases e with
  | asked => exact (h _ he).elim
  | other => trivial

end InnerLoop
