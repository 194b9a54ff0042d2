import InnerLoop.Proofs.Paced

/-!
# Waits among others

A wait is held back until its watch was told something that decides it, or until its time is up. In
a paced run that makes it as good as news: it ends with the first turn in time that brings any.

- `newsBefore`: the first news that turns bring before some time.
- `Reports`: what a watch was told keeps up with the news, turn by turn.
- `UpToDate`: a watch was told the news so far, as far as they came in time.
- `Paced.awaited`: **a wait ends with the first news before its time is up**, as soon as they are
  there, and else when its time is up; `Paced.awaited_for` counts the time from now.
-/

namespace InnerLoop

/-! ## News -/

section

variable {κ : Type} {deadline : Nat} {news : World → World → Option (Ending κ)} {e : Event Unit}
  {t t₁ t₂ : List (Event Unit)}

/-- The first news that turns bring before some time. -/
def newsBefore (deadline : Nat) (news : World → World → Option (Ending κ))
    (t : List (Event Unit)) : Option (Ending κ) :=
  t.findSome? fun e => if e.after.clock < deadline then news e.before e.after else none

theorem newsBefore_append : newsBefore deadline news (t₁ ++ t₂) =
    (newsBefore deadline news t₁).or (newsBefore deadline news t₂) :=
  List.findSome?_append

theorem newsBefore_cons :
    newsBefore deadline news (e :: t) =
      (newsBefore deadline news [e]).or (newsBefore deadline news t) :=
  @newsBefore_append _ _ _ [e] t

theorem newsBefore_singleton : newsBefore deadline news [e] =
    if e.after.clock < deadline then news e.before e.after else none := by
  unfold newsBefore
  rw [List.findSome?_cons]
  split <;> simp_all

/-- There are news if a turn in time brings some. -/
theorem newsBefore_isSome_iff : (newsBefore deadline news t).isSome = true ↔
    ∃ e ∈ t, (news e.before e.after).isSome = true ∧ e.after.clock < deadline := by
  unfold newsBefore
  rw [List.findSome?_isSome_iff]
  constructor
  · rintro ⟨e, he, hnews⟩
    split at hnews
    · exact ⟨e, he, hnews, ‹_›⟩
    · cases hnews
  · rintro ⟨e, he, hnews, htime⟩
    refine ⟨e, he, ?_⟩
    rw [if_pos htime]
    exact hnews

/-- What comes too late is no news. -/
theorem newsBefore_eq_none (h : ∀ e ∈ t, deadline ≤ e.after.clock) :
    newsBefore deadline news t = none :=
  List.findSome?_eq_none_iff.mpr fun e he => if_neg (Nat.not_lt.mpr (h e he))

end

/-- A watch keeps up with the news: what it was told ends a wait as the first news do, and a turn
adds its own. -/
structure Reports (k : Kind) (own : Nat) (check : Change → k.Object → Verdict)
    (Turn : World → World → Prop) (news : World → World → Option (Ending k.Object))
    (Heard : World → Option (Ending k.Object) → Prop) : Prop where
  ending : ∀ {w found}, Heard w found → w.ending? k own check = found
  turn : ∀ {w w' found}, Heard w found → Turn w w' → Heard w' (found.or (news w w'))

/-- A watch was told what is news so far. After the time is up that no longer matters, if there was
nothing before. -/
structure UpToDate {κ : Type} (deadline : Nat) (Heard : World → Option (Ending κ) → Prop)
    (w : World) (found : Option (Ending κ)) : Prop where
  heard : w.clock < deadline → Heard w found
  late : deadline ≤ w.clock → found = none

section

variable {α : Type} {answer : Surroundings} {k : Kind} {own deadline timeout : Nat}
  {check : Change → k.Object → Verdict} {Turn : World → World → Prop}
  {news : World → World → Option (Ending k.Object)}
  {Heard : World → Option (Ending k.Object) → Prop} {found : Option (Ending k.Object)}
  {g : Ending k.Object → α} {w w₁ w' : World} {t : List (Event Unit)} {q : Program α}

namespace UpToDate

/-- A turn that takes no time. -/
theorem turn (h : UpToDate deadline Heard w found)
    (hreports : Reports k own check Turn news Heard) (hturn : Turn w w₁)
    (hclock : w₁.clock = w.clock) {e : Event Unit} (hbefore : e.before = w) (hafter : e.after = w₁) :
    UpToDate deadline Heard w₁ (found.or (newsBefore deadline news [e])) := by
  subst hbefore hafter
  rw [newsBefore_singleton]
  constructor
  · intro htime
    rw [if_pos htime]
    exact hreports.turn (h.heard (hclock ▸ htime)) hturn
  · intro htime
    rw [if_neg (Nat.not_lt.mpr htime), h.late (hclock ▸ htime)]
    rfl

/-- While time goes by without any news. -/
theorem tick (h : UpToDate deadline Heard w none)
    (hreports : Reports k own check Turn news Heard) (hturn : Turn w w₁)
    (hclock : w.clock ≤ w₁.clock) {e : Event Unit} (hbefore : e.before = w) (hafter : e.after = w₁) :
    UpToDate deadline Heard w₁ (newsBefore deadline news [e]) := by
  subst hbefore hafter
  rw [newsBefore_singleton]
  constructor
  · intro htime
    rw [if_pos htime]
    exact hreports.turn (h.heard (Nat.lt_of_le_of_lt hclock htime)) hturn
  · intro htime
    exact if_neg (Nat.not_lt.mpr htime)

/-- Turns before a question that is always answered. -/
theorem idle {r : Request} {next : r.Reply → Program α} (h : UpToDate deadline Heard w found)
    (hreports : Reports k own check Turn news Heard) (hready : ∀ w, answer w r ≠ none)
    (hturns : OthersDo Turn t) (hidle : Idle t)
    (hrun : Paced answer (.ask r next) w t q w') :
    UpToDate deadline Heard w' (found.or (newsBefore deadline news t)) := by
  generalize hp : Program.ask r next = p at hrun
  induction hrun generalizing found with
  | start =>
    rw [show newsBefore deadline news [] = none from rfl, Option.or_none]
    exact h
  | asked => exact (hidle _ List.mem_cons_self).elim
  | other hclock _ ih =>
    rw [newsBefore_cons, ← Option.or_assoc]
    exact ih (h.turn hreports (hturns _ _ List.mem_cons_self) hclock rfl rfl) hturns.tail
      (fun e he => hidle e (List.mem_cons_of_mem _ he)) hp
  | tick hheld =>
    subst hp
    exact absurd hheld (hready _)

end UpToDate

/-! ## Waits -/

/-- How a watch that is still open ends a wait. -/
theorem World.ending?_of_live {s : Subscription k.Object}
    (h : (w.cluster.store k).subscription? own = some s) (hlive : s.live = true) :
    w.ending? k own check = firstDecisive check s.queue := by
  unfold World.ending?
  rw [h]
  show s.ending? check = _
  unfold Subscription.ending?
  rw [hlive]
  cases firstDecisive check s.queue <;> rfl

/-- **A wait ends with the first news before its time is up**, as soon as they are there, and else
when its time is up. `found` is what was news before the run, if it was in time. -/
theorem Paced.awaited (hreports : Reports k own check Turn news Heard)
    (hanswer : ∀ w, answer w (.await k own deadline check) = w.answer (.await k own deadline check))
    (hswift : answer.Swift) (hturns : OthersDo Turn t) (hfound : UpToDate deadline Heard w found)
    (h : Paced answer (.ask (.await k own deadline check) fun e => .done (g e)) w t q w') :
    q.atOnce answer w' = ((found.or (newsBefore deadline news t)).or
      (if deadline ≤ w'.clock then some .timedOut else none)).map g := by
  generalize hp : Program.ask (.await k own deadline check) (fun e => .done (g e)) = p at h
  induction h generalizing found with
  | start p w =>
    subst hp
    by_cases htime : w.clock < deadline
    · -- It goes on at once if there were news.
      have hawait := (hanswer w).trans (World.answer_await_of_lt htime)
      rw [hreports.ending (hfound.heard htime)] at hawait
      rw [if_neg (Nat.not_le.mpr htime), Option.or_none]
      cases found with
      | none => exact Program.atOnce_of_none hawait
      | some e => exact Program.atOnce_ask hawait
    · have htime := Nat.not_lt.mp htime
      have hawait := (hanswer w).trans (World.answer_await_of_le htime)
      rw [hfound.late htime, if_pos htime]
      exact Program.atOnce_ask hawait
  | @asked r next w w₁ w' reply t q h rest ih =>
    cases hp
    have hclocks := rest.clocks hswift
    cases rest.of_done
    rw [hanswer] at h
    by_cases htime : w.clock < deadline
    · rw [World.answer_await_of_lt htime, hreports.ending (hfound.heard htime)] at h
      obtain ⟨e, rfl, he⟩ := Option.map_eq_some_iff.mp h
      cases he
      rfl
    · have htime := Nat.not_lt.mp htime
      rw [World.answer_await_of_le htime] at h
      cases h
      -- All that happened later came too late.
      have hnone : newsBefore deadline news
          (.asked () (.await k own deadline check) w .timedOut (w.dropWatch k own) :: t) = none := by
        refine newsBefore_eq_none fun e he => ?_
        rcases List.mem_cons.mp he with rfl | he
        · exact htime
        · exact Nat.le_trans htime (hclocks.2 e he).1
      rw [hfound.late htime, hnone, if_pos (Nat.le_trans htime hclocks.1)]
      rfl
  | other hclock _ ih =>
    rw [newsBefore_cons, ← Option.or_assoc]
    exact ih hturns.tail
      (hfound.turn hreports (hturns _ _ List.mem_cons_self) hclock rfl rfl) hp
  | @tick p q w w' t time hheld hlater hwakes rest ih =>
    subst hp
    replace hheld : answer w (.await k own deadline check) = none := hheld
    -- Time goes by only while there is no news.
    have htime : w.clock < deadline := by
      refine Nat.not_le.mp fun hle => ?_
      rw [hanswer, World.answer_await_of_le hle] at hheld
      cases hheld
    have hnone : found = none := by
      rw [hanswer, World.answer_await_of_lt htime, Option.map_eq_none_iff,
        hreports.ending (hfound.heard htime)] at hheld
      exact hheld
    subst hnone
    rw [newsBefore_cons, Option.none_or]
    exact ih hturns.tail
      (hfound.tick hreports (hturns _ _ List.mem_cons_self) hlater rfl rfl) rfl

/-- A wait for some milliseconds from now on. -/
theorem Paced.awaited_for (hreports : Reports k own check Turn news Heard)
    (hanswer : ∀ w deadline,
      answer w (.await k own deadline check) = w.answer (.await k own deadline check))
    (hnow : ∀ w, answer w .now = some (w.clock, w)) (hsame : ∀ w, Turn w w)
    (hswift : answer.Swift) (hturns : OthersDo Turn t)
    (hfound : UpToDate (w.clock + timeout) Heard w found)
    (h : Paced answer (.ask .now fun now => .ask (.await k own (now + timeout) check) fun e =>
      .done (g e)) w t q w') :
    q.atOnce answer w' = ((found.or (newsBefore (w.clock + timeout) news t)).or
      (if w.clock + timeout ≤ w'.clock then some .timedOut else none)).map g := by
  generalize hp : Program.ask .now (fun now => .ask (.await k own (now + timeout) check) fun e =>
    .done (g e)) = p at h
  induction h generalizing found with
  | start p w =>
    subst hp
    rw [Program.atOnce_ask (hnow w)]
    exact Paced.awaited hreports (hanswer · _) hswift hturns hfound (.start _ w)
  | @asked r next w w₁ w' reply t q h rest ih =>
    cases hp
    obtain ⟨rfl, rfl⟩ := Prod.mk.inj (Option.some.inj ((hnow w).symm.trans h))
    rw [newsBefore_cons, ← Option.or_assoc]
    refine Paced.awaited hreports (hanswer · _) hswift hturns.tail ?_ rest
    exact hfound.turn hreports (hsame w) rfl rfl rfl
  | @other p q w w₁ w' t hclock rest ih =>
    rw [newsBefore_cons, ← Option.or_assoc]
    have hnext := hfound.turn hreports (hturns _ _ List.mem_cons_self) hclock
      (e := .other w w₁) rfl rfl
    rw [← hclock] at hnext ⊢
    exact ih hturns.tail hnext hp
  | tick hheld =>
    subst hp
    replace hheld : answer _ .now = none := hheld
    rw [hnow] at hheld
    cases hheld

end

end InnerLoop
