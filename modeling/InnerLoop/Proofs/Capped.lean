import InnerLoop.Proofs.Retries
import Mathlib.Data.List.Infix

/-!
# Pauses and their cap

No pause of a schedule is to exceed its cap. The cap is applied to a pause when the one before it is
handed out, and so to every pause but the first after a start, which is the base as it stands.

- `Backoff.Call`, `Backoff.trace`: a schedule that is asked for pauses and started again at will.
- `delays_le`, `tail_delays_le`: which pauses of a schedule are capped.
- `FromStart`, `FromStart.call`: **what is left of a schedule is the end of it**, after each call.
- `stretch_isInfix`: the pauses between two starts are a part of the schedule.
- `delays_capped_iff`: **when no pause exceeds the cap**, and what holds of all pauses in any case.
-/

namespace InnerLoop.Backoff

/-! ## Calls -/

/-- What a schedule is asked. -/
inductive Call where
  | next
  | reset
  deriving DecidableEq

/-- What it answers. -/
inductive Answer where
  | delay (millis : Nat)
  /-- All attempts are used up. -/
  | spent
  | restarted
  deriving DecidableEq

/-- One call. -/
def call (b : Backoff) : Call → Answer × Backoff
  | .next =>
    match b.next with
    | some (d, b') => (.delay d, b')
    | none => (.spent, b)
  | .reset => (.restarted, b.reset)

/-- The answers to calls in a row. -/
def trace (b : Backoff) : List Call → List Answer
  | [] => []
  | c :: cs => (b.call c).1 :: (b.call c).2.trace cs

/-- The pause of an answer. -/
def Answer.delay? : Answer → Option Nat
  | .delay d => some d
  | .spent | .restarted => none

/-- The pauses among some answers. -/
def delaysIn (answers : List Answer) : List Nat := answers.filterMap Answer.delay?

/-! ## The pauses of a schedule -/

/-- If the next pause is capped, all are, because each one that is computed is. -/
theorem delays_le (b : Backoff) (h : b.current ≤ b.cap) : ∀ d ∈ b.delays, d ≤ b.cap := by
  induction b using induction_after with
  | spent b hspent =>
    rw [(spent hspent).2]
    exact nofun
  | unspent b hunspent ih =>
    rw [(unspent hunspent).2, List.forall_mem_cons]
    exact ⟨h, ih (Nat.min_le_right _ _)⟩

/-- All pauses but the first are capped in any case. -/
theorem tail_delays_le (b : Backoff) : ∀ d ∈ b.delays.tail, d ≤ b.cap := by
  rcases Nat.lt_or_ge b.used b.attempts with h | h
  · rw [(unspent h).2]
    exact delays_le b.after (Nat.min_le_right _ _)
  · rw [(spent h).2]
    exact nofun

/-! ## One call after another -/

section

variable {start b : Backoff}

theorem call_next_of_spent (h : b.attempts ≤ b.used) : b.call .next = (.spent, b) := by
  unfold call
  rw [(spent h).1]

theorem call_next_of_unspent (h : b.used < b.attempts) :
    b.call .next = (.delay b.current, b.after) := by
  unfold call
  rw [(unspent h).1]

/-- The schedule `b` is `start` some way on. -/
structure FromStart (start b : Backoff) : Prop where
  reset_eq : b.reset = start
  left : b.delays <:+ start.delays

theorem FromStart.make (base cap attempts : Nat) :
    FromStart (make base cap attempts) (make base cap attempts) :=
  ⟨rfl, List.suffix_refl _⟩

/-- **Each call leaves the end of the schedule**: one pause less, the same, or all of it. -/
theorem FromStart.call (h : FromStart start b) (c : Call) : FromStart start (b.call c).2 := by
  cases c with
  | next =>
    rcases Nat.lt_or_ge b.used b.attempts with hleft | hleft
    · rw [call_next_of_unspent hleft]
      refine ⟨h.reset_eq, (List.suffix_cons b.current _).trans ?_⟩
      rw [← (unspent hleft).2]
      exact h.left
    · rw [call_next_of_spent hleft]
      exact h
  | reset =>
    have hreset : b.reset.reset = b.reset := rfl
    refine ⟨hreset.trans h.reset_eq, ?_⟩
    show b.reset.delays <:+ _
    rw [h.reset_eq]

/-- Without a new start the pauses are the next ones of the schedule. The induction is on the
calls, each of which takes an answer off the front. -/
theorem stretch_isPrefix {calls : List Call} {seg post : List Answer}
    (h : b.trace calls = seg ++ post) (hseg : .restarted ∉ seg) :
    delaysIn seg <+: b.delays := by
  induction calls generalizing b seg with
  | nil =>
    obtain ⟨rfl, -⟩ := List.append_eq_nil_iff.mp h.symm
    exact List.nil_prefix
  | cons c calls ih =>
    cases seg with
    | nil => exact List.nil_prefix
    | cons a seg =>
      obtain ⟨rfl, hrest⟩ := List.cons.inj h
      -- The first answer is no new start, and so neither are those after it.
      obtain ⟨hne, hseg⟩ := not_or.mp (mt List.mem_cons.mpr hseg)
      have hprefix : delaysIn seg <+: (b.call c).2.delays := ih hrest hseg
      cases c with
      | reset => exact absurd rfl hne
      | next =>
        rcases Nat.lt_or_ge b.used b.attempts with hleft | hleft
        · rw [call_next_of_unspent hleft] at hprefix ⊢
          rw [(unspent hleft).2]
          exact (List.prefix_cons_inj b.current).mpr hprefix
        · rw [call_next_of_spent hleft] at hprefix ⊢
          exact hprefix

/-- **The pauses of a stretch without a new start** are a part of the schedule. The induction is on
the answers before the stretch. -/
theorem FromStart.stretch_isInfix (h : FromStart start b) {calls : List Call}
    {pre seg post : List Answer} (htrace : b.trace calls = pre ++ (seg ++ post))
    (hseg : .restarted ∉ seg) : delaysIn seg <:+: start.delays := by
  induction pre generalizing b calls with
  | nil =>
    have hprefix : delaysIn seg <+: b.delays := stretch_isPrefix htrace hseg
    exact hprefix.isInfix.trans h.left.isInfix
  | cons a pre ih =>
    cases calls with
    | nil => cases htrace
    | cons c calls => exact ih (h.call c) (List.cons.inj htrace).2

/-- A pause is a stretch of its own. -/
theorem FromStart.delay_mem (h : FromStart start b) {calls : List Call} {d : Nat}
    (hd : .delay d ∈ b.trace calls) : d ∈ start.delays := by
  obtain ⟨pre, post, htrace⟩ := List.append_of_mem hd
  have hseg : Answer.restarted ∉ [Answer.delay d] := by simp
  have hinfix : delaysIn [.delay d] <:+: start.delays := h.stretch_isInfix htrace hseg
  exact hinfix.subset List.mem_cons_self

/-- What comes after the first item of a part comes after the first item of the whole. -/
theorem tail_subset_of_isInfix {α : Type} {l m : List α} (h : l <:+: m) : l.tail ⊆ m.tail := by
  obtain ⟨s, t, rfl⟩ := h
  cases l with
  | nil => exact List.nil_subset _
  | cons x l =>
    rw [List.tail_cons]
    cases s with
    | nil => exact List.subset_append_left l t
    | cons y s =>
      intro z hz
      simp [hz]

end

/-! ## The cap -/

section

variable (base cap attempts : Nat)

/-- If there is a second attempt, the first pause is the base. -/
theorem delays_make (h : 1 < attempts) :
    (make base cap attempts).delays = base :: (make base cap attempts).after.delays :=
  (unspent h).2

/-- If there is none, there is no pause. -/
theorem delays_make_of_le (h : attempts ≤ 1) : (make base cap attempts).delays = [] :=
  (spent h).2

/-- **When no pause exceeds the cap**: exactly if the base does not, or there is no second attempt.
In any case, the pauses between two starts are fewer than the attempts, and only the first of them
may exceed the cap, which then is the base. -/
theorem delays_capped_iff :
    ((∀ calls d, .delay d ∈ (make base cap attempts).trace calls → d ≤ cap) ↔
      base ≤ cap ∨ attempts ≤ 1) ∧
    (∀ calls d, .delay d ∈ (make base cap attempts).trace calls → d = base ∨ d ≤ cap) ∧
    ∀ calls pre seg post, (make base cap attempts).trace calls = pre ++ (seg ++ post) →
      .restarted ∉ seg →
      (delaysIn seg).length ≤ max 1 attempts - 1 ∧ ∀ d ∈ (delaysIn seg).tail, d ≤ cap := by
  have hstart : FromStart (make base cap attempts) (make base cap attempts) := .make ..
  have hfirst : ∀ calls d, .delay d ∈ (make base cap attempts).trace calls →
      1 < attempts ∧ (d = base ∨ d ≤ cap) := by
    intro calls d hd
    have hmem : d ∈ (make base cap attempts).delays := hstart.delay_mem hd
    have htail := tail_delays_le (make base cap attempts)
    rcases Nat.lt_or_ge 1 attempts with hmany | hone
    · rw [delays_make base cap attempts hmany] at hmem htail
      exact ⟨hmany, (List.mem_cons.mp hmem).imp_right (htail d)⟩
    · rw [delays_make_of_le base cap attempts hone] at hmem
      cases hmem
  refine ⟨⟨fun h => ?_, fun h calls d hd => ?_⟩, fun calls d hd => (hfirst calls d hd).2,
    fun calls pre seg post htrace hseg => ?_⟩
  · -- If there is a second attempt, the base is what the first call answers.
    rcases Nat.lt_or_ge 1 attempts with hmany | hone
    · refine .inl (h [.next] base ?_)
      have hcall : (make base cap attempts).call .next = (.delay base, _) :=
        call_next_of_unspent hmany
      unfold trace
      rw [hcall]
      exact List.mem_cons_self
    · exact .inr hone
  · obtain ⟨hmany, hd⟩ := hfirst calls d hd
    have hbase : base ≤ cap := h.resolve_right (Nat.not_le.mpr hmany)
    exact hd.elim (fun heq => heq ▸ hbase) id
  · have hinfix := hstart.stretch_isInfix htrace hseg
    have hlength : (make base cap attempts).delays.length = attempts - 1 := length_delays _
    have hle := hinfix.length_le
    exact ⟨by omega, fun d hd => tail_delays_le _ d (tail_subset_of_isInfix hinfix hd)⟩

end

/-- **A pause that exceeds the cap**: not every schedule keeps all its pauses within the cap. With a
base of half a second, a cap of a quarter and three attempts, the first pause is twice the cap. -/
theorem first_delay_exceeds_cap :
    ¬ ∀ base cap attempts calls d, .delay d ∈ (make base cap attempts).trace calls → d ≤ cap := by
  intro h
  have htrace : (make 500 250 3).trace [.next, .next] = [.delay 500, .delay 250] := rfl
  have hle : 500 ≤ 250 := h 500 250 3 [.next, .next] 500 (htrace ▸ List.mem_cons_self)
  exact absurd hle (by decide)

end InnerLoop.Backoff
