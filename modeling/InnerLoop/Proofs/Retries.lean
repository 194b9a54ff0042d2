import InnerLoop.Operation.Retry
import Mathlib.Data.List.Range

/-!
# How often, and after which pauses

A write that meets other writers is tried again after pauses that grow like the Fibonacci numbers
until they reach a cap. How many attempts there are is fixed beforehand, and it does not matter how
far the schedule had run when it was handed over.

- `Backoff.spent`, `Backoff.unspent`: a schedule whose attempts are used up, and one that has a pause
  left; `Backoff.induction_after`, the induction from the one to the other.
- `Backoff.pauseAfter`: the pause after an attempt, by the number of the attempt, and
  `Backoff.delays_reset`, that these are the pauses of a schedule.
- `scriptedAttempt`, `scriptedPause`: attempts that come out as a script says, and pauses, of which
  all is written down.
- `retry_follows_schedule`: **the attempts that are made, the pauses between them and the result**,
  for every script.
-/

namespace InnerLoop

/-! ## The pauses of a schedule -/

namespace Backoff

/-- The schedule after its next pause. -/
def after (b : Backoff) : Backoff := { b with
  used := b.used + 1
  previous := b.current
  current := min (b.previous + b.current) b.cap }

/-- Once the attempts are used up there is no pause. -/
theorem spent {b : Backoff} (h : b.attempts ≤ b.used) : b.next = none ∧ b.delays = [] := by
  have hnext : b.next = none := if_pos h
  refine ⟨hnext, ?_⟩
  rw [delays, hnext]

/-- Until then the next pause is the one at hand, whatever the cap. -/
theorem unspent {b : Backoff} (h : b.used < b.attempts) :
    b.next = some (b.current, b.after) ∧ b.delays = b.current :: b.after.delays := by
  have hnext : b.next = some (b.current, b.after) := if_neg (Nat.not_le.mpr h)
  refine ⟨hnext, ?_⟩
  rw [delays, hnext]

/-- From one pause to the one before it, beginning where the attempts are used up. -/
theorem induction_after {motive : Backoff → Prop}
    (spent : ∀ b, b.attempts ≤ b.used → motive b)
    (unspent : ∀ b, b.used < b.attempts → motive b.after → motive b) (b : Backoff) : motive b := by
  generalize hleft : b.attempts - b.used = left
  induction left generalizing b with
  | zero => exact spent b (Nat.le_of_sub_eq_zero hleft)
  | succ left ih =>
    have hafter : b.after.attempts - b.after.used = left := by
      show b.attempts - (b.used + 1) = left
      omega
    exact unspent b (by omega) (ih b.after hafter)

/-- A schedule has a pause for every attempt that is left. -/
theorem length_delays (b : Backoff) : b.delays.length = b.attempts - b.used := by
  induction b using induction_after with
  | spent b h =>
    rw [(spent h).2]
    exact (Nat.sub_eq_zero_of_le h).symm
  | unspent b h ih =>
    rw [(unspent h).2, List.length_cons, ih]
    show b.attempts - (b.used + 1) + 1 = b.attempts - b.used
    omega

/-- The pause after the attempt of a number, counted from one. -/
def pauseAfter (b : Backoff) (i : Nat) : Nat := min (fib i * b.base) b.cap

/-- The schedule after so many pauses. -/
def stage (b : Backoff) (i : Nat) : Backoff :=
  { b with previous := b.pauseAfter i, current := b.pauseAfter (i + 1), used := i + 1 }

/-- A schedule that starts again has no pause behind it. Only here the base has to be within the
cap: it is the first pause as it stands. -/
theorem reset_eq_stage {b : Backoff} (hcap : b.base ≤ b.cap) : b.reset = b.stage 0 := by
  have hprevious : b.pauseAfter 0 = 0 := by
    unfold pauseAfter
    rw [fib, Nat.zero_mul, Nat.zero_min]
  have hcurrent : b.pauseAfter 1 = b.base := by
    unfold pauseAfter
    rw [fib, Nat.one_mul, Nat.min_eq_left hcap]
  unfold stage
  rw [hprevious, hcurrent]
  rfl

/-- Cutting two pauses at the cap before they are added makes no difference to the next one. -/
theorem pauseAfter_add_two (b : Backoff) (i : Nat) :
    min (b.pauseAfter i + b.pauseAfter (i + 1)) b.cap = b.pauseAfter (i + 2) := by
  unfold pauseAfter
  rw [fib, Nat.add_mul]
  omega

theorem next_stage (b : Backoff) (i : Nat) :
    (b.stage i).next =
      if b.attempts ≤ i + 1 then none else some (b.pauseAfter (i + 1), b.stage (i + 1)) := by
  unfold next
  show (if b.attempts ≤ i + 1 then none else some (b.pauseAfter (i + 1), { b.stage i with
    used := i + 1 + 1
    previous := b.pauseAfter (i + 1)
    current := min (b.pauseAfter i + b.pauseAfter (i + 1)) b.cap })) = _
  rw [pauseAfter_add_two]
  rfl

/-- The pauses that are left are those after the attempts that are left, but for the last. -/
theorem delays_stage (b : Backoff) (i : Nat) :
    (b.stage i).delays = (List.range' (i + 1) (b.attempts - (i + 1))).map b.pauseAfter := by
  generalize hleft : b.attempts - (i + 1) = left
  induction left generalizing i with
  | zero =>
    have hnext : (b.stage i).next = none := by
      rw [next_stage, if_pos (by omega)]
    rw [delays, hnext]
    rfl
  | succ left ih =>
    have hnext : (b.stage i).next = some (b.pauseAfter (i + 1), b.stage (i + 1)) := by
      rw [next_stage, if_neg (by omega)]
    rw [delays, hnext]
    show b.pauseAfter (i + 1) :: (b.stage (i + 1)).delays = _
    rw [ih (i + 1) (by omega), List.range'_succ]
    rfl

theorem delays_reset {b : Backoff} (hcap : b.base ≤ b.cap) :
    b.reset.delays = (List.range' 1 (b.attempts - 1)).map b.pauseAfter := by
  rw [reset_eq_stage hcap, delays_stage]

end Backoff

/-! ## One attempt -/

variable {α : Type}

/-- The attempt met another writer, whatever was being done at the time. -/
def IsConflict (r : Except Failure α) : Prop := ∃ f, r = .error f ∧ f.kind = .conflict

section Attempt

variable {m : Type → Type} [Monad m] (sleep : Nat → m Unit) (kind name : String)
  (attempt : m (Except Failure α))

/-- What is done about the outcome of an attempt. -/
def afterAttempt (made : Nat) (pauses : List Nat) (r : Except Failure α) : m (Except Failure α) :=
  match r, pauses with
  | .ok a, _ => pure (.ok a)
  | .error f, [] => if f.kind = .conflict then pure (.error (.conflict kind name made)) else pure r
  | .error f, pause :: pauses =>
    if f.kind = .conflict then do
      sleep pause
      retryAfter sleep kind name attempt (made + 1) pauses
    else pure r

theorem retryAfter_eq (made : Nat) (pauses : List Nat) :
    retryAfter sleep kind name attempt made pauses =
      attempt >>= afterAttempt sleep kind name attempt made pauses := by
  cases pauses with
  | nil =>
    rw [retryAfter]
    refine congrArg (attempt >>= ·) (funext fun r => ?_)
    cases r with
    | ok a => rfl
    | error f => rfl
  | cons pause pauses =>
    rw [retryAfter]
    refine congrArg (attempt >>= ·) (funext fun r => ?_)
    cases r with
    | ok a => rfl
    | error f => rfl

variable {sleep kind name attempt} {made : Nat} {r : Except Failure α}

/-- Whatever else an attempt ends with is the result as it stands. -/
theorem afterAttempt_of_not_conflict (h : ¬ IsConflict r) (pauses : List Nat) :
    afterAttempt sleep kind name attempt made pauses r = pure r := by
  cases r with
  | ok a => rfl
  | error f =>
    have hf : ¬ f.kind = .conflict := fun hf => h ⟨f, rfl, hf⟩
    cases pauses with
    | nil => exact if_neg hf
    | cons pause pauses => exact if_neg hf

/-- The last conflict is reported by the number of attempts, not as it came. -/
theorem afterAttempt_last (h : IsConflict r) :
    afterAttempt sleep kind name attempt made [] r = pure (.error (.conflict kind name made)) := by
  obtain ⟨f, rfl, hf⟩ := h
  exact if_pos hf

theorem afterAttempt_again (h : IsConflict r) (pause : Nat) (pauses : List Nat) :
    afterAttempt sleep kind name attempt made (pause :: pauses) r =
      (sleep pause >>= fun _ => retryAfter sleep kind name attempt (made + 1) pauses) := by
  obtain ⟨f, rfl, hf⟩ := h
  exact if_pos hf

end Attempt

/-! ## Attempts from a script -/

/-- What is done to get something written. -/
inductive RetryAct (α : Type) where
  | attempted (outcome : Except Failure α)
  | paused (time : Nat)

/-- What was done so far. -/
structure RetryTrace (α : Type) where
  /-- How many attempts were made. -/
  attempts : Nat := 0
  /-- All attempts and pauses, in their order. -/
  acts : List (RetryAct α) := []

namespace RetryTrace

/-- One more attempt. -/
def attempt (t : RetryTrace α) (outcome : Except Failure α) : RetryTrace α :=
  { attempts := t.attempts + 1, acts := t.acts ++ [.attempted outcome] }

/-- One more pause. -/
def pause (t : RetryTrace α) (time : Nat) : RetryTrace α :=
  { t with acts := t.acts ++ [.paused time] }

end RetryTrace

/-- An attempt that comes out as a script says for its number, counted from zero. -/
def scriptedAttempt (outcomes : Nat → Except Failure α) :
    StateM (RetryTrace α) (Except Failure α) :=
  modifyGet fun t => (outcomes t.attempts, t.attempt (outcomes t.attempts))

/-- A pause that is only written down. -/
def scriptedPause (time : Nat) : StateM (RetryTrace α) Unit := modify (·.pause time)

/-- The pause that comes before the attempt of a number; there is none before the first. -/
def leadIn (pauseAfter : Nat → Nat) (i : Nat) : List (RetryAct α) :=
  if i = 0 then [] else [.paused (pauseAfter i)]

/-- So many attempts of a script, with the pauses between them. -/
def retryActs (outcomes : Nat → Except Failure α) (pauseAfter : Nat → Nat) (attempts : Nat) :
    List (RetryAct α) :=
  (List.range attempts).flatMap fun i => leadIn pauseAfter i ++ [.attempted (outcomes i)]

section Script

variable {outcomes : Nat → Except Failure α} {kind name : String} {made k : Nat}
  {pauses : List Nat}

theorem retryActs_succ (pauseAfter : Nat → Nat) (i : Nat) :
    retryActs outcomes pauseAfter (i + 1) =
      retryActs outcomes pauseAfter i ++ leadIn pauseAfter i ++ [.attempted (outcomes i)] := by
  unfold retryActs
  rw [List.range_succ, List.flatMap_append, List.flatMap_singleton, List.append_assoc]

/-- A run from a script goes on with the outcome that the script has next. -/
theorem run_retryAfter (i : Nat) (acts : List (RetryAct α)) :
    (retryAfter scriptedPause kind name (scriptedAttempt outcomes) made pauses).run ⟨i, acts⟩ =
      (afterAttempt scriptedPause kind name (scriptedAttempt outcomes) made pauses
        (outcomes i)).run ⟨i + 1, acts ++ [.attempted (outcomes i)]⟩ := by
  rw [retryAfter_eq, StateT.run_bind]
  rfl

/-- The attempts from the one of number `i` on. The induction is on the pauses that are left; what
carries it is that all attempts before met other writers. -/
theorem run_retryAfter_from {pauseAfter : Nat → Nat} (hk : ∀ i < k, IsConflict (outcomes i))
    (left i : Nat) (hi : i ≤ k) (hnext : k < i + left + 1 → ¬ IsConflict (outcomes k)) :
    (retryAfter scriptedPause kind name (scriptedAttempt outcomes) (i + 1)
        ((List.range' (i + 1) left).map pauseAfter)).run
        ⟨i, retryActs outcomes pauseAfter i ++ leadIn pauseAfter i⟩ =
      (if k < i + left + 1 then outcomes k else .error (.conflict kind name (i + left + 1)),
        ⟨min (k + 1) (i + left + 1),
          retryActs outcomes pauseAfter (min (k + 1) (i + left + 1))⟩) := by
  rw [run_retryAfter, ← retryActs_succ]
  rcases Nat.eq_or_lt_of_le hi with rfl | hlt
  · have hin : i < i + left + 1 := by omega
    rw [afterAttempt_of_not_conflict (hnext hin), if_pos hin, Nat.min_eq_left (by omega)]
    rfl
  · cases left with
    | zero =>
      rw [List.range'_zero, List.map_nil, afterAttempt_last (hk i hlt), if_neg (by omega),
        Nat.min_eq_right (by omega)]
      rfl
    | succ left =>
      rw [List.range'_succ, List.map_cons, afterAttempt_again (hk i hlt), StateT.run_bind]
      have hleft : i + (left + 1) + 1 = i + 1 + left + 1 := by omega
      rw [hleft] at hnext ⊢
      exact run_retryAfter_from hk left (i + 1) hlt hnext

end Script

/-- **Attempts, pauses and result.** Let a script of outcomes start with `k` conflicts, and go on
with something else if there are attempts left for it. Then one more attempt than that is made, but
never more than the schedule allows, and never none. The pause after each of them but the last is
the Fibonacci number of the attempt, times the base, up to the cap; and the result is the outcome
that was no conflict, or else a conflict that tells the number of attempts. -/
theorem retry_follows_schedule {b : Backoff} (hcap : b.base ≤ b.cap) (kind name : String)
    {outcomes : Nat → Except Failure α} {k : Nat} (hk : ∀ i < k, IsConflict (outcomes i))
    (hnext : k < max 1 b.attempts → ¬ IsConflict (outcomes k)) :
    (retryOnConflict b scriptedPause kind name (scriptedAttempt outcomes)).run {} =
      (if k < max 1 b.attempts then outcomes k
        else .error (.conflict kind name (max 1 b.attempts)),
        { attempts := min (k + 1) (max 1 b.attempts)
          acts := retryActs outcomes (fun i => min (fib i * b.base) b.cap)
            (min (k + 1) (max 1 b.attempts)) }) := by
  have hbudget : max 1 b.attempts = 0 + (b.attempts - 1) + 1 := by omega
  unfold retryOnConflict
  rw [Backoff.delays_reset hcap, hbudget]
  exact run_retryAfter_from hk (b.attempts - 1) 0 (Nat.zero_le k) (hbudget ▸ hnext)

/-- A schedule that has almost run out. -/
def usedBackoff : Backoff := { Backoff.standard with previous := 20, current := 30, used := 4 }

/-- Two conflicts, the second of them met while something else was being done, and a success. -/
def twoConflicts : Nat → Except Failure String
  | 0 => .error (.cluster (.conflict "DeploymentConfig" "web"))
  | 1 => .error (.during (.switchToDev "web")
      (.during (.patch "web") (.cluster (.conflict "DeploymentConfig" "web"))))
  | _ => .ok "done"

theorem retry_follows_schedule_two :
    (usedBackoff.base ≤ usedBackoff.cap ∧ (∀ i < 2, IsConflict (twoConflicts i)) ∧
      ¬ IsConflict (twoConflicts 2)) ∧
    (retryOnConflict usedBackoff scriptedPause "DeploymentConfig" "web"
        (scriptedAttempt twoConflicts)).run {} =
      (.ok "done", { attempts := 3, acts := [.attempted (twoConflicts 0), .paused 10,
        .attempted (twoConflicts 1), .paused 10, .attempted (.ok "done")] }) := by
  have hcap : usedBackoff.base ≤ usedBackoff.cap := by decide
  have hconflicts : ∀ i < 2, IsConflict (twoConflicts i) := by
    rintro i hi
    match i, hi with
    | 0, _ => exact ⟨_, rfl, rfl⟩
    | 1, _ => exact ⟨_, rfl, rfl⟩
  have hdone : ¬ IsConflict (twoConflicts 2) := by
    rintro ⟨f, hf, -⟩
    cases hf
  exact ⟨⟨hcap, hconflicts, hdone⟩,
    retry_follows_schedule hcap "DeploymentConfig" "web" hconflicts fun _ => hdone⟩

end InnerLoop
