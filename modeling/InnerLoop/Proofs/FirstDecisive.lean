import InnerLoop.Watch.Wait
import Mathlib.Data.List.Range

/-!
# The first decisive item

A wait goes through the items of a stream one by one, with a clock and with a predicate that may
remember what it was shown. Here the places of the stream are looked at all at once instead: what
comes at a place, when it is due and what the predicate would say to it.

- `dueAt`, `endingAt?`, `questionAt?`: a place of the stream, by its number; the end of the stream is
  the place after the last item.
- `IsFirstDecisive`: the first place at which something ends a wait; `DecidesInTime`, before its time
  is up.
- `questionsInTime`: what the predicate is asked, in the order of the stream.
- `FirstDecisiveWins`: what a wait comes to, said by places; kept from one item to the next
  (`firstDecisiveWins_cons`), and so true of every wait (`awaitFrom_firstDecisiveWins`).
- `awaitCondition_first_decisive`: **a wait ends with the first decisive item, if that is due before
  its time is up, and else when its time is up**.
-/

namespace InnerLoop

variable {κ σ : Type}

/-! ## Endings and failures -/

namespace Ending

variable {what : String} {after : Duration} {e : Ending κ}

/-- A wait fails for want of time if it timed out, and in no other way. -/
theorem exists_timeout_iff :
    (∃ f, e.result what after = .error f ∧ f.kind = .timeout) ↔ e = .timedOut := by
  constructor
  · rintro ⟨f, hf, hkind⟩
    cases e with
    | timedOut => rfl
    | satisfied o => cases hf
    | failed reason => cases hf; cases hkind
    | terminated reason => cases hf; cases hkind
  · rintro rfl
    exact ⟨_, rfl, rfl⟩

/-- A wait fails for want of a stream if that ended, and in no other way. -/
theorem exists_watchTerminated_iff :
    (∃ f, e.result what after = .error f ∧ f.kind = .watchTerminated) ↔
      ∃ reason, e = .terminated reason := by
  constructor
  · rintro ⟨f, hf, hkind⟩
    cases e with
    | terminated reason => exact ⟨reason, rfl⟩
    | satisfied o => cases hf
    | failed reason => cases hf; cases hkind
    | timedOut => cases hf; cases hkind
  · rintro ⟨reason, rfl⟩
    exact ⟨_, rfl, rfl⟩

end Ending

/-! ## The places of a stream -/

/-- When the item at a place is due. What comes after the last item is due together with it. -/
def dueAt (items : List (TimedItem κ)) (i : Nat) : Nat :=
  ((items.take (i + 1)).map TimedItem.after).foldr (· + ·) 0

section

variable (check : σ → Change → κ → Verdict × σ) (atEnd : StreamEnd)

/-- The state of a predicate after one more item: only objects are shown to it. -/
def stateAfter (s : σ) (t : TimedItem κ) : σ :=
  match t.item with
  | .event (.object change o) => (check s change o).2
  | _ => s

/-- The state of a predicate that was shown all objects before a place. -/
def stateAt (s : σ) (items : List (TimedItem κ)) (i : Nat) : σ :=
  (items.take i).foldl (stateAfter check) s

/-- What a predicate is asked about the item at a place, and what it says. -/
def questionAt? (s : σ) (items : List (TimedItem κ)) (i : Nat) : Option (Change × κ × Verdict) :=
  match items[i]? with
  | some ⟨_, .event (.object change o)⟩ =>
    some (change, o, (check (stateAt check s items i) change o).1)
  | _ => none

/-- How what comes at a place ends a wait, if it is decisive: an error event, a break of the stream,
its end, or an object on which the predicate decides. -/
def endingAt? (s : σ) (items : List (TimedItem κ)) (i : Nat) : Option (Ending κ) :=
  match items[i]? with
  | some ⟨_, .broken fault⟩ => some (.terminated fault.message)
  | some ⟨_, .event (.error reason)⟩ => some (.terminated reason)
  | some ⟨_, .event (.object change o)⟩ => (check (stateAt check s items i) change o).1.ending? o
  | none => if i = items.length ∧ atEnd = .closed then some (.terminated streamClosed) else none

/-- What comes at a place ends a wait, and nothing before it does. -/
structure IsFirstDecisive (s : σ) (items : List (TimedItem κ)) (i : Nat) (e : Ending κ) : Prop where
  decides : endingAt? check atEnd s items i = some e
  first : ∀ j < i, endingAt? check atEnd s items j = none

/-- What comes at a place ends a wait that may take some milliseconds. -/
def DecidesInTime (timeout : Nat) (s : σ) (items : List (TimedItem κ)) (i : Nat) (e : Ending κ) :
    Prop :=
  IsFirstDecisive check atEnd s items i e ∧ dueAt items i < timeout

/-- The questions about the objects that are due in time and not after the first decisive item, in
the order of the stream. -/
def questionsInTime (timeout now : Nat) (s : σ) (items : List (TimedItem κ)) :
    List (Change × κ × Verdict) :=
  (List.range items.length).filterMap fun i =>
    if now + dueAt items i < timeout ∧ ∀ j < i, endingAt? check atEnd s items j = none then
      questionAt? check s items i
    else none

/-- What a wait that starts at the time `now` comes to. -/
structure FirstDecisiveWins (timeout now : Nat) (s : σ) (items : List (TimedItem κ))
    (run : WaitRun κ) : Prop where
  asked : run.asked = questionsInTime check atEnd timeout now s items
  decided : ∀ i e, IsFirstDecisive check atEnd s items i e → now + dueAt items i < timeout →
    run.ending = e ∧ run.elapsed = now + dueAt items i
  timedOut : (∀ i e, IsFirstDecisive check atEnd s items i e → timeout ≤ now + dueAt items i) →
    run.ending = .timedOut ∧ run.elapsed = timeout

end

section

variable {timeout now : Nat} {check : σ → Change → κ → Verdict × σ} {atEnd : StreamEnd} {s : σ}
  {t : TimedItem κ} {r : List (TimedItem κ)}

/-! ## One item further on -/

@[simp] theorem dueAt_zero : dueAt (t :: r) 0 = t.after := rfl

@[simp] theorem dueAt_succ (i : Nat) : dueAt (t :: r) (i + 1) = t.after + dueAt r i :=
  rfl

@[simp] theorem questionAt?_succ (i : Nat) :
    questionAt? check s (t :: r) (i + 1) = questionAt? check (stateAfter check s t) r i := rfl

@[simp] theorem endingAt?_succ (i : Nat) :
    endingAt? check atEnd s (t :: r) (i + 1) = endingAt? check atEnd (stateAfter check s t) r i := by
  simp only [endingAt?, List.getElem?_cons_succ, List.length_cons, Nat.add_right_cancel_iff]
  rfl

theorem endingAt?_nil (i : Nat) : endingAt? check atEnd s [] i =
    if i = 0 ∧ atEnd = .closed then some (.terminated streamClosed) else none := by
  simp [endingAt?]

theorem dueAt_zero_le (items : List (TimedItem κ)) (i : Nat) : dueAt items 0 ≤ dueAt items i := by
  cases items with
  | nil => exact Nat.le_refl _
  | cons t r =>
    cases i with
    | zero => exact Nat.le_refl _
    | succ i =>
      rw [dueAt_zero, dueAt_succ]
      exact Nat.le_add_right _ _

/-- Nothing else can be the first decisive item if the first item is decisive. -/
theorem IsFirstDecisive.eq_zero {items : List (TimedItem κ)} {i : Nat} {e e₀ : Ending κ}
    (h : IsFirstDecisive check atEnd s items i e) (h₀ : endingAt? check atEnd s items 0 = some e₀) :
    i = 0 ∧ e = e₀ := by
  cases i with
  | zero => exact ⟨rfl, Option.some.inj (h.decides.symm.trans h₀)⟩
  | succ i =>
    rw [h.first 0 (Nat.succ_pos i)] at h₀
    cases h₀

/-- Behind an item that is not decisive, the first decisive item is that of the rest. -/
theorem isFirstDecisive_succ_iff {i : Nat} {e : Ending κ}
    (h₀ : endingAt? check atEnd s (t :: r) 0 = none) :
    IsFirstDecisive check atEnd s (t :: r) (i + 1) e ↔
      IsFirstDecisive check atEnd (stateAfter check s t) r i e := by
  constructor
  · intro h
    refine ⟨endingAt?_succ (t := t) i ▸ h.decides, fun j hj => ?_⟩
    rw [← endingAt?_succ]
    exact h.first (j + 1) (Nat.succ_lt_succ hj)
  · intro h
    refine ⟨(endingAt?_succ i).trans h.decides, fun j hj => ?_⟩
    cases j with
    | zero => exact h₀
    | succ j =>
      rw [endingAt?_succ]
      exact h.first j (Nat.lt_of_succ_lt_succ hj)

/-! ## Questions -/

theorem questionsInTime_late {items : List (TimedItem κ)} (h : timeout ≤ now + dueAt items 0) :
    questionsInTime check atEnd timeout now s items = [] := by
  refine List.filterMap_eq_nil_iff.mpr fun i _ => if_neg fun hi => ?_
  have := dueAt_zero_le items i
  omega

/-- The first question is about the first item. There are others only if that is not decisive. -/
theorem questionsInTime_cons (h : now + t.after < timeout) :
    questionsInTime check atEnd timeout now s (t :: r) =
      (questionAt? check s (t :: r) 0).toList ++
        if endingAt? check atEnd s (t :: r) 0 = none then
          questionsInTime check atEnd timeout (now + t.after) (stateAfter check s t) r
        else [] := by
  have hfirst : now + dueAt (t :: r) 0 < timeout ∧
      ∀ j < 0, endingAt? check atEnd s (t :: r) j = none :=
    ⟨by rwa [dueAt_zero], fun j hj => absurd hj (Nat.not_lt_zero j)⟩
  have hlater (i : Nat) : (now + dueAt (t :: r) (i + 1) < timeout ∧
        ∀ j < i + 1, endingAt? check atEnd s (t :: r) j = none) ↔
      endingAt? check atEnd s (t :: r) 0 = none ∧ now + t.after + dueAt r i < timeout ∧
        ∀ j < i, endingAt? check atEnd (stateAfter check s t) r j = none := by
    rw [dueAt_succ, ← Nat.add_assoc, Nat.forall_lt_succ_left]
    simp only [endingAt?_succ]
    exact and_left_comm
  have htail : ((List.range r.length).map Nat.succ).filterMap (fun i =>
        if now + dueAt (t :: r) i < timeout ∧
            ∀ j < i, endingAt? check atEnd s (t :: r) j = none then
          questionAt? check s (t :: r) i
        else none) =
      if endingAt? check atEnd s (t :: r) 0 = none then
        questionsInTime check atEnd timeout (now + t.after) (stateAfter check s t) r
      else [] := by
    rw [List.filterMap_map]
    by_cases h₀ : endingAt? check atEnd s (t :: r) 0 = none
    · rw [if_pos h₀]
      refine List.filterMap_congr fun i _ => if_congr ?_ (questionAt?_succ i) rfl
      exact (hlater i).trans (and_iff_right h₀)
    · rw [if_neg h₀]
      exact List.filterMap_eq_nil_iff.mpr fun i _ => if_neg fun hi => h₀ ((hlater i).mp hi).1
  rw [← htail]
  unfold questionsInTime
  rw [List.length_cons, List.range_succ_eq_map, List.filterMap_cons, if_pos hfirst]
  cases questionAt? check s (t :: r) 0 <;> rfl

/-! ## One step of a wait -/

/-- Time is up before anything comes. -/
theorem firstDecisiveWins_late {items : List (TimedItem κ)} (h : timeout ≤ now + dueAt items 0) :
    FirstDecisiveWins check atEnd timeout now s items ⟨.timedOut, [], timeout⟩ where
  asked := (questionsInTime_late h).symm
  decided i e _ hi := by
    have := dueAt_zero_le items i
    omega
  timedOut _ := ⟨rfl, rfl⟩

/-- What comes first is decisive. -/
theorem firstDecisiveWins_decisive {items : List (TimedItem κ)} {e : Ending κ}
    (hdue : now + dueAt items 0 < timeout) (h₀ : endingAt? check atEnd s items 0 = some e) :
    FirstDecisiveWins check atEnd timeout now s items
      ⟨e, (questionAt? check s items 0).toList, now + dueAt items 0⟩ where
  asked := by
    cases items with
    | nil => rfl
    | cons t r =>
      rw [dueAt_zero] at hdue
      rw [questionsInTime_cons hdue, h₀, if_neg (Option.some_ne_none e), List.append_nil]
  decided i e' hi _ := by
    obtain ⟨rfl, rfl⟩ := hi.eq_zero h₀
    exact ⟨rfl, rfl⟩
  timedOut hlate := by
    have hfirst : IsFirstDecisive check atEnd s items 0 e :=
      ⟨h₀, fun j hj => absurd hj (Nat.not_lt_zero j)⟩
    have := hlate 0 e hfirst
    omega

/-- Nothing comes any more. -/
theorem firstDecisiveWins_silent :
    FirstDecisiveWins check .silent timeout now s ([] : List (TimedItem κ))
      ⟨.timedOut, [], timeout⟩ where
  asked := rfl
  decided i e hi _ := by
    have hdecides := hi.decides
    rw [endingAt?_nil, if_neg fun h => nomatch h.2] at hdecides
    cases hdecides
  timedOut _ := ⟨rfl, rfl⟩

/-- What comes first is not decisive, and the rest goes on from when it is due. -/
theorem firstDecisiveWins_cons {run : WaitRun κ} (hdue : now + t.after < timeout)
    (h₀ : endingAt? check atEnd s (t :: r) 0 = none)
    (h : FirstDecisiveWins check atEnd timeout (now + t.after) (stateAfter check s t) r run) :
    FirstDecisiveWins check atEnd timeout now s (t :: r)
      ⟨run.ending, (questionAt? check s (t :: r) 0).toList ++ run.asked, run.elapsed⟩ where
  asked := by
    rw [questionsInTime_cons hdue, if_pos h₀, h.asked]
  decided i e hi hin := by
    cases i with
    | zero =>
      rw [hi.decides] at h₀
      cases h₀
    | succ i =>
      rw [dueAt_succ, ← Nat.add_assoc] at hin ⊢
      exact h.decided i e ((isFirstDecisive_succ_iff h₀).mp hi) hin
  timedOut hlate := by
    refine h.timedOut fun i e hi => ?_
    have := hlate (i + 1) e ((isFirstDecisive_succ_iff h₀).mpr hi)
    rwa [dueAt_succ, ← Nat.add_assoc] at this

/-! ## Waits -/

/-- The first decisive item wins, from any time and any state on. -/
theorem awaitFrom_firstDecisiveWins (timeout now : Nat) (check : σ → Change → κ → Verdict × σ)
    (atEnd : StreamEnd) (s : σ) (items : List (TimedItem κ)) :
    FirstDecisiveWins check atEnd timeout now s items
      (awaitFrom timeout check atEnd now s items) := by
  induction items generalizing now s with
  | nil =>
    unfold awaitFrom
    by_cases hlate : timeout ≤ now
    · rw [if_neg fun h => absurd h.2 (Nat.not_lt.mpr hlate)]
      exact firstDecisiveWins_late hlate
    · cases atEnd with
      | closed =>
        rw [if_pos ⟨rfl, Nat.not_le.mp hlate⟩]
        exact firstDecisiveWins_decisive (Nat.not_le.mp hlate) rfl
      | silent =>
        rw [if_neg fun h => nomatch h.1]
        exact firstDecisiveWins_silent
  | cons t r ih =>
    unfold awaitFrom
    dsimp only
    by_cases hlate : timeout ≤ now + t.after
    · rw [if_pos hlate]
      exact firstDecisiveWins_late (by rwa [dueAt_zero])
    rw [if_neg hlate]
    replace hlate := Nat.not_le.mp hlate
    have hdue : now + dueAt (t :: r) 0 < timeout := by rwa [dueAt_zero]
    obtain ⟨after, item⟩ := t
    cases item with
    | broken fault => exact firstDecisiveWins_decisive hdue rfl
    | event event =>
      cases event with
      | error reason => exact firstDecisiveWins_decisive hdue rfl
      | object change o =>
        -- The predicate is asked, and its verdict tells whether the wait goes on.
        cases hverdict : (check s change o).1.ending? o with
        | some e =>
          simp only [hverdict]
          exact firstDecisiveWins_decisive hdue hverdict
        | none =>
          simp only [hverdict]
          exact firstDecisiveWins_cons hlate hverdict (ih (now + after) (check s change o).2)

/-- No item ends a wait for want of time. -/
theorem endingAt?_ne_timedOut (s : σ) (items : List (TimedItem κ)) (i : Nat) :
    endingAt? check atEnd s items i ≠ some .timedOut := by
  unfold endingAt?
  split
  · exact fun h => nomatch h
  · exact fun h => nomatch h
  · rename_i change o _
    cases (check (stateAt check s items i) change o).1 <;> exact fun h => nomatch h
  · split <;> exact fun h => nomatch h

end

/-- **The first decisive item wins**, whatever comes at whatever times, however the stream ends and
whatever the predicate remembers. The predicate is asked about the objects that are due before the
time is up and not after the first decisive item, in their order. If the first decisive item is due
before the time is up, the wait ends when it is due and as it says; otherwise the wait times out, and
takes exactly the time that it was given. So it times out only for want of a decisive item in time,
and is terminated only by one that ends the stream. -/
theorem awaitCondition_first_decisive (timeout : Nat) (check : σ → Change → κ → Verdict × σ)
    (atEnd : StreamEnd) (s : σ) (items : List (TimedItem κ)) (what : String) :
    let run := awaitCondition timeout check atEnd s items
    let result := run.ending.result what (.ofMillis timeout)
    run.asked = questionsInTime check atEnd timeout 0 s items ∧
    (∀ i e, DecidesInTime check atEnd timeout s items i e →
      result = e.result what (.ofMillis timeout) ∧ run.elapsed = dueAt items i) ∧
    ((¬ ∃ i e, DecidesInTime check atEnd timeout s items i e) →
      result = .error (.timeout what (.ofMillis timeout)) ∧ run.elapsed = timeout) ∧
    ((∃ f, result = .error f ∧ f.kind = .timeout) ↔
      ¬ ∃ i e, DecidesInTime check atEnd timeout s items i e) ∧
    ((∃ f, result = .error f ∧ f.kind = .watchTerminated) ↔
      ∃ i reason, DecidesInTime check atEnd timeout s items i (.terminated reason)) := by
  intro run result
  have h := awaitFrom_firstDecisiveWins timeout 0 check atEnd s items
  have hdecided (i : Nat) (e : Ending κ) (hi : DecidesInTime check atEnd timeout s items i e) :
      run.ending = e ∧ run.elapsed = dueAt items i := by
    obtain ⟨he, helapsed⟩ := h.decided i e hi.1 (by rw [Nat.zero_add]; exact hi.2)
    exact ⟨he, helapsed.trans (Nat.zero_add _)⟩
  have htimedOut (hnone : ¬ ∃ i e, DecidesInTime check atEnd timeout s items i e) :
      run.ending = .timedOut ∧ run.elapsed = timeout := by
    refine h.timedOut fun i e hi => ?_
    rw [Nat.zero_add]
    exact Nat.not_lt.mp fun hdue => hnone ⟨i, e, hi, hdue⟩
  refine ⟨h.asked, fun i e hi => ?_, fun hnone => ?_, ?_, ?_⟩
  · obtain ⟨he, helapsed⟩ := hdecided i e hi
    exact ⟨congrArg (Ending.result what _) he, helapsed⟩
  · obtain ⟨he, helapsed⟩ := htimedOut hnone
    exact ⟨congrArg (Ending.result what _) he, helapsed⟩
  · rw [Ending.exists_timeout_iff]
    constructor
    · rintro he ⟨i, e, hi⟩
      exact endingAt?_ne_timedOut s items i (((hdecided i e hi).1.symm.trans he) ▸ hi.1.decides)
    · exact fun hnone => (htimedOut hnone).1
  · rw [Ending.exists_watchTerminated_iff]
    constructor
    · rintro ⟨reason, he⟩
      by_cases hsome : ∃ i e, DecidesInTime check atEnd timeout s items i e
      · obtain ⟨i, e, hi⟩ := hsome
        exact ⟨i, reason, ((hdecided i e hi).1.symm.trans he) ▸ hi⟩
      · rw [(htimedOut hsome).1] at he
        cases he
    · rintro ⟨i, reason, hi⟩
      exact ⟨reason, (hdecided i _ hi).1⟩

/-- An item that is due when the time is up comes too late. -/
example : (awaitCondition 5 (fun (_ : Unit) _ (_ : Nat) => (.satisfied, ())) .closed ()
    [⟨5, .event (.object .added 1)⟩]).ending = .timedOut := rfl

end InnerLoop
