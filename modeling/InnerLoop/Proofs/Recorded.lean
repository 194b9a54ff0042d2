import InnerLoop.Program.Schedule
import InnerLoop.Proofs.Course
import InnerLoop.Proofs.InOrder

/-!
# Recorded commands

A cluster keeps the commands that have come to their end. A program adds to them what it ends, and
nothing that it asks besides does.

- `World.execCalls_of_answer`: what the answer to a question adds.
- `Unrecorded`: others record nothing in some turns.
- `Course.execCalls`: what a course adds then.
-/

namespace InnerLoop

/-! ## One question -/

namespace Cluster

variable (c : Cluster)

@[simp] theorem execCalls_withStore (k : Kind) (s : Store k.Object) :
    (c.withStore k s).execCalls = c.execCalls := by
  cases k with
  | workload => rfl
  | pod => rfl
  | secret => rfl
  | build => rfl
  | claim => rfl

theorem execCalls_updateWorkload (d : DeploymentConfig) :
    (c.updateWorkload d).2.execCalls = c.execCalls := by
  unfold updateWorkload
  dsimp only
  split
  · rfl
  · split
    · rfl
    · rfl

theorem execCalls_instantiateBuild (config : String) :
    (c.instantiateBuild config).2.execCalls = c.execCalls := by
  unfold instantiateBuild
  split
  · rfl
  · dsimp only
    split
    · rfl
    · rfl

theorem execCalls_createClaim (name size : String) (labels : TextMap) :
    (c.createClaim name size labels).2.execCalls = c.execCalls := by
  unfold createClaim
  split
  · rfl
  · dsimp only
    split
    · rfl
    · rfl

theorem execCalls_deleteClaim (name : String) :
    (c.deleteClaim name).2.execCalls = c.execCalls := by
  unfold deleteClaim
  split
  · rfl
  · split
    · rfl
    · rfl

theorem execCalls_beginExec (pod : String) : (c.beginExec pod).2.execCalls = c.execCalls := by
  unfold beginExec
  split
  · rfl
  · rfl

end Cluster

namespace World

variable {w w₁ : World}

/-- The same commands are on record. -/
def SameRecord (w w₁ : World) : Prop := w₁.cluster.execCalls = w.cluster.execCalls

theorem SameRecord.refl (w : World) : w.SameRecord w := rfl

theorem SameRecord.trans {w₂ : World} (h : w.SameRecord w₁) (h' : w₁.SameRecord w₂) :
    w.SameRecord w₂ := Eq.trans h' h

theorem sameRecord_dropWatch (w : World) (k : Kind) (handle : Nat) :
    w.SameRecord (w.dropWatch k handle) := w.cluster.execCalls_withStore k _

theorem sameRecord_dropJob (w : World) (job : Nat) : w.SameRecord (w.dropJob job) := by
  unfold dropJob SameRecord
  split
  · exact w.sameRecord_dropWatch .pod _
  · rfl

/-- The answer to a question puts on record the command that it ends, if it ends one. -/
theorem execCalls_of_answer {r : Request} {reply : r.Reply} (h : w.answer r = some (reply, w₁)) :
    w₁.cluster.execCalls = w.cluster.execCalls ++ ended [⟨r, reply⟩] := by
  have hsame : w.SameRecord w₁ → w₁.cluster.execCalls = w.cluster.execCalls ++ [] :=
    fun h => Eq.trans h (List.append_nil _).symm
  cases r with
  | endExec call =>
    cases h
    rfl
  | now => cases h; exact hsame rfl
  | sleepUntil time =>
    replace h : (if time ≤ w.clock then some ((), w) else none) = some (reply, w₁) := h
    split at h
    · cases h
      exact hsame rfl
    · cases h
  | pause => cases h
  | mint => cases h; exact hsame rfl
  | getWorkload name => cases h; exact hsame rfl
  | updateWorkload d => cases h; exact hsame (Cluster.execCalls_updateWorkload _ d)
  | instantiateBuild config => cases h; exact hsame (Cluster.execCalls_instantiateBuild _ config)
  | getClaim name => cases h; exact hsame rfl
  | createClaim name size labels =>
    cases h
    exact hsame (Cluster.execCalls_createClaim _ name size labels)
  | deleteClaim name => cases h; exact hsame (Cluster.execCalls_deleteClaim _ name)
  | imageMetadata ns tag => cases h; exact hsame rfl
  | watch k s => cases h; exact hsame (Cluster.execCalls_withStore _ k _)
  | dropWatch k handle => cases h; exact hsame (w.sameRecord_dropWatch k handle)
  | await k handle deadline check =>
    replace h : (if deadline ≤ w.clock then some (.timedOut, w.dropWatch k handle)
      else (w.ending? k handle check).map fun e => (e, w.dropWatch k handle))
        = some (reply, w₁) := h
    split at h
    · cases h
      exact hsame (w.sameRecord_dropWatch k handle)
    · obtain ⟨e, -, he⟩ := Option.map_eq_some_iff.mp h
      cases he
      exact hsame (w.sameRecord_dropWatch k handle)
  | startPodWait handle => cases h; exact hsame rfl
  | joinPodWait job deadline =>
    unfold answer at h
    dsimp only at h
    split at h
    · cases h
      exact hsame (w.sameRecord_dropJob job)
    · split at h
      · cases h
        exact hsame (w.sameRecord_dropJob job)
      · cases h
  | beginExec pod =>
    cases h
    exact hsame (Cluster.execCalls_beginExec _ pod)
  | scan root => cases h; exact hsame rfl
  | buildManifest root changed => cases h; exact hsame rfl
  | readFiles m => cases h; exact hsame rfl
  | transfer trouble writing => cases h; exact hsame rfl

end World

/-! ## All of a course -/

/-- Others put nothing on record in these turns. -/
def Unrecorded (t : List (Event Unit)) : Prop :=
  ∀ w₁ w₂, Event.other w₁ w₂ ∈ t → w₁.SameRecord w₂

theorem Unrecorded.tail {e : Event Unit} {t : List (Event Unit)} (h : Unrecorded (e :: t)) :
    Unrecorded t := fun w₁ w₂ hmem => h w₁ w₂ (List.mem_cons_of_mem _ hmem)

theorem Unrecorded.append {t₁ t₂ : List (Event Unit)} (h₁ : Unrecorded t₁) (h₂ : Unrecorded t₂) :
    Unrecorded (t₁ ++ t₂) := by
  intro w₁ w₂ hmem
  rcases List.mem_append.mp hmem with hmem | hmem
  · exact h₁ w₁ w₂ hmem
  · exact h₂ w₁ w₂ hmem

theorem Unrecorded.other {w w₁ : World} (h : w.SameRecord w₁) : Unrecorded [.other w w₁] := by
  intro w₂ w₃ hmem
  cases List.mem_singleton.mp hmem
  exact h

/-- What a course puts on record is what its program ended, if others record nothing. -/
theorem Course.execCalls {α : Type} {p q : Program α} {w w' : World} {t : List (Event Unit)}
    (h : Course p w t q w') (hothers : Unrecorded t) :
    w'.cluster.execCalls = w.cluster.execCalls ++ ended (exchanges t) := by
  induction h with
  | start => exact (List.append_nil _).symm
  | @asked r next w w₁ w' reply t q h _ ih =>
    have hall : ended (exchanges (.asked () r w reply w₁ :: t))
        = ended [⟨r, reply⟩] ++ ended (exchanges t) := ended_append [⟨r, reply⟩] (exchanges t)
    rw [ih hothers.tail, World.execCalls_of_answer h, hall, List.append_assoc]
  | paused _ ih => exact ih hothers.tail
  | raced _ _ ih => exact ih hothers.tail
  | @other p w w₁ w' t q _ ih =>
    have hsame : w.SameRecord w₁ := hothers w w₁ List.mem_cons_self
    exact (ih hothers.tail).trans (congrArg (· ++ ended (exchanges t)) hsame)

end InnerLoop
