import InnerLoop.Proofs.Undisturbed
import InnerLoop.Proofs.Paced
import InnerLoop.Proofs.Retries

/-!
# Edits by the only writer

Where others write no workload, an edit that is tried again meets no more conflicts than were
arranged beforehand. With an attempt more than these it settles: what it finds decides whether it
fails, and if it does not, what is stored is what it makes of that.

- `Unwritten`: what others may do in one turn.
- `Settled`: what an edit comes to.
- `Run.editOnce_cases`: one attempt settles, or uses up a conflict.
- `Run.retryAfter_settled`: all of them settle, if there are more attempts than conflicts.
- `Run.changeWorkload_settled`: **a change in place settles**.
-/

namespace InnerLoop

open Operation

/-- Others write no workload and arrange for no conflicts. -/
structure Unwritten (w w' : World) : Prop where
  objects : w'.cluster.workloads.objects = w.cluster.workloads.objects
  conflicts : w'.cluster.pendingConflicts ≤ w.cluster.pendingConflicts

namespace Unwritten

variable {w w₁ w' : World}

theorem refl (w : World) : Unwritten w w := ⟨rfl, Nat.le_refl _⟩

theorem trans (h₁ : Unwritten w w₁) (h₂ : Unwritten w₁ w') : Unwritten w w' :=
  ⟨h₂.objects.trans h₁.objects, Nat.le_trans h₂.conflicts h₁.conflicts⟩

theorem stored_eq (h : Unwritten w w') (name : String) : w'.stored name = w.stored name :=
  World.stored_of_objects h.objects

end Unwritten

variable {β γ : Type} {w w₁ w' : World} {name : String} {t : List (Event Unit)}

/-- While nothing is asked no workload is written. -/
theorem Turns.unwritten (h : Turns w t w') (hidle : Idle t) (hothers : OthersDo Unwritten t) :
    Unwritten w w' := by
  induction h with
  | nil => exact .refl _
  | @cons e t w' _ _ ih =>
    have hlater := ih (fun e he => hidle e (List.mem_cons_of_mem _ he)) hothers.tail
    cases e with
    | asked => exact (hidle _ List.mem_cons_self).elim
    | other before after => exact (hothers _ _ List.mem_cons_self).trans hlater

/-- A pause writes nothing. -/
theorem Run.unwritten {α : Type} {p : Program α} {res : Option α} (h : Run p w t res w')
    (hasks : p.Asks fun r => r = .now ∨ ∃ time, r = .sleepUntil time)
    (hothers : OthersDo Unwritten t) : Unwritten w w' := by
  induction h with
  | stop => exact .refl _
  | done => exact .refl _
  | @asked r next w w₁ w' reply t res hanswer _ ih =>
    refine .trans ?_ (ih (hasks.2 reply) hothers.tail)
    rcases hasks.1 with rfl | ⟨time, rfl⟩
    · cases hanswer
      exact .refl _
    · replace hanswer : (if time ≤ w.clock then some ((), w) else none) = some (reply, w₁) :=
        hanswer
      split at hanswer
      · cases hanswer
        exact .refl _
      · cases hanswer
  | other _ _ ih => exact (hothers _ _ List.mem_cons_self).trans (ih hasks hothers.tail)

/-! ## What an edit comes to -/

/-- An edit has settled: there was no workload, or it fails for the one that was there, and nothing
was written; or what it makes of that one is stored in its place, with a version of its own. -/
inductive Settled (name : String) (f : Edit β) (answer : DeploymentConfig → β → γ) (w w' : World) :
    Except Failure γ → Prop
  | missing (hstored : w.stored name = none)
      (hsame : w'.cluster.workloads.objects = w.cluster.workloads.objects) :
      Settled name f answer w w' (.error (.ofCluster (.notFound "DeploymentConfig" name)))
  | refused {d : DeploymentConfig} {e : Failure} (hstored : w.stored name = some d)
      (hedit : f d = .error e)
      (hsame : w'.cluster.workloads.objects = w.cluster.workloads.objects) :
      Settled name f answer w w' (.error e)
  | written {d d' : DeploymentConfig} {b : β} {version : String} (hstored : w.stored name = some d)
      (hedit : f d = .ok (d', b))
      (hobjects : w'.cluster.workloads.objects =
        w.cluster.workloads.objects.insert name (Resource.withVersion version d')) :
      Settled name f answer w w' (.ok (answer (Resource.withVersion version d') b))

/-- An attempt met another writer, one of those that were arranged. -/
structure MetWriter (w w' : World) (r : Except Failure γ) : Prop where
  conflict : IsConflict r
  objects : w'.cluster.workloads.objects = w.cluster.workloads.objects
  conflicts : w'.cluster.pendingConflicts < w.cluster.pendingConflicts

section

variable {f : Edit β} {answer : DeploymentConfig → β → γ} {r : Except Failure γ}

/-- What happens around an edit does not matter to it if nothing is written. -/
theorem Settled.around {w₂ : World}
    (h₁ : w₁.cluster.workloads.objects = w.cluster.workloads.objects)
    (h : Settled name f answer w₁ w₂ r)
    (h₂ : w'.cluster.workloads.objects = w₂.cluster.workloads.objects) :
    Settled name f answer w w' r := by
  have hstored : w₁.stored name = w.stored name := World.stored_of_objects h₁
  cases h with
  | missing hnone hsame => exact .missing (hstored ▸ hnone) (h₂.trans (hsame.trans h₁))
  | refused hsome hedit hsame => exact .refused (hstored ▸ hsome) hedit (h₂.trans (hsame.trans h₁))
  | written hsome hedit hobjects =>
    exact .written (hstored ▸ hsome) hedit (h₂.trans (hobjects.trans (by rw [h₁])))

end

/-! ## One attempt -/

/-- A read finds what is stored. -/
theorem Run.readWorkload_stored {r : Except Failure DeploymentConfig}
    (hothers : OthersDo Unwritten t) (h : Run (readWorkload name).run w t (some r) w') :
    Unwritten w w' ∧ ((∃ d, w.stored name = some d ∧ r = .ok d) ∨
      (w.stored name = none ∧ r = .error (.ofCluster (.notFound "DeploymentConfig" name)))) := by
  rcases h.readWorkload_cases with ⟨hnone, -⟩ | ⟨t₁, t₂, w₁, rfl, h₁, h₂, hbefore, hafter, hres⟩
  · cases hnone
  · have hfirst := hbefore.unwritten h₁ hothers.left
    refine ⟨hfirst.trans (hafter.unwritten h₂ hothers.right.tail), ?_⟩
    rw [hres r rfl]
    cases hstored : w.stored name with
    | some d =>
      rw [Store.get_eq_ok_iff.mpr ((hfirst.stored_eq name).trans hstored)]
      exact .inl ⟨d, rfl, rfl⟩
    | none =>
      have habsent : w₁.cluster.workloads.contains name = false :=
        Option.isSome_eq_false_iff.mpr
          (Option.isNone_iff_eq_none.mpr ((hfirst.stored_eq name).trans hstored))
      rw [Store.get_eq_error_iff.mpr ⟨rfl, habsent⟩]
      exact .inr ⟨rfl, rfl⟩

/-- An update of what is stored is carried out, unless a conflict was arranged. -/
theorem Cluster.updateWorkload_cases {c : Cluster} {current next : DeploymentConfig}
    (hstored : c.workloads.objects.find? name = some current)
    (hname : Resource.nameOf next = name)
    (hversion : Resource.versionOf next = Resource.versionOf current) :
    (∃ version, (c.updateWorkload next).1 = .ok (Resource.withVersion version next) ∧
      (c.updateWorkload next).2.workloads.objects =
        c.workloads.objects.insert name (Resource.withVersion version next)) ∨
    ((c.updateWorkload next).1 = .error (.conflict "DeploymentConfig" next.name) ∧
      (c.updateWorkload next).2.workloads.objects = c.workloads.objects ∧
      (c.updateWorkload next).2.pendingConflicts < c.pendingConflicts) := by
  unfold updateWorkload
  cases hpending : c.pendingConflicts with
  | succ n => exact .inr ⟨rfl, rfl, Nat.lt_succ_self n⟩
  | zero =>
    have hreplace : c.workloads.replace next = .ok (c.workloads.upsert next) := by
      refine bind_eq_ok_iff.mpr ⟨current, Store.get_eq_ok_iff.mpr (hname ▸ hstored), ?_⟩
      cases hsent : Resource.versionOf next with
      | none => rfl
      | some version => exact if_pos (hversion.symm.trans hsent)
    dsimp only
    rw [hreplace]
    refine .inl ⟨toString c.workloads.nextVersion, rfl, ?_⟩
    show c.workloads.objects.insert (Resource.nameOf (Resource.withVersion _ next)) _ = _
    rw [Resource.nameOf_withVersion, hname]

/-- A write of what was made of the stored workload is carried out, or uses up a conflict. -/
theorem Run.writeWorkload_stored {current next : DeploymentConfig}
    {r : Except Failure DeploymentConfig} (hothers : OthersDo Unwritten t)
    (hstored : w.stored name = some current) (hname : Resource.nameOf next = name)
    (hversion : Resource.versionOf next = Resource.versionOf current)
    (h : Run (writeWorkload next).run w t (some r) w') :
    (∃ version, r = .ok (Resource.withVersion version next) ∧
      w'.cluster.workloads.objects =
        w.cluster.workloads.objects.insert name (Resource.withVersion version next)) ∨
    MetWriter w w' r := by
  obtain ⟨res, hrun, hres⟩ := map_cases h
  rcases hrun.question_cases with
    ⟨rfl, -⟩ | ⟨t₁, t₂, w₁, w₂, reply, rfl, h₁, h₂, hbefore, hanswer, hafter, hreply⟩
  · cases hres
  · have hfirst := hbefore.unwritten h₁ hothers.left
    have hlast := hafter.unwritten h₂ hothers.right.tail
    obtain ⟨a, ha, hr⟩ := Option.map_eq_some_iff.mp hres.symm
    obtain rfl := hreply a ha
    have hupdate := World.cluster_of_request hanswer
    rcases Cluster.updateWorkload_cases ((hfirst.stored_eq name).trans hstored) hname hversion with
      ⟨version, hok, hobjects⟩ | ⟨herror, hobjects, hfewer⟩
    · rw [hupdate] at hok hobjects
      obtain rfl : a = _ := hok
      refine .inl ⟨version, hr.symm, ?_⟩
      rw [hlast.objects, hobjects, hfirst.objects]
    · rw [hupdate] at herror hobjects hfewer
      obtain rfl : a = _ := herror
      refine .inr ⟨⟨_, hr.symm, rfl⟩, ?_, ?_⟩
      · rw [hlast.objects, hobjects, hfirst.objects]
      · exact Nat.lt_of_le_of_lt hlast.conflicts (Nat.lt_of_lt_of_le hfewer hfirst.conflicts)

section

variable {f : Edit β} {answer : DeploymentConfig → β → γ} {r : Except Failure γ}

/-- **One attempt** settles, or uses up a conflict. -/
theorem Run.editOnce_cases (hf : f.KeepsIdentity) (hw : w.Sound) (hothers : OthersDo Unwritten t)
    (h : Run (editOnce name f answer).run w t (some r) w') :
    Settled name f answer w w' r ∨ MetWriter w w' r := by
  rcases h.operation_cases with ⟨hnone, -⟩ | ⟨e, he, hread⟩ | ⟨d, t₁, t₂, w₁, rfl, hread, hrest⟩
  · cases hnone
  · cases he
    obtain ⟨hsame, ⟨_, -, hr⟩ | ⟨hmissing, hr⟩⟩ := hread.readWorkload_stored hothers
    · cases hr
    · cases hr
      exact .inl (.missing hmissing hsame.objects)
  · obtain ⟨hsame, ⟨_, hstored, hr⟩ | ⟨-, hr⟩⟩ := hread.readWorkload_stored hothers.left
    · cases hr
      cases hedit : f d with
      | error e =>
        rw [hedit] at hrest
        replace hrest : Run (.done (.error e) : Program (Except Failure γ)) w₁ t₂ (some r) w' :=
          hrest
        obtain ⟨hidle, hr⟩ := hrest.of_done
        cases hr r rfl
        have hlater := hrest.turns.unwritten hidle hothers.right
        exact .inl (.refused hstored hedit (hsame.trans hlater).objects)
      | ok out =>
        obtain ⟨next, b⟩ := out
        rw [hedit] at hrest
        replace hrest : Run (writeWorkload next >>= fun stored => pure (answer stored b)).run
          w₁ t₂ (some r) w' := hrest
        rw [run_bind_pure] at hrest
        obtain ⟨res, hwrite, hres⟩ := hrest.map_cases
        obtain ⟨written, rfl, rfl⟩ := Option.map_eq_some_iff.mp hres.symm
        -- What is sent bears the name and the version of what is still stored.
        obtain ⟨hname, hversion⟩ := hf d next b hedit
        have hfiled := hw.workloads.filed name d hstored
        rcases hwrite.writeWorkload_stored hothers.right ((hsame.stored_eq name).trans hstored)
            (hname.trans hfiled) hversion with ⟨version, rfl, hobjects⟩ | hmet
        · exact .inl (.written hstored hedit (by rw [hobjects, hsame.objects]))
        · obtain ⟨e, rfl, he⟩ := hmet.conflict
          exact .inr ⟨⟨e, rfl, he⟩, hmet.objects.trans hsame.objects,
            Nat.lt_of_lt_of_le hmet.conflicts hsame.conflicts⟩
    · cases hr

/-! ## All attempts -/

/-- What has settled does not call for another attempt. -/
theorem Settled.not_conflict (hplain : ∀ d e, f d = .error e → e.kind ≠ .conflict)
    (h : Settled name f answer w w' r) : ¬ IsConflict r := by
  rintro ⟨e, rfl, he⟩
  cases h with
  | missing => cases he
  | refused _ hedit => exact hplain _ _ hedit he

/-- An attempt that has settled is the last one. -/
theorem Run.afterAttempt_settled {sleep : Nat → Program Unit} {kind what : String}
    {attempt : Program (Except Failure γ)} {made : Nat} {pauses : List Nat} {r₁ : Except Failure γ}
    (hplain : ∀ d e, f d = .error e → e.kind ≠ .conflict)
    (hsettled : Settled name f answer w w₁ r₁) (hothers : OthersDo Unwritten t)
    (h : Run (afterAttempt sleep kind what attempt made pauses r₁) w₁ t (some r) w') :
    Settled name f answer w w' r := by
  rw [afterAttempt_of_not_conflict (hsettled.not_conflict hplain)] at h
  obtain ⟨hidle, hr⟩ := h.of_done
  cases hr r rfl
  exact hsettled.around rfl (h.turns.unwritten hidle hothers).objects

/-- **All attempts together** settle, if there are no more conflicts than pauses. The induction is
on the pauses that are left: an attempt that does not settle uses up a conflict. -/
theorem Run.retryAfter_settled {sleep : Nat → Program Unit} {kind what : String}
    {pauses : List Nat} {made : Nat} (hf : f.KeepsIdentity)
    (hplain : ∀ d e, f d = .error e → e.kind ≠ .conflict)
    (hsleep : ∀ d, (sleep d).Asks fun r => r = .now ∨ ∃ time, r = .sleepUntil time)
    (hw : w.Sound) (hothers : OthersDo Unwritten t)
    (hbudget : w.cluster.pendingConflicts ≤ pauses.length)
    (h : Run (retryAfter sleep kind what (editOnce name f answer).run made pauses) w t (some r)
      w') :
    Settled name f answer w w' r := by
  induction pauses generalizing made w t with
  | nil =>
    rw [retryAfter_eq] at h
    rcases h.bind_cases with ⟨hnone, -⟩ | ⟨r₁, t₁, t₂, w₁, rfl, hattempt, hrest⟩
    · cases hnone
    · rcases hattempt.editOnce_cases hf hw hothers.left with hsettled | hmet
      · exact hrest.afterAttempt_settled hplain hsettled hothers.right
      · exact absurd (Nat.lt_of_lt_of_le hmet.conflicts hbudget) (Nat.not_lt_zero _)
  | cons pause pauses ih =>
    rw [retryAfter_eq] at h
    rcases h.bind_cases with ⟨hnone, -⟩ | ⟨r₁, t₁, t₂, w₁, rfl, hattempt, hrest⟩
    · cases hnone
    · rcases hattempt.editOnce_cases hf hw hothers.left with hsettled | hmet
      · exact hrest.afterAttempt_settled hplain hsettled hothers.right
      · -- One conflict less for the pauses that are left, and nothing is written meanwhile.
        rw [afterAttempt_again hmet.conflict] at hrest
        rcases hrest.bind_cases with ⟨hnone, -⟩ | ⟨_, t₃, t₄, w₂, rfl, hpause, hagain⟩
        · cases hnone
        · have hslept := hpause.unwritten (hsleep pause) hothers.right.left
          have hfewer : w₂.cluster.pendingConflicts ≤ pauses.length :=
            Nat.le_of_lt_succ (Nat.lt_of_le_of_lt hslept.conflicts
              (Nat.lt_of_lt_of_le hmet.conflicts hbudget))
          refine (ih (hpause.turns.sound (hattempt.turns.sound hw)) hothers.right.right hfewer
            hagain).around ?_ rfl
          rw [hslept.objects, hmet.objects]

end

/-- **A change in place settles** if fewer conflicts were arranged than there are attempts. What it
fails with is told with what was being done. -/
theorem Run.changeWorkload_settled {s : Settings} {activity : Activity} {change : Edit β}
    {r : Except Failure β} (hchange : change.KeepsIdentity)
    (hplain : ∀ d e, change d = .error e → e.kind ≠ .conflict) (hw : w.Sound)
    (hothers : OthersDo Unwritten t)
    (hbudget : w.cluster.pendingConflicts < s.backoff.attempts)
    (h : Run (changeWorkload s name activity change).run w t (some r) w') :
    ∃ r', r = Failure.within activity r' ∧ Settled name change (fun _ b => b) w w' r' := by
  obtain ⟨res, hrun, hres⟩ := h.map_cases
  obtain ⟨r', rfl, rfl⟩ := Option.map_eq_some_iff.mp hres.symm
  refine ⟨r', rfl, ?_⟩
  rw [changeOnce_eq] at hrun
  have hpauses : s.backoff.reset.delays.length = s.backoff.attempts - 1 :=
    Backoff.length_delays _
  exact Run.retryAfter_settled hchange hplain (asks_pause (.inl rfl) fun time => .inr ⟨time, rfl⟩)
    hw hothers (by omega) hrun

end InnerLoop
