import InnerLoop.Proofs.Serial

/-!
# Operations that nobody disturbs

As long as others leave the workload of a name alone, an operation on it starts from the workload
that is stored when it begins, and leaves what it committed.

- `Untouched`: others leave a workload alone; they may do anything else.
- `Run.leads`: the commits of a run lead from the workload before it to the one after it.
- `Run.retrying_error`: an edit that fails then fails for what is stored, or because of the store.
- `Run.toMode_opens`: a switch goes on with the name and marks of what is stored.
- `Run.toBuildMode_corrupt`: **a switch to build mode calls the workload corrupt only if the stored
  one is**.
-/

namespace InnerLoop

open Operation

/-! ## Workloads that others leave alone -/

/-- Others leave the workload of a name alone. -/
def Untouched (name : String) (t : List (Event Unit)) : Prop :=
  ∀ w w₁, .other w w₁ ∈ t → w₁.stored name = w.stored name

/-- Commits lead from one workload of a name to another. -/
def Leads (name : String) : Option DeploymentConfig → List Commit → Option DeploymentConfig → Prop
  | d, [], d' => d' = d
  | d, c :: rest, d' => c.before.stored name = d ∧ Leads name (c.after.stored name) rest d'

section

variable {α : Type} {w w' : World} {name : String} {t t₁ t₂ : List (Event Unit)}

theorem Untouched.left (h : Untouched name (t₁ ++ t₂)) : Untouched name t₁ :=
  fun w w₁ he => h w w₁ (List.mem_append_left _ he)

theorem Untouched.right (h : Untouched name (t₁ ++ t₂)) : Untouched name t₂ :=
  fun w w₁ he => h w w₁ (List.mem_append_right _ he)

theorem Untouched.tail {e : Event Unit} (h : Untouched name (e :: t)) : Untouched name t :=
  fun w w₁ he => h w w₁ (List.mem_cons_of_mem _ he)

/-- An answer that is no commit leaves the workload as it is. -/
theorem World.stored_of_answer {r : Request} {reply : r.Reply} {w₁ : World}
    (h : w.answer r = some (reply, w₁))
    (hnone : (Event.asked () r w reply w₁).commit? = none) : w₁.stored name = w.stored name := by
  cases r with
  | updateWorkload sent =>
    cases reply with
    | ok stored => cases hnone
    | error fault =>
      obtain ⟨hsame, -⟩ := Cluster.updateWorkload_eq_error (World.cluster_of_request h)
      exact World.stored_of_objects (by rw [hsame])
  | _ => exact World.stored_of_objects (World.quiet_of_answer h id).objects

/-- **Commits are all that happens to a workload** that others leave alone. -/
theorem Run.leads {p : Program α} {res : Option α} (h : Run p w t res w')
    (hu : Untouched name t) : Leads name (w.stored name) (commits t) (w'.stored name) := by
  induction h with
  | stop => rfl
  | done => rfl
  | @asked r next w w₁ w' reply t res h _ ih =>
    replace ih := ih hu.tail
    -- Only an answer that accepts an update is a commit; the chain goes on from what it stored.
    cases hc : (Event.asked () r w reply w₁).commit? with
    | none =>
      rw [World.stored_of_answer h hc] at ih
      unfold commits
      rw [List.filterMap_cons_none hc]
      exact ih
    | some c =>
      unfold commits
      rw [List.filterMap_cons_some hc]
      cases r with
      | updateWorkload sent =>
        cases reply with
        | error fault => cases hc
        | ok stored =>
          cases hc
          exact ⟨rfl, ih⟩
      | _ => cases hc
  | other _ _ ih =>
    replace ih := ih hu.tail
    rw [hu _ _ List.mem_cons_self] at ih
    exact ih

/-- Without a commit the workload stays. -/
theorem Run.stored_eq {p : Program α} {res : Option α} (h : Run p w t res w')
    (hu : Untouched name t) (hnone : commits t = []) : w'.stored name = w.stored name := by
  have hleads := h.leads hu
  rw [hnone] at hleads
  exact hleads

/-- One commit replaces the workload that was stored in the beginning, and is there in the end. -/
theorem Commit.Applies.stored_ends {β : Type} {f : Edit β} {c : Commit}
    {current : DeploymentConfig} {b : β} (happ : c.Applies name f current b)
    (hleads : Leads name (w.stored name) [c] (w'.stored name)) :
    w.stored name = some current ∧ w'.stored name = some c.stored := by
  obtain ⟨hbefore, hafter⟩ := hleads
  constructor
  · rw [← hbefore, World.stored_of_get happ.read]
  · rw [hafter, World.stored_of_get happ.written]

/-- Where nothing is asked, nothing happens to the workload. -/
theorem Turns.stored_eq (h : Turns w t w') (hidle : Idle t) (hu : Untouched name t) :
    w'.stored name = w.stored name := by
  induction h with
  | nil => rfl
  | @cons e t w' _ _ ih =>
    have hlater := ih (fun e he => hidle e (List.mem_cons_of_mem _ he)) hu.tail
    cases e with
    | asked => exact (hidle _ List.mem_cons_self).elim
    | other before after => exact hlater.trans (hu _ _ List.mem_cons_self)

/-! ## Edits -/

variable {d : DeploymentConfig}

/-- A read gives what is stored. -/
theorem Run.readWorkload_eq {r : Except Failure DeploymentConfig} (hd : w.stored name = some d)
    (hu : Untouched name t) (h : Run (readWorkload name).run w t (some r) w') : r = .ok d := by
  rcases h.readWorkload_cases with ⟨hnone, -⟩ | ⟨t₁, t₂, w₁, rfl, hidle, -, hturns, -, hres⟩
  · cases hnone
  · have hstored : w₁.cluster.workloads.get name = .ok d :=
      Store.get_eq_ok_iff.mpr ((hturns.stored_eq hidle hu.left).trans hd)
    rw [hres r rfl, hstored]
    rfl

/-- An attempt to edit fails for what is stored, or because of the store. -/
theorem Run.editOnce_error {β γ : Type} {f : Edit β} {answer : DeploymentConfig → β → γ}
    {e : Failure} (hd : w.stored name = some d) (hu : Untouched name t)
    (h : Run (editOnce name f answer).run w t (some (.error e)) w') :
    e.kind = .notFound ∨ e.kind = .conflict ∨ f d = .error e := by
  rcases h.error_cases with hread | ⟨current, t₁, t₂, w₁, rfl, hread, hrest⟩
  · cases hread.readWorkload_eq hd hu
  · -- What was read is what is stored, so the edit fails for it, or the store refuses what it gave.
    cases hread.readWorkload_eq hd hu.left
    cases hedit : f d with
    | error e' =>
      rw [hedit] at hrest
      replace hrest : Run (.done (.error e') : Program (Except Failure γ)) w₁ t₂
        (some (.error e)) w' := hrest
      cases hrest.of_done.2 _ rfl
      exact .inr (.inr rfl)
    | ok out =>
      obtain ⟨next, b⟩ := out
      rw [hedit] at hrest
      replace hrest : Run (writeWorkload next >>= fun stored => pure (answer stored b)).run
        w₁ t₂ (some (.error e)) w' := hrest
      rcases hrest.error_cases with hwrite | ⟨_, _, _, _, -, -, hdone⟩
      · rcases hwrite.writeWorkload_cases with ⟨-, hres⟩ | ⟨_, _, -, -, -, -, hres⟩
        · obtain ⟨e', he, hkind⟩ := hres _ rfl
          cases he
          exact hkind.imp_right .inl
        · cases hres _ rfl
      · cases hdone.of_done.2 _ rfl

/-- What fails in the end has failed in the attempt before. -/
theorem Run.attempt_error {γ : Type} {attempt : Program (Except Failure γ)}
    {next : Except Failure γ → Program (Except Failure γ)} {e : Failure}
    (h : Run (attempt.bind next) w t (some (.error e)) w')
    (hok : ∀ a, next (.ok a) = .done (.ok a)) :
    ∃ e₁ t₁ t₂ w₁, t = t₁ ++ t₂ ∧ Run attempt w t₁ (some (.error e₁)) w₁ ∧
      Run (next (.error e₁)) w₁ t₂ (some (.error e)) w' := by
  rcases h.bind_cases with ⟨hnone, -⟩ | ⟨r, t₁, t₂, w₁, rfl, hattempt, hrest⟩
  · cases hnone
  · cases r with
    | error e₁ => exact ⟨e₁, t₁, t₂, w₁, rfl, hattempt, hrest⟩
    | ok a =>
      rw [hok] at hrest
      cases hrest.of_done.2 _ rfl

/-- All attempts together fail as one attempt does. The induction is on the pauses that are left; an
attempt that failed has committed nothing, so the next one finds the same workload. -/
theorem Run.retryAfter_error {β γ : Type} {f : Edit β} {answer : DeploymentConfig → β → γ}
    {sleep : Nat → Program Unit} {kind what : String} {pauses : List Nat} {made : Nat} {e : Failure}
    (hf : f.KeepsIdentity) (hsleep : ∀ d, (sleep d).Asks fun r => ¬ r.IsUpdate) (hw : w.Sound)
    (hd : w.stored name = some d) (hu : Untouched name t)
    (h : Run (retryAfter sleep kind what (editOnce name f answer).run made pauses) w t
      (some (.error e)) w') :
    e.kind = .notFound ∨ e.kind = .conflict ∨ f d = .error e := by
  induction pauses generalizing made w t with
  | nil =>
    obtain ⟨e₁, t₁, t₂, w₁, rfl, hattempt, hrest⟩ := Run.attempt_error h fun _ => rfl
    replace hrest : Run (if e₁.kind = .conflict then .done (.error (.conflict kind what made))
      else .done (.error e₁) : Program (Except Failure γ)) w₁ t₂ (some (.error e)) w' := hrest
    by_cases he : e₁.kind = .conflict
    · rw [if_pos he] at hrest
      cases hrest.of_done.2 _ rfl
      exact .inr (.inl rfl)
    · rw [if_neg he] at hrest
      cases hrest.of_done.2 _ rfl
      exact hattempt.editOnce_error hd hu.left
  | cons pause pauses ih =>
    obtain ⟨e₁, t₁, t₂, w₁, rfl, hattempt, hrest⟩ := Run.attempt_error h fun _ => rfl
    replace hrest : Run (if e₁.kind = .conflict
      then (sleep pause).bind fun _ =>
        retryAfter sleep kind what (editOnce name f answer).run (made + 1) pauses
      else .done (.error e₁) : Program (Except Failure γ)) w₁ t₂ (some (.error e)) w' := hrest
    by_cases he : e₁.kind = .conflict
    · rw [if_pos he] at hrest
      rcases hrest.bind_cases with ⟨hnone, -⟩ | ⟨_, t₃, t₄, w₂, rfl, hpause, hagain⟩
      · cases hnone
      · have hfailed := (hattempt.edited_once hf hw).of_error.1
        have hpaused := commits_eq_nil (hpause.forall_asked (hsleep pause))
        refine ih (hpause.turns.sound (hattempt.turns.sound hw)) ?_ hu.right.right hagain
        rw [hpause.stored_eq hu.right.left hpaused, hattempt.stored_eq hu.left hfailed, hd]
    · rw [if_neg he] at hrest
      cases hrest.of_done.2 _ rfl
      exact hattempt.editOnce_error hd hu.left

/-- An edit that is tried again fails for what is stored, or because of the store. -/
theorem Run.retrying_error {β γ : Type} {s : Settings} {f : Edit β}
    {answer : DeploymentConfig → β → γ} {e : Failure} (hf : f.KeepsIdentity) (hw : w.Sound)
    (hd : w.stored name = some d) (hu : Untouched name t)
    (h : Run (retrying s name (editOnce name f answer)).run w t (some (.error e)) w') :
    e.kind = .notFound ∨ e.kind = .conflict ∨ f d = .error e :=
  Run.retryAfter_error hf (asks_pause id fun _ => id) hw hd hu h

/-- A change in place fails for what is stored, or because of the store. -/
theorem Run.changeWorkload_error {β : Type} {s : Settings} {activity : Activity} {change : Edit β}
    {e : Failure} (hchange : change.KeepsIdentity) (hw : w.Sound) (hd : w.stored name = some d)
    (hu : Untouched name t)
    (h : Run (changeWorkload s name activity change).run w t (some (.error e)) w') :
    ∃ e', e = .during activity e' ∧
      (e'.kind = .notFound ∨ e'.kind = .conflict ∨ change d = .error e') := by
  obtain ⟨e', rfl, hrun⟩ := h.within_error
  rw [changeOnce_eq] at hrun
  exact ⟨e', rfl, hrun.retrying_error hchange hw hd hu⟩

/-- A patch fails for what is stored, because of the store, or in the wait after it. -/
theorem Run.patchWorkloadWith_error {s : Settings}
    {desired : DeploymentConfig → Except Failure DeploymentConfig} {hook : Option PatchHook}
    {e : Failure} (hw : w.Sound) (hd : w.stored name = some d) (hu : Untouched name t)
    (h : Run (patchWorkloadWith s name desired hook).run w t (some (.error e)) w') :
    e.kind ∈ waitKinds ∨ e.kind = .notFound ∨ e.kind = .conflict ∨
      ∃ e', patchEdit name desired hook d = .error e' ∧ e'.kind = e.kind := by
  rcases h.error_cases with hpatch | ⟨⟨updated, sourceType⟩, t₁, t₂, w₁, rfl, -, hconfirm⟩
  · obtain ⟨e', rfl, hrun⟩ := hpatch.within_error
    rw [patchOnce_eq] at hrun
    refine .inr ((hrun.retrying_error (keepsIdentity_patchEdit _ _ _) hw hd hu).imp id ?_)
    exact Or.imp id fun he => ⟨e', he, rfl⟩
  · rcases (Run.confirmed hconfirm).2 _ rfl with hok | ⟨e', he, hkind⟩
    · cases hok
    · cases he
      exact .inl hkind

end

/-! ## Switches -/

section

variable {w w' : World} {name image : String} {t : List (Event Unit)} {s : Settings} {mode : Mode}
  {d : DeploymentConfig}

/-- The name and marks are those of what is stored. -/
theorem Run.liveMeta_eq {sourceType : String} {r : Except Failure ComponentMeta}
    (hd : w.stored name = some d) (hu : Untouched name t)
    (h : Run (liveMeta name sourceType).run w t (some r) w') :
    r = .ok ((ComponentMeta.ofWorkload d).withSourceType sourceType) := by
  cases r with
  | error e =>
    rcases h.error_cases with hread | ⟨_, _, _, _, -, -, hdone⟩
    · obtain ⟨e', -, hrun⟩ := hread.within_error
      cases hrun.readWorkload_eq hd hu
    · cases hdone.of_done.2 _ rfl
  | ok component =>
    obtain ⟨d', t₁, t₂, w₁, rfl, hread, hdone⟩ := h.ok_cases
    cases hread.within_ok.readWorkload_eq hd hu.left
    exact hdone.of_done.2 _ rfl

/-- A switch does not get its image, or it goes on with the name and marks of what is stored. Before
that it only looks. -/
theorem Run.toMode_opens {r : Except Failure DeploymentConfig} (hw : w.Sound)
    (hd : w.stored name = some d) (hu : Untouched name t)
    (h : Run (toMode s mode name image).run w t (some r) w') :
    (∃ e, r = .error e ∧ Run (Plan.resolve mode image).run w t (some (.error e)) w') ∨
    ∃ plan t₁ t₂ w₁, t = t₁ ++ t₂ ∧ plan.mode = mode ∧ (∀ e ∈ t₁, e.Asked Request.IsLook) ∧
      w₁.Sound ∧ w₁.stored name = some d ∧
      Run (switchBy s ((ComponentMeta.ofWorkload d).withSourceType mode.sourceType) plan).run
        w₁ t₂ (some r) w' := by
  rw [toMode_eq] at h
  rcases h.operation_cases with ⟨hnone, -⟩ | ⟨e, he, hrun⟩ | ⟨plan, t₁, t₂, w₁, rfl, hrun, hrest⟩
  · cases hnone
  · cases he
    exact .inl ⟨e, rfl, hrun⟩
  have hlooks : ∀ e ∈ t₁, e.Asked Request.IsLook :=
    hrun.forall_asked (Program.Asks.mono Request.IsImageLook.isLook asks_resolve)
  -- Neither the search for the image nor the first read writes, so `d` is still there after both.
  have hd₁ : w₁.stored name = some d :=
    (hrun.stored_eq hu.left (quiet_of_looks hlooks).1).trans hd
  rcases hrest.operation_cases with
    ⟨hnone, -⟩ | ⟨e, -, hmeta⟩ | ⟨component, t₃, t₄, w₂, rfl, hmeta, hswitch⟩
  · cases hnone
  · cases hmeta.liveMeta_eq hd₁ hu.right
  · cases hmeta.liveMeta_eq hd₁ hu.right.left
    have hlooks' := hmeta.forall_asked asks_liveMeta
    refine .inr ⟨plan, t₁ ++ t₃, t₄, w₂, (List.append_assoc _ _ _).symm, hrun.mode_of_resolve, ?_,
      hmeta.turns.sound (hrun.turns.sound hw), ?_, hswitch⟩
    · exact fun e he => (List.mem_append.mp he).elim (hlooks e) (hlooks' e)
    · exact (hmeta.stored_eq hu.right.left (quiet_of_looks hlooks').1).trans hd₁

/-- What is no image reference is an invalid argument. -/
theorem kind_of_parse_error {e : Failure} (h : ImageReference.parse image = .error e) :
    e.kind = .invalid := by
  unfold ImageReference.parse at h
  split at h
  · cases h
    rfl
  · split at h
    · cases h
      rfl
    · cases h

/-- **What a switch to build mode calls corrupt is the workload that is stored.** -/
theorem Run.toBuildMode_corrupt {e : Failure} (hw : w.Sound) (hd : w.stored name = some d)
    (hname : d.name = name) (hu : Untouched name t)
    (h : Run (toBuildMode s name image).run w t (some (.error e)) w') (he : e.kind = .corruption) :
    ∃ component reference e', component.name = name ∧
      patchEdit name (wantedInBuildMode component reference) (some stripDevMode) d = .error e' ∧
      e'.kind = .corruption := by
  replace h : Run (toMode s .build name image).run w t (some (.error e)) w' := h
  rcases h.toMode_opens hw hd hu with
    ⟨_, ⟨⟩, hresolve⟩ | ⟨plan, t₁, t₂, w₁, rfl, hplan, -, hw₁, hd₁, hswitch⟩
  · rcases hresolve.error_cases with hparse | ⟨_, _, _, _, -, -, hdone⟩
    · rw [kind_of_parse_error (hparse.of_done.2 _ rfl).symm] at he
      cases he
    · cases hdone.of_done.2 _ rfl
  · cases plan with
    | toDev builder => cases hplan
    | toBuild reference =>
      have hcomponent : ((ComponentMeta.ofWorkload d).withSourceType Mode.build.sourceType).name
          = name := hname
      rcases hswitch.error_cases with hpatch | ⟨_, t₃, t₄, w₂, rfl, -, hsettle⟩
      · have hd' : w₁.stored ((ComponentMeta.ofWorkload d).withSourceType
            Mode.build.sourceType).name = some d := hcomponent.symm ▸ hd₁
        rcases hpatch.patchWorkloadWith_error hw₁ hd' (hcomponent.symm ▸ hu.right) with
          hwait | hmissing | hconflict | ⟨e', hedit, hkind⟩
        · rw [he] at hwait
          exact absurd hwait (by decide)
        · rw [he] at hmissing
          cases hmissing
        · rw [he] at hconflict
          cases hconflict
        · exact ⟨_, reference, e', hcomponent, hcomponent ▸ hedit, hkind.trans he⟩
      · rcases hsettle.error_cases with hclaim | ⟨_, _, _, _, -, -, hdone⟩
        · obtain ⟨cause, rfl⟩ := hclaim.ends fails_settle _ rfl e rfl
          cases he
        · cases hdone.of_done.2 _ rfl

end

end InnerLoop
