import InnerLoop.Proofs.InPlace
import InnerLoop.Proofs.Undisturbed

/-!
# Sessions of work on one component

A session is a sequence of operations on one component that all succeed, while others leave its
workload alone. What each operation makes of the workload is told here by what is known of its
outcome, so that what holds throughout a session is shown task by task.

- `Task`, `Task.operation`: what can be done to a component in a session.
- `Task.Makes`: what a task makes of a workload.
- `Run.makes`: **an operation that succeeds has stored what its task makes of what was stored**.
- `Session`: the sessions, each with a log of the workloads before and after every task.
- `Session.of_playTasks`: a session that is played.
-/

namespace InnerLoop

open Operation

/-! ## Tasks -/

/-- What can be done to a component. -/
inductive Task where
  | switch (mode : Mode) (image : String)
  | addClaim (claim path : String)
  | removeClaim (claim : String)
  | addEnvVars (vars : List EnvVar)
  | updateAnnotations (annotations : TextMap)

namespace Task

/-- The operation that does a task, without its answer. -/
def operation (s : Settings) (name : String) : Task → Operation Unit
  | switch mode image => toMode s mode name image >>= fun _ => pure ()
  | addClaim claim path => InnerLoop.addClaim s name claim path >>= fun _ => pure ()
  | removeClaim claim => InnerLoop.removeClaim s claim name >>= fun _ => pure ()
  | addEnvVars vars => InnerLoop.addEnvVars s name vars
  | updateAnnotations annotations => InnerLoop.updateAnnotations s name annotations

/-- What a task makes of a workload. -/
inductive Makes (name : String) : Task → DeploymentConfig → DeploymentConfig → Prop
  | toDev {image supervisorImage : String} {component : ComponentMeta} {builder : BuilderImage}
      {d wanted d' : DeploymentConfig} {live : Container} (hname : component.name = name)
      (hlive : d.primary component.name = .ok live)
      (hwanted : devModeWorkload component d live builder supervisorImage = .ok wanted)
      (h : prepareUpdate component.name d wanted none = .ok d') :
      Makes name (.switch .dev image) d d'
  | toBuild {image : String} {component : ComponentMeta} {reference : ImageReference}
      {d d' : DeploymentConfig} {live : Container} (hname : component.name = name)
      (hlive : d.primary component.name = .ok live)
      (h : prepareUpdate component.name d (buildModeWorkload component d live reference)
        (some stripDevMode) = .ok d') :
      Makes name (.switch .build image) d d'
  | attach {claim path : String} {d d' : DeploymentConfig} (n : Nat)
      (h : d.attachClaim name claim (newVolumeName claim n) path = .ok d') :
      Makes name (.addClaim claim path) d d'
  | detach {claim volume : String} {d d' : DeploymentConfig}
      (h : d.detachClaim name claim = .ok (d', volume)) : Makes name (.removeClaim claim) d d'
  | setVars {vars : List EnvVar} {d d' : DeploymentConfig}
      (h : d.putEnvVars name vars = .ok d') : Makes name (.addEnvVars vars) d d'
  | annotate {annotations : TextMap} {d : DeploymentConfig} :
      Makes name (.updateAnnotations annotations) d (d.putAnnotations annotations)

end Task

/-- What a switch makes of a workload is what its task makes of it. -/
theorem Plan.makes {s : Settings} {component : ComponentMeta} {plan : Plan} {sourceType : String}
    {d d' : DeploymentConfig} (image : String)
    (h : plan.edit s component d = .ok (d', sourceType)) :
    Task.Makes component.name (.switch plan.mode image) d d' := by
  obtain ⟨wanted, hwanted, hupdate⟩ := bind_eq_ok_iff.mp (makes_patchEdit _ _ _ h)
  cases plan with
  | toDev builder =>
    obtain ⟨live, hlive, hwithin⟩ := bind_eq_ok_iff.mp hwanted
    cases hdev : devModeWorkload component d live builder s.supervisorImage with
    | error e => rw [hdev] at hwithin; cases hwithin
    | ok wanted' =>
      rw [hdev] at hwithin
      cases hwithin
      exact .toDev rfl hlive hdev hupdate
  | toBuild reference =>
    obtain ⟨live, hlive, hwanted⟩ := bind_eq_ok_iff.mp hwanted
    cases hwanted
    exact .toBuild rfl hlive hupdate

namespace Task.Makes

variable {name image : String} {task : Task} {d d' : DeploymentConfig}

/-- What can be seen of a workload that was switched to dev mode. -/
theorem pods_toDev (h : Makes name (.switch .dev image) d d') :
    ∃ live p builder supervisorImage, d.primary name = .ok live ∧
      PodsOver name d' d p (devModeInits name d builder supervisorImage)
        (devModeVolumes name ++ firstNamed Volume.name (reservedVolumes name) d.volumes) ∧
      p.volumeMounts.getD [] = [scratchMount, appDataMount name] ++
        firstNamed VolumeMount.name (reservedVolumes name) (live.volumeMounts.getD []) := by
  cases h with
  | toDev hname hlive hwanted h =>
    subst hname
    obtain ⟨p, hpods, hmounts⟩ := podsOver_of_devMode hlive hwanted h
    exact ⟨_, p, _, _, hlive, hpods, hmounts⟩

/-- What can be seen of a workload that was switched to build mode, which passed the check. -/
theorem pods_toBuild (h : Makes name (.switch .build image) d d') (hname : d.name = name) :
    checkDevMode d = .ok () ∧ ∃ live p, d.primary name = .ok live ∧
      PodsOver name d' d p (userInits d)
        (firstNamed Volume.name (reservedVolumes name) d.volumes) ∧
      p.volumeMounts.getD [] =
        firstNamed VolumeMount.name (reservedVolumes name) (live.volumeMounts.getD []) := by
  cases h with
  | toBuild hcomponent hlive h =>
    subst hcomponent
    obtain ⟨hcheck, p, hpods, hmounts⟩ := podsOver_of_buildMode hname hlive h
    exact ⟨hcheck, _, p, hlive, hpods, hmounts⟩

/-- No task gives a workload another name. -/
theorem name_eq (h : task.Makes name d d') : d'.name = d.name := by
  cases h with
  | toDev _ _ _ h =>
    obtain ⟨_, _, -, -, -, rfl⟩ := prepareUpdate_eq_ok h
    rfl
  | toBuild _ _ h =>
    obtain ⟨_, _, -, -, -, rfl⟩ := prepareUpdate_eq_ok h
    rfl
  | attach n h =>
    obtain ⟨-, _, _, -, hpods, -⟩ := podsOver_attachClaim h
    exact hpods.name_eq
  | detach h =>
    obtain ⟨-, _, _, -, -, hpods, -⟩ := podsOver_detachClaim h
    exact hpods.name_eq
  | setVars h =>
    obtain ⟨_, _, -, hpods, -⟩ := podsOver_putEnvVars h
    exact hpods.name_eq
  | annotate => rfl

end Task.Makes

/-! ## Operations that succeed -/

section

variable {w w' : World} {name : String} {t : List (Event Unit)} {s : Settings}

/-- A change in place that succeeds has committed what the change makes. -/
theorem Run.applies_change {β : Type} {activity : Activity} {change : Edit β} {b : β}
    (hchange : change.KeepsIdentity) (hw : w.Sound)
    (h : Run (changeWorkload s name activity change).run w t (some (.ok b)) w') :
    ∃ c current, commits t = [c] ∧ c.Applies name change current b := by
  have hrun := h.within_ok
  rw [changeOnce_eq] at hrun
  cases hrun.edited_retrying (fun hw h => h.edited_once hchange hw) hw with
  | untouched _ hres =>
    obtain ⟨e, he, -⟩ := hres _ rfl
    cases he
  | committed c current b' h happ hres =>
    cases hres _ rfl
    exact ⟨c, current, h, happ⟩

/-- What was done in place is stored, under the next version, over what was stored. -/
theorem Run.stored_change {β : Type} {activity : Activity} {change : Edit β} {b : β}
    (hchange : change.KeepsIdentity) (hw : w.Sound) (hu : Untouched name t)
    (h : Run (changeWorkload s name activity change).run w t (some (.ok b)) w') :
    ∃ d d' v, w.stored name = some d ∧ change d = .ok (d', b) ∧
      w'.stored name = some (Resource.withVersion v d') := by
  obtain ⟨c, current, hone, happ⟩ := h.applies_change hchange hw
  have hleads := h.leads hu
  rw [hone] at hleads
  obtain ⟨hbefore, hafter⟩ := happ.stored_ends hleads
  exact ⟨current, c.sent, _, hbefore, happ.sent, hafter.trans (congrArg some happ.stored)⟩

/-- What a switch wrote is stored, under the next version, over what was stored, and it is what the
switch answers. -/
theorem Run.stored_switch {mode : Mode} {image : String} {d answer : DeploymentConfig}
    (hw : w.Sound) (hd : w.stored name = some d) (hname : d.name = name) (hu : Untouched name t)
    (h : Run (toMode s mode name image).run w t (some (.ok answer)) w') :
    ∃ d' v, Task.Makes name (.switch mode image) d d' ∧ answer = Resource.withVersion v d' ∧
      w'.stored name = some answer := by
  rcases h.toMode_opens hw hd hu with
    ⟨_, hr, -⟩ | ⟨plan, t₁, t₂, w₁, rfl, rfl, -, hw₁, hd₁, hswitch⟩
  · cases hr
  have hcomponent :
      ((ComponentMeta.ofWorkload d).withSourceType plan.mode.sourceType).name = name := hname
  cases hswitch.switched hw₁ with
  | untouched _ _ hres =>
    obtain ⟨e, he, -⟩ := hres _ rfl
    cases he
  | committed c current sourceType later hone happ hres =>
    cases hres _ rfl
    -- The one commit starts from `d` itself, because nothing led away from it before.
    have hleads := hswitch.leads hu.right
    rw [hone.commits_eq] at hleads
    rw [hcomponent] at happ
    obtain ⟨hbefore, hafter⟩ := happ.stored_ends hleads
    cases hd₁.symm.trans hbefore
    refine ⟨c.sent, _, ?_, happ.stored, hafter⟩
    have hmakes := Plan.makes image happ.sent
    rw [hcomponent] at hmakes
    exact hmakes

/-- An operation whose answer is made into another one succeeds as it does alone. -/
theorem Run.ok_of_bind_pure {α β : Type} {x : Operation α} {f : α → β} {b : β}
    (h : Run (x >>= fun a => pure (f a)).run w t (some (.ok b)) w') :
    ∃ a, Run x.run w t (some (.ok a)) w' := by
  rw [run_bind_pure] at h
  obtain ⟨r, hrun, hres⟩ := h.map_cases
  obtain ⟨a, rfl, ha⟩ := Option.map_eq_some_iff.mp hres.symm
  cases a with
  | error e => cases ha
  | ok a => exact ⟨a, hrun⟩

/-- **What an operation leaves that succeeds**: what its task makes of the workload that was stored,
under the next version. -/
theorem Run.makes {task : Task} {d : DeploymentConfig} (hw : w.Sound)
    (hd : w.stored name = some d) (hname : d.name = name) (hu : Untouched name t)
    (h : Run (task.operation s name).run w t (some (.ok ())) w') :
    ∃ d' v, task.Makes name d d' ∧ w'.stored name = some (Resource.withVersion v d') := by
  cases task with
  | switch mode image =>
    obtain ⟨answer, hrun⟩ := h.ok_of_bind_pure
    obtain ⟨d', v, hmakes, rfl, hafter⟩ := hrun.stored_switch hw hd hname hu
    exact ⟨d', v, hmakes, hafter⟩
  | addClaim claim path =>
    obtain ⟨answer, hrun⟩ := h.ok_of_bind_pure
    obtain ⟨n, t₁, t₂, w₁, rfl, hmint, hrest⟩ := hrun.ok_cases
    have hask : (ask .mint).Asks fun r => ¬ r.IsUpdate := .ask id
    have hd₁ : w₁.stored name = some d :=
      (hmint.stored_eq hu.left (commits_eq_nil (hmint.forall_asked hask))).trans hd
    obtain ⟨_, hchange⟩ := hrest.ok_of_bind_pure
    obtain ⟨d₁, d', v, hbefore, hattach, hafter⟩ := hchange.stored_change
      (keepsIdentity_attachClaim _ _ _ _) (hmint.turns.sound hw) hu.right
    cases hd₁.symm.trans hbefore
    exact ⟨d', v, .attach n (silently_eq_ok hattach), hafter⟩
  | removeClaim claim =>
    obtain ⟨answer, hrun⟩ := h.ok_of_bind_pure
    obtain ⟨d₁, d', v, hbefore, hdetach, hafter⟩ :=
      Run.stored_change (keepsIdentity_detachClaim _ _) hw hu hrun
    cases hd.symm.trans hbefore
    exact ⟨d', v, .detach hdetach, hafter⟩
  | addEnvVars vars =>
    obtain ⟨d₁, d', v, hbefore, hset, hafter⟩ :=
      Run.stored_change (keepsIdentity_putEnvVars _ _) hw hu h
    cases hd.symm.trans hbefore
    exact ⟨d', v, .setVars (silently_eq_ok hset), hafter⟩
  | updateAnnotations annotations =>
    obtain ⟨d₁, d', v, hbefore, hset, hafter⟩ :=
      Run.stored_change (keepsIdentity_putAnnotations _) hw hu h
    cases hd.symm.trans hbefore
    cases silently_eq_ok hset
    exact ⟨_, v, .annotate, hafter⟩

end

/-! ## Sessions -/

/-- A task that was done, with what was stored before and after it. -/
structure Deed where
  task : Task
  before : Option DeploymentConfig
  after : Option DeploymentConfig

/-- A session of work on the component of a name, from one world to another: operations that succeed
one after another, in whichever order, while others leave the workload alone. -/
inductive Session (name : String) : World → List Deed → World → Prop
  | nil (w : World) : Session name w [] w
  | cons {s : Settings} {task : Task} {w w₁ w' : World} {t : List (Event Unit)} {log : List Deed}
      (h : Run (task.operation s name).run w t (some (.ok ())) w₁) (hu : Untouched name t)
      (rest : Session name w₁ log w') :
      Session name w (⟨task, w.stored name, w₁.stored name⟩ :: log) w'

/-- What tasks make of a workload one after another. -/
inductive Story (name : String) : DeploymentConfig → List Deed → DeploymentConfig → Prop
  | nil (d : DeploymentConfig) : Story name d [] d
  | cons {task : Task} {d d' d'' : DeploymentConfig} {v : String} {log : List Deed}
      (hname : d.name = name) (h : task.Makes name d d')
      (rest : Story name (Resource.withVersion v d') log d'') :
      Story name d (⟨task, some d, some (Resource.withVersion v d')⟩ :: log) d''

variable {w w' : World} {name : String} {d : DeploymentConfig} {log : List Deed}

/-- **A session is a story** of the workload that is stored, which keeps its name. -/
theorem Session.story (h : Session name w log w') (hw : w.Sound) (hd : w.stored name = some d)
    (hname : d.name = name) :
    w'.Sound ∧ ∃ d', w'.stored name = some d' ∧ d'.name = name ∧ Story name d log d' := by
  induction h generalizing d with
  | nil => exact ⟨hw, d, hd, hname, .nil d⟩
  | cons h hu _ ih =>
    obtain ⟨d₁, v, hmakes, hafter⟩ := h.makes hw hd hname hu
    obtain ⟨hsound, d', hend, hname', hstory⟩ :=
      ih (h.turns.sound hw) hafter (hmakes.name_eq.trans hname)
    rw [hd, hafter]
    exact ⟨hsound, d', hend, hname', .cons hname hmakes hstory⟩

/-! ## Sessions that are played -/

/-- Does tasks one after another, undisturbed, as long as they succeed and are over after so many
answers. -/
def playTasks (name : String) (turns : Nat) : List Task → World → Option (List Deed × World)
  | [], w => some ([], w)
  | task :: rest, w =>
    match (task.operation {} name).run.play (undisturbed turns) w with
    | (_, some (.ok ()), w₁) => (playTasks name turns rest w₁).map fun (log, w') =>
        (⟨task, w.stored name, w₁.stored name⟩ :: log, w')
    | _ => none

/-- Nobody else does anything in a run that is played undisturbed. -/
theorem untouched_undisturbed {α : Type} (name : String) (turns : Nat) (p : Program α) (w : World) :
    Untouched name (p.play (undisturbed turns) w).1 := by
  induction turns generalizing p w with
  | zero =>
    cases p with
    | done a => exact fun _ _ he => nomatch he
    | ask r next => exact fun _ _ he => nomatch he
  | succ n ih =>
    cases p with
    | done a => exact fun _ _ he => nomatch he
    | ask r next =>
      show Untouched name (Program.play (.answer () :: undisturbed n) (.ask r next) w).1
      unfold Program.play
      split
      · exact fun _ _ he => nomatch he
      · rename_i reply w₁ _
        intro w₂ w₃ he
        rcases List.mem_cons.mp he with he | he
        · cases he
        · exact ih (next reply) w₁ w₂ w₃ he

/-- **What is played is a session.** -/
theorem Session.of_playTasks {turns : Nat} {tasks : List Task}
    (h : playTasks name turns tasks w = some (log, w')) : Session name w log w' := by
  induction tasks generalizing w log with
  | nil =>
    cases h
    exact .nil _
  | cons task rest ih =>
    unfold playTasks at h
    split at h
    · rename_i t w₁ hplay
      obtain ⟨⟨log', w''⟩, hrest, heq⟩ := Option.map_eq_some_iff.mp h
      cases heq
      have hrun := Run.play (undisturbed turns) (task.operation {} name).run w
      have hu := untouched_undisturbed name turns (task.operation {} name).run w
      rw [hplay] at hrun hu
      exact .cons hrun hu (ih hrest)
    · cases h

end InnerLoop
