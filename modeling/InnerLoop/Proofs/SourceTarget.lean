import InnerLoop.Proofs.Twice
import InnerLoop.Proofs.EnvCommand
import InnerLoop.Proofs.Session
import Mathlib.Data.List.DropRight

/-!
# Where pushed sources go

A switch to dev mode tells the supervisor by a variable where sources are put. A push reads the
variable again, from a workload whose variables the user may have set before and after the switch.
Writer and reader agree: both settle a name by its first variable.

- `Container.sourceVar?`, `sourceBase`: the variable that a push reads, and the directory it means.
- `WithoutSlashes`: a path without the slashes that it ends in.
- `sourceTarget_of_primary`: the directory that sources are pushed into.
- `Task.KeepsTarget`, `Story.sourceTarget_eq`: what leaves it where it is, task by task.
- `sourceTarget_devMode`: **sources are pushed to where the supervisor was told they are**, for as
  long as no one sets the variable.
-/

namespace InnerLoop

open DeploymentConfig

/-! ## What a push reads -/

/-- The variable that says where sources go: the first one of its name. -/
def Container.sourceVar? (c : Container) : Option EnvVar :=
  (c.env.getD []).find? fun e => e.name = BuilderImage.sourcePathKey

/-- The directory that a variable means, which is the default one if it names none. -/
def sourceBase (var : Option EnvVar) : String :=
  ((var.bind (·.value)).filter (· ≠ "")).getD BuilderImage.defaultSourcePath

/-- The text `t` is `s` without the slashes that it ends in. -/
structure WithoutSlashes (s t : String) : Prop where
  slashes : ∃ n, s.toList = t.toList ++ List.replicate n '/'
  last : t.toList.getLast? ≠ some '/'

/-- Slashes are taken off at the end until there is none. -/
theorem withoutSlashes_trimmed (s : String) :
    WithoutSlashes s (String.ofList (s.toList.reverse.dropWhile (· = '/')).reverse) := by
  have htrim : (s.toList.reverse.dropWhile (· = '/')).reverse = s.toList.rdropWhile (· = '/') := rfl
  refine ⟨⟨(s.toList.rtakeWhile (· = '/')).length, ?_⟩, ?_⟩
  · have hslashes : s.toList.rtakeWhile (· = '/') =
        List.replicate (s.toList.rtakeWhile (· = '/')).length '/' :=
      List.eq_replicate_of_mem fun c hc => by simpa using List.mem_rtakeWhile_imp hc
    rw [String.toList_ofList, htrim, ← hslashes, List.rdropWhile_append_rtakeWhile]
  · rw [String.toList_ofList, htrim]
    intro hlast
    obtain ⟨hne, heq⟩ := List.mem_getLast?_eq_getLast hlast
    exact List.rdropWhile_last_not _ _ hne (decide_eq_true heq.symm)

section

variable {d d' : DeploymentConfig} {name : String} {c c' : Container}

/-- **The directory that sources are pushed into** lies in the one that the variable means. -/
theorem sourceTarget_of_primary (hp : d.primary name = .ok c) :
    ∃ t, WithoutSlashes (sourceBase c.sourceVar?) t ∧ d.sourceTarget name = .ok (t ++ "/src") := by
  refine ⟨_, withoutSlashes_trimmed _, ?_⟩
  unfold sourceTarget
  rw [hp]
  rfl

/-- It is a matter of the one variable. -/
theorem sourceTarget_congr (hp : d.primary name = .ok c) (hp' : d'.primary name = .ok c')
    (hvar : c'.sourceVar? = c.sourceVar?) : d'.sourceTarget name = d.sourceTarget name := by
  unfold Container.sourceVar? at hvar
  unfold sourceTarget
  rw [hp, hp']
  show Except.ok _ = Except.ok _
  rw [hvar]

/-! ## What leaves it where it is -/

/-- A change of the primary container that does not set the variable. -/
theorem sourceTarget_modifyPrimary {f : Container → Container}
    (h : d.modifyPrimary name f = .ok d') (hname : ∀ c, (f c).name = c.name)
    (hvar : ∀ c, (f c).sourceVar? = c.sourceVar?) :
    d'.sourceTarget name = d.sourceTarget name := by
  obtain ⟨p, hp, hpods⟩ := podsOver_modifyPrimary h hname
  exact sourceTarget_congr hp hpods.primary_eq (hvar p)

/-- A change of the pods that leaves the containers alone. -/
theorem sourceTarget_modifyPodSpec (d : DeploymentConfig) (name : String) {f : PodSpec → PodSpec}
    (hf : ∀ s, (f s).containers = s.containers) :
    (d.modifyPodSpec f).sourceTarget name = d.sourceTarget name := by
  have hnamed : (d.modifyPodSpec f).named name = d.named name :=
    congrArg (List.filter fun c : Container => c.name = name) (hf d.podSpec)
  have hname : (d.modifyPodSpec f).name = d.name := rfl
  unfold sourceTarget primary
  rw [hnamed, hname]

/-- Variables of other names. -/
theorem sourceTarget_putEnvVars {vars : List EnvVar} (h : d.putEnvVars name vars = .ok d')
    (hvars : BuilderImage.sourcePathKey ∉ vars.map EnvVar.name) :
    d'.sourceTarget name = d.sourceTarget name := by
  refine sourceTarget_modifyPrimary h (fun _ => rfl) fun c => ?_
  have hnone : lastUpdate? vars BuilderImage.sourcePathKey = none :=
    lastUpdate?_eq_none_iff.mpr hvars
  show (mergeEnv (c.env.getD []) vars).find? _ = _
  rw [find?_mergeEnv, hnone]
  rfl

theorem sourceTarget_attachClaim {claim volume path : String}
    (h : d.attachClaim name claim volume path = .ok d') :
    d'.sourceTarget name = d.sourceTarget name := by
  unfold attachClaim at h
  split at h
  · cases h
  · obtain ⟨d₁, hd₁, h⟩ := bind_eq_ok_iff.mp h
    cases h
    refine (sourceTarget_modifyPodSpec d₁ name fun _ => ?_).trans ?_
    · rfl
    · exact sourceTarget_modifyPrimary hd₁ (fun _ => rfl) fun _ => rfl

theorem sourceTarget_detachClaim {claim volume : String}
    (h : d.detachClaim name claim = .ok (d', volume)) :
    d'.sourceTarget name = d.sourceTarget name := by
  unfold detachClaim at h
  split at h
  · cases h
  · obtain ⟨mounts, hmounts, h⟩ := bind_eq_ok_iff.mp h
    dsimp only at h
    split at h
    · cases h
    · obtain ⟨d₁, hd₁, h⟩ := bind_eq_ok_iff.mp h
      cases h
      refine (sourceTarget_modifyPodSpec d₁ name fun _ => ?_).trans ?_
      · rfl
      · exact sourceTarget_modifyPrimary hd₁ (fun _ => rfl) fun _ => rfl
  · cases h

/-- A task that neither switches the mode nor sets the variable. -/
def Task.KeepsTarget : Task → Prop
  | .switch _ _ => False
  | .addEnvVars vars => BuilderImage.sourcePathKey ∉ vars.map EnvVar.name
  | .addClaim _ _ | .removeClaim _ | .updateAnnotations _ => True

instance : DecidablePred Task.KeepsTarget
  | .switch _ _ => inferInstanceAs (Decidable False)
  | .addEnvVars vars =>
    inferInstanceAs (Decidable (BuilderImage.sourcePathKey ∉ vars.map EnvVar.name))
  | .addClaim _ _ | .removeClaim _ | .updateAnnotations _ => inferInstanceAs (Decidable True)

/-- One task. -/
theorem Task.Makes.sourceTarget_eq {task : Task} (h : task.Makes name d d')
    (hkeeps : task.KeepsTarget) : d'.sourceTarget name = d.sourceTarget name := by
  cases h with
  | toDev _ _ _ _ => exact hkeeps.elim
  | toBuild _ _ _ => exact hkeeps.elim
  | attach n h => exact sourceTarget_attachClaim h
  | detach h => exact sourceTarget_detachClaim h
  | setVars h => exact sourceTarget_putEnvVars h hkeeps
  | annotate => rfl

/-- All tasks of a session. -/
theorem Story.sourceTarget_eq {log : List Deed} (h : Story name d log d')
    (hkeeps : ∀ deed ∈ log, deed.task.KeepsTarget) :
    d'.sourceTarget name = d.sourceTarget name := by
  induction h with
  | nil => rfl
  | cons _ hmakes _ ih =>
    obtain ⟨hfirst, hrest⟩ := List.forall_mem_cons.mp hkeeps
    exact (ih hrest).trans (hmakes.sourceTarget_eq hfirst)

/-- Variables that are set again and again. Setting them does not fail either, because the primary
container stays. -/
theorem sourceTarget_putEnvVars_run {edits : List (List EnvVar)} (hp : d.primary name = .ok c)
    (hedits : ∀ vars ∈ edits, BuilderImage.sourcePathKey ∉ vars.map EnvVar.name) :
    ∃ d', edits.foldlM (fun d vars => d.putEnvVars name vars) d = .ok d' ∧
      d'.sourceTarget name = d.sourceTarget name := by
  induction edits generalizing d c with
  | nil => exact ⟨d, rfl, rfl⟩
  | cons vars edits ih =>
    obtain ⟨hfirst, hrest⟩ := List.forall_mem_cons.mp hedits
    have hput : d.putEnvVars name vars = .ok _ := putEnvVars_of_primary hp vars
    obtain ⟨_, q, -, hpods, -⟩ := podsOver_putEnvVars hput
    obtain ⟨d', hrun, hsame⟩ := ih hpods.primary_eq hrest
    refine ⟨d', ?_, hsame.trans (sourceTarget_putEnvVars hput hfirst)⟩
    rw [List.foldlM_cons, hput]
    exact hrun

end

/-! ## What the switch tells -/

section

variable {component : ComponentMeta} {current wanted dev : DeploymentConfig} {live : Container}
  {builder : BuilderImage} {supervisorImage : String}

/-- The variables that the supervisor reads say where the image expects sources. -/
theorem lastUpdate?_bootstrapEnv {bootstrap : List EnvVar}
    (h : builder.bootstrapEnv = .ok bootstrap) :
    ∃ p, builder.paths = .ok p ∧ lastUpdate? bootstrap BuilderImage.sourcePathKey =
      some (.plain BuilderImage.sourcePathKey p.sourcePath) := by
  obtain ⟨p, hp, h⟩ := bind_eq_ok_iff.mp h
  cases h
  refine ⟨p, hp, ?_⟩
  -- Each of the four names is given once.
  rw [lastUpdate?_cons, lastUpdate?_cons, lastUpdate?_cons]
  rfl

/-- What the switch wrote says where sources go, whatever the variable said before and however often
it was there. -/
theorem sourceVar?_devMode (hlive : current.primary component.name = .ok live)
    (hwanted : devModeWorkload component current live builder supervisorImage = .ok wanted)
    (hdev : prepareUpdate component.name current wanted none = .ok dev) :
    ∃ p c, builder.paths = .ok p ∧ dev.primary component.name = .ok c ∧
      c.sourceVar? = some (.plain BuilderImage.sourcePathKey p.sourcePath) := by
  obtain ⟨bootstrap, ports, hbootstrap, -, rfl⟩ := written_devMode hlive hwanted hdev
  obtain ⟨p, hp, hlast⟩ := lastUpdate?_bootstrapEnv hbootstrap
  refine ⟨p, _, hp, (podsOver_overwrite rfl).primary_eq, ?_⟩
  show (mergeEnv (live.env.getD []) bootstrap).find? _ = _
  rw [find?_mergeEnv, hlast]
  rfl

/-- The directory that the variable of a switch means. -/
theorem sourceBase_plain (value : String) :
    sourceBase (some (.plain BuilderImage.sourcePathKey value)) =
      if value = "" then "/tmp" else value := by
  by_cases h : value = ""
  · rw [if_pos h, h]
    rfl
  · rw [if_neg h]
    show ((some value).filter (· ≠ "")).getD _ = _
    rw [Option.filter_some_pos (by simpa using h)]
    rfl

/-- **Sources are pushed to where the supervisor was told that they are.** After a switch to dev mode
the variable of the supervisor names the path of the builder image, and sources are pushed into
`src` in that directory, or in `/tmp` if the image names none. Variables of other names can be set
then as often as the user likes, and claims be added and removed, without moving the sources. -/
theorem sourceTarget_devMode (hlive : current.primary component.name = .ok live)
    (hwanted : devModeWorkload component current live builder supervisorImage = .ok wanted)
    (hdev : prepareUpdate component.name current wanted none = .ok dev) :
    ∃ p t, builder.paths = .ok p ∧
      WithoutSlashes (if p.sourcePath = "" then "/tmp" else p.sourcePath) t ∧
      (∃ c, dev.primary component.name = .ok c ∧
        c.sourceVar? = some (.plain BuilderImage.sourcePathKey p.sourcePath)) ∧
      dev.sourceTarget component.name = .ok (t ++ "/src") ∧
      (∀ edits : List (List EnvVar),
        (∀ vars ∈ edits, BuilderImage.sourcePathKey ∉ vars.map EnvVar.name) →
        ∃ d', edits.foldlM (fun d vars => d.putEnvVars component.name vars) dev = .ok d' ∧
          d'.sourceTarget component.name = .ok (t ++ "/src")) ∧
      ∀ (w w' : World) (log : List Deed) (v : String), w.Reachable →
        w.stored component.name = some (Resource.withVersion v dev) →
        current.name = component.name → Session component.name w log w' →
        (∀ deed ∈ log, deed.task.KeepsTarget) →
        ∃ d', w'.stored component.name = some d' ∧
          d'.sourceTarget component.name = .ok (t ++ "/src") := by
  obtain ⟨p, c, hp, hprimary, hvar⟩ := sourceVar?_devMode hlive hwanted hdev
  obtain ⟨t, ht, htarget⟩ := sourceTarget_of_primary hprimary
  rw [hvar, sourceBase_plain] at ht
  refine ⟨p, t, hp, ht, ⟨c, hprimary, hvar⟩, htarget, ?_, ?_⟩
  · intro edits hedits
    obtain ⟨d', hrun, hsame⟩ := sourceTarget_putEnvVars_run hprimary hedits
    exact ⟨d', hrun, hsame.trans htarget⟩
  · intro w w' log v hw hd hname hsession hkeeps
    obtain ⟨_, _, -, -, hwritten⟩ := written_devMode hlive hwanted hdev
    have hdevName : (Resource.withVersion v dev).name = component.name := by
      rw [hwritten]
      exact hname
    obtain ⟨-, d', hd', -, hstory⟩ := hsession.story hw.sound hd hdevName
    exact ⟨d', hd', (hstory.sourceTarget_eq hkeeps).trans htarget⟩

end

/-- A container with two variables for the sources, of which the first has no plain value. -/
def movedContainer : Container := { shopContainer with
  env := some [{ name := BuilderImage.sourcePathKey }, .plain BuilderImage.sourcePathKey "/old",
    .plain "MODE" "fast"] }

/-- A workload that runs it beside a sidecar. -/
def movedWorkload : DeploymentConfig where
  metadata := { name := some "web" }
  spec := { template := some { spec := some {
    containers := [movedContainer, { name := "proxy" }] } } }

/-- A builder image that writes the directory for sources with slashes at its end. -/
def slashedBuilder : BuilderImage := { shopBuilder with
  metadata := { shopBuilder.metadata with
    labels := shopBuilder.metadata.labels.insert BuilderImage.sourcePathLabel "/opt/app//" } }

/-- A session in which a variable is set and a claim is added, after the switch. -/
def movedSession (dev : DeploymentConfig) : Option (List Deed × World) :=
  playTasks "web" 12 [.addEnvVars [.plain "MODE" "slow"], .addClaim "orders" "/orders"]
    (shopWorld.fileWorkload dev)

theorem movedSession_keeps :
    ∃ dev r, switchedToDev slashedBuilder "sup:1" movedWorkload = .ok dev ∧
      movedSession dev = some r ∧
      (shopWorld.fileWorkload dev).stored "web" = some (Resource.withVersion "2" dev) ∧
      dev.sourceTarget "web" = .ok "/opt/app/src" ∧ r.1.length = 2 ∧
      ∀ deed ∈ r.1, deed.task.KeepsTarget := by
  have hall : ((switchedToDev slashedBuilder "sup:1" movedWorkload).toOption.any fun dev =>
      (movedSession dev).any fun r =>
        (shopWorld.fileWorkload dev).stored "web" = some (Resource.withVersion "2" dev) ∧
        dev.sourceTarget "web" = .ok "/opt/app/src" ∧ r.1.length = 2 ∧
        ∀ deed ∈ r.1, deed.task.KeepsTarget) = true := by decide +kernel
  obtain ⟨dev, hdev, hsession⟩ := (Option.any_eq_true _ _).mp hall
  obtain ⟨r, hr, hcheck⟩ := (Option.any_eq_true _ _).mp hsession
  cases hswitch : switchedToDev slashedBuilder "sup:1" movedWorkload with
  | error e => rw [hswitch] at hdev; cases hdev
  | ok d =>
    rw [hswitch] at hdev
    cases hdev
    exact ⟨dev, r, rfl, hr, of_decide_eq_true hcheck⟩

/-- The supervisor of the shop is told `/opt/app//`, and sources go to `/opt/app/src` from then on. -/
theorem sourceTarget_devMode_moved :
    ∃ dev, switchedToDev slashedBuilder "sup:1" movedWorkload = .ok dev ∧
      dev.sourceTarget "web" = .ok "/opt/app/src" ∧
      (∃ d', [[EnvVar.plain "MODE" "slow", .plain "MODE" ""], [.plain "PORT" "80"]].foldlM
          (fun d vars => d.putEnvVars "web" vars) dev = .ok d' ∧
        d'.sourceTarget "web" = .ok "/opt/app/src") ∧
      ∃ log w' d', Session "web" (shopWorld.fileWorkload dev) log w' ∧ log.length = 2 ∧
        w'.stored "web" = some d' ∧ d'.sourceTarget "web" = .ok "/opt/app/src" := by
  obtain ⟨dev, ⟨log, w'⟩, hswitch, hplayed, hstored, hmoved, hlength, hkeeps⟩ := movedSession_keeps
  obtain ⟨live, hlive, h⟩ := bind_eq_ok_iff.mp hswitch
  obtain ⟨wanted, hwanted, hdev⟩ := bind_eq_ok_iff.mp h
  obtain ⟨p, t, -, -, -, htarget, hedits, hsessions⟩ := sourceTarget_devMode hlive hwanted hdev
  have ht : t ++ "/src" = "/opt/app/src" := Except.ok.inj (htarget.symm.trans hmoved)
  rw [ht] at hedits hsessions
  have hsession : Session "web" (shopWorld.fileWorkload dev) log w' := .of_playTasks hplayed
  have hreachable : (shopWorld.fileWorkload dev).Reachable :=
    .turn reachable_shopWorld (.fileWorkload _ dev)
  obtain ⟨d', hend, hsame⟩ := hsessions _ w' log "2" hreachable hstored rfl hsession hkeeps
  exact ⟨dev, hswitch, hmoved, hedits _ (by decide), log, w', d', hsession, hlength, hend, hsame⟩

end InnerLoop
