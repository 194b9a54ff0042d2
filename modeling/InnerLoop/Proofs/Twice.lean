import InnerLoop.Proofs.RoundTrip
import InnerLoop.Proofs.Variables

/-!
# Switching twice

A workload that is in dev mode because it was switched there stays as it is when it is switched there
once more. Every list of it is made anew by a rule of its own; each of these rules gives back what
it made before.

- `firstNamed_firstNamed`, `mergeEnv_mergeEnv`: carrying over and merging, made again.
- `devModeContainer_devModeContainer`: the primary container, made again.
- `wantedAround_overwrite`: the frame around it, made again.
- `switchedToDev`: what a switch writes under the marks that a workload has.
- `switch_to_dev_mode_twice`: **the second switch succeeds and writes what is there**.
-/

namespace InnerLoop

open DeploymentConfig

/-! ## The lists -/

/-- The first items of names that were carried over are all that there are. -/
theorem firstNamed_firstNamed {α : Type} {nameOf : α → String} {seen seen' : List String}
    (h : ∀ n ∈ seen', n ∈ seen) (l : List α) :
    firstNamed nameOf seen' (firstNamed nameOf seen l) = firstNamed nameOf seen l := by
  induction l generalizing seen seen' with
  | nil => rfl
  | cons x r ih =>
    by_cases hx : nameOf x ∈ seen
    · have hskip : firstNamed nameOf seen (x :: r) = firstNamed nameOf seen r := if_pos hx
      rw [hskip]
      exact ih h
    · have htake : firstNamed nameOf seen (x :: r) = x :: firstNamed nameOf (nameOf x :: seen) r :=
        if_neg hx
      rw [htake, firstNamed, if_neg (mt (h _) hx)]
      exact congrArg (x :: ·) (ih fun n hn => List.mem_cons.mpr ((List.mem_cons.mp hn).imp_right (h n)))

/-- Behind what bears all the reserved names, the same items are carried over again. -/
theorem firstNamed_behind {α : Type} {nameOf : α → String} {names : List String} {front : List α}
    (hfront : front.map nameOf = names) (l : List α) :
    firstNamed nameOf names (front ++ firstNamed nameOf names l) = firstNamed nameOf names l := by
  rw [firstNamed_append_of_seen fun x hx => hfront ▸ List.mem_map_of_mem hx]
  exact firstNamed_firstNamed (fun _ => id) l

/-! ## The primary container -/

/-- The primary container that a switch to dev mode writes. -/
def devModeContainer (component : String) (live : Container) (builder : BuilderImage)
    (bootstrap : List EnvVar) (ports : List ContainerPort) : Container :=
  withMounts (devModePrimary component live builder bootstrap ports)
    ([scratchMount, appDataMount component] ++
      firstNamed VolumeMount.name (reservedVolumes component) (live.volumeMounts.getD []))

theorem devModeContainer_devModeContainer (component : String) (live : Container)
    (builder : BuilderImage) (bootstrap : List EnvVar) (ports : List ContainerPort) :
    devModeContainer component (devModeContainer component live builder bootstrap ports) builder
      bootstrap ports = devModeContainer component live builder bootstrap ports := by
  have henv : mergeEnv (mergeEnv (live.env.getD []) bootstrap) bootstrap
      = mergeEnv (live.env.getD []) bootstrap := mergeEnv_mergeEnv _ _
  have hprimary : devModePrimary component
      (devModeContainer component live builder bootstrap ports) builder bootstrap ports
      = devModePrimary component live builder bootstrap ports := by
    show { devModePrimary component live builder bootstrap ports with
      env := some (mergeEnv (mergeEnv (live.env.getD []) bootstrap) bootstrap) } = _
    rw [henv]
    rfl
  have hfront : [scratchMount, appDataMount component].map VolumeMount.name
      = reservedVolumes component := rfl
  have hmounts : firstNamed VolumeMount.name (reservedVolumes component)
      ((devModeContainer component live builder bootstrap ports).volumeMounts.getD [])
      = firstNamed VolumeMount.name (reservedVolumes component) (live.volumeMounts.getD []) := by
    unfold devModeContainer
    rw [getD_withMounts]
    exact firstNamed_behind hfront _
  show withMounts (devModePrimary component
      (devModeContainer component live builder bootstrap ports) builder bootstrap ports)
    ([scratchMount, appDataMount component] ++
      firstNamed VolumeMount.name (reservedVolumes component)
        ((devModeContainer component live builder bootstrap ports).volumeMounts.getD [])) = _
  rw [hmounts, hprimary]
  rfl

/-! ## The frame -/

section Frame

variable {component : ComponentMeta} {current : DeploymentConfig} {p : Container}
  {inits : List Container} {volumes : List Volume} {strategy : Option Strategy}
  {triggers : List Trigger}

theorem overwrite_overwrite (c d : DeploymentConfig) :
    (c.overwrite d).overwrite d = c.overwrite d := rfl

/-- The workload that is wanted in view of one that was written so is the same again. -/
theorem wantedAround_overwrite (hp : p.name = component.name) :
    wantedAround component
        (current.overwrite (wantedAround component current p inits volumes strategy triggers))
        p inits volumes strategy triggers
      = wantedAround component current p inits volumes strategy triggers := by
  have hsidecars : sidecars (current.overwrite
      (wantedAround component current p inits volumes strategy triggers)) component.name
      = sidecars current component.name := sidecars_wantedAround hp
  have hreplicas : (current.spec.replicas.or (some 1)).or (some 1)
      = current.spec.replicas.or (some 1) := by
    cases current.spec.replicas with
    | none => rfl
    | some n => rfl
  unfold wantedAround at hsidecars ⊢
  rw [hsidecars]
  show { wantedWorkload component current (p :: sidecars current component.name) inits volumes
      strategy triggers with
    spec := {
      (wantedWorkload component current (p :: sidecars current component.name) inits volumes
        strategy triggers).spec with
      replicas := (current.spec.replicas.or (some 1)).or (some 1) } } = _
  rw [hreplicas]
  rfl

/-- The marks of a workload that was written for a component of its own name are the component's. -/
theorem ofWorkload_overwrite (hname : current.name = component.name) :
    ComponentMeta.ofWorkload
        (current.overwrite (wantedAround component current p inits volumes strategy triggers))
      = component := by
  show ComponentMeta.mk current.name component.labels component.annotations = component
  rw [hname]

end Frame

/-! ## The switch -/

/-- What switching a workload to dev mode writes, under the name and the marks that it has and with
the source type of pushed sources. -/
def switchedToDev (builder : BuilderImage) (supervisorImage : String) (current : DeploymentConfig) :
    Except Failure DeploymentConfig := do
  let component := (ComponentMeta.ofWorkload current).withSourceType sourceTypeLocal
  let live ← current.primary component.name
  let wanted ← devModeWorkload component current live builder supervisorImage
  prepareUpdate component.name current wanted none

theorem withSourceType_withSourceType (m : ComponentMeta) (value : String) :
    (m.withSourceType value).withSourceType value = m.withSourceType value := by
  unfold ComponentMeta.withSourceType
  rw [SortedMap.insert_insert]

section Switch

variable {component : ComponentMeta} {current wanted dev : DeploymentConfig} {live : Container}
  {builder : BuilderImage} {supervisorImage : String}

/-- The object that a switch to dev mode writes, in the shape of wanted workloads. -/
theorem written_devMode (hlive : current.primary component.name = .ok live)
    (hwanted : devModeWorkload component current live builder supervisorImage = .ok wanted)
    (hdev : prepareUpdate component.name current wanted none = .ok dev) :
    ∃ bootstrap ports, builder.bootstrapEnv = .ok bootstrap ∧ builder.ports = .ok ports ∧
      dev = current.overwrite (wantedAround component current
        (devModeContainer component.name live builder bootstrap ports)
        (devModeInits component.name current builder supervisorImage)
        (devModeVolumes component.name ++
          firstNamed Volume.name (reservedVolumes component.name) current.volumes)
        (some { type := some "Recreate" }) (wantedTriggers component.name builder.reference)) := by
  obtain ⟨bootstrap, ports, hbootstrap, hports, hupdate⟩ := prepareUpdate_devMode hlive hwanted
  exact ⟨bootstrap, ports, hbootstrap, hports, Except.ok.inj (hdev.symm.trans hupdate)⟩

/-- A component that is switched to dev mode twice is as it was after the first time. -/
theorem devMode_again (hlive : current.primary component.name = .ok live)
    (hwanted : devModeWorkload component current live builder supervisorImage = .ok wanted)
    (hdev : prepareUpdate component.name current wanted none = .ok dev) :
    ∃ liveDev again, dev.primary component.name = .ok liveDev ∧
      devModeWorkload component dev liveDev builder supervisorImage = .ok again ∧
      prepareUpdate component.name dev again none = .ok dev := by
  obtain ⟨bootstrap, ports, hbootstrap, hports, hwritten⟩ := written_devMode hlive hwanted hdev
  have hseen : PodsOver component.name dev current
      (devModeContainer component.name live builder bootstrap ports)
      (devModeInits component.name current builder supervisorImage)
      (devModeVolumes component.name ++
        firstNamed Volume.name (reservedVolumes component.name) current.volumes) :=
    hwritten ▸ podsOver_overwrite rfl
  have hagain : devModeWorkload component dev
      (devModeContainer component.name live builder bootstrap ports) builder supervisorImage
      = .ok _ := devModeWorkload_eq_ok_iff.mpr ⟨bootstrap, ports, hbootstrap, hports, rfl⟩
  obtain ⟨bootstrap', ports', hbootstrap', hports', hupdate⟩ :=
    prepareUpdate_devMode hseen.primary_eq hagain
  cases hbootstrap.symm.trans hbootstrap'
  cases hports.symm.trans hports'
  refine ⟨_, _, hseen.primary_eq, hagain, hupdate.trans (congrArg Except.ok ?_)⟩
  -- Each of the parts that went into the workload comes out of it again.
  have hinits : devModeInits component.name dev builder supervisorImage
      = devModeInits component.name current builder supervisorImage := by
    have huser : userInits dev = userInits current := by
      unfold userInits
      rw [hseen.inits_eq]
      exact filter_devModeInits
    unfold devModeInits
    rw [huser]
  have hvolumes : firstNamed Volume.name (reservedVolumes component.name) dev.volumes
      = firstNamed Volume.name (reservedVolumes component.name) current.volumes := by
    have hfront : (devModeVolumes component.name).map Volume.name
        = reservedVolumes component.name := rfl
    rw [hseen.volumes_eq]
    exact firstNamed_behind hfront _
  show dev.overwrite (wantedAround component dev (devModeContainer component.name
    (devModeContainer component.name live builder bootstrap ports) builder bootstrap ports)
    _ _ _ _) = dev
  rw [hinits, hvolumes, devModeContainer_devModeContainer, hwritten, wantedAround_overwrite rfl,
    overwrite_overwrite]

end Switch

/-- **Switching twice**: a workload that was switched to dev mode can be switched again with the
same images, and then is exactly what it was. Nothing is asked of the live workload; its lists may
repeat names. -/
theorem switch_to_dev_mode_twice {current dev : DeploymentConfig} {builder : BuilderImage}
    {supervisorImage : String}
    (hdev : switchedToDev builder supervisorImage current = .ok dev) :
    switchedToDev builder supervisorImage dev = .ok dev := by
  obtain ⟨live, hlive, h⟩ := bind_eq_ok_iff.mp hdev
  obtain ⟨wanted, hwanted, hupdate⟩ := bind_eq_ok_iff.mp h
  obtain ⟨bootstrap, ports, -, -, hwritten⟩ := written_devMode hlive hwanted hupdate
  have hmeta : ComponentMeta.ofWorkload dev
      = (ComponentMeta.ofWorkload current).withSourceType sourceTypeLocal := by
    rw [hwritten]
    exact ofWorkload_overwrite rfl
  obtain ⟨liveDev, again, hprimary, hagain, hsame⟩ := devMode_again hlive hwanted hupdate
  unfold switchedToDev
  rw [hmeta, withSourceType_withSourceType]
  exact bind_eq_ok_iff.mpr ⟨liveDev, hprimary, bind_eq_ok_iff.mpr ⟨again, hagain, hsame⟩⟩

/-- The container of the shop with a variable that is set twice, and with mounts that repeat one
another and a name that dev mode reserves. -/
def crowdedContainer : Container := { shopContainer with
  env := some [{ name := "MODE", value := some "fast" }, { name := "MODE", value := some "slow" }]
  volumeMounts := some [{ name := "cache", mountPath := "/cache" }, scratchMount,
    { name := "cache", mountPath := "/tmp" }] }

/-- A workload that runs it beside a sidecar, and has left over an init container of dev mode. -/
def crowdedWorkload : DeploymentConfig where
  metadata := { name := some "web" }
  spec := { template := some { spec := some {
    containers := [{ name := "proxy" }, crowdedContainer]
    initContainers := some [{ name := copyFiles }, { name := "migrate" }]
    volumes := some [{ name := "cache" }, { name := "cache", emptyDir := some {} }] } } }

theorem switch_to_dev_mode_twice_crowded :
    ∃ dev, switchedToDev shopBuilder "sup:1" crowdedWorkload = .ok dev ∧
      switchedToDev shopBuilder "sup:1" dev = .ok dev := by
  have hlive : crowdedWorkload.primary "web" = .ok crowdedContainer :=
    primary_eq_ok_iff.mpr (by decide)
  have hwanted : devModeWorkload
      ((ComponentMeta.ofWorkload crowdedWorkload).withSourceType sourceTypeLocal) crowdedWorkload
      crowdedContainer shopBuilder "sup:1" = .ok _ :=
    devModeWorkload_eq_ok_iff.mpr ⟨_, _, rfl, rfl, rfl⟩
  obtain ⟨_, _, _, _, hupdate⟩ := prepareUpdate_devMode hlive hwanted
  have hdev : switchedToDev shopBuilder "sup:1" crowdedWorkload = .ok _ :=
    bind_eq_ok_iff.mpr ⟨_, hlive, bind_eq_ok_iff.mpr ⟨_, hwanted, hupdate⟩⟩
  exact ⟨_, hdev, switch_to_dev_mode_twice hdev⟩

end InnerLoop
