import InnerLoop.Proofs.Refusal
import InnerLoop.Proofs.Carry

/-!
# What a mode switch writes

Both wanted workloads have one shape: a primary container in front of the live sidecars, in the
frame of the live workload. Carrying over and stripping change the items of that shape and keep it,
so that what a patch writes can be read off.

- `wantedAround`: the shape, and `PodsOver`, what can be seen of a workload written in it.
- `copyForward_wantedAround`, `stripDevMode_wantedAround`: the two steps on it.
- `prepareUpdate_wantedAround`, `prepareUpdate_devMode`, `prepareUpdate_buildMode`: the object that
  is written.
- `checkDevMode_eq_ok_iff`: when a workload counts as being in dev mode.
-/

namespace InnerLoop

namespace DeploymentConfig

/-! ## The primary container -/

theorem primary_eq_ok_iff {d : DeploymentConfig} {name : String} {c : Container} :
    d.primary name = .ok c ↔ d.named name = [c] := by
  unfold primary
  constructor
  · intro h
    split at h
    · cases h
      assumption
    · cases h
    · cases h
  · intro h
    rw [h]

/-- The primary container is a matter of the containers alone. -/
theorem named_eq_filter (d : DeploymentConfig) (name : String) :
    d.named name = d.podSpec.containers.filter fun c => c.name = name := rfl

/-- The pod specification without its containers, init containers and volumes. -/
def podFrame (d : DeploymentConfig) : PodSpec :=
  { d.podSpec with containers := [], initContainers := none, volumes := none }

/-- The live workload with the specification, labels and annotations of another one. -/
def overwrite (current desired : DeploymentConfig) : DeploymentConfig :=
  { current with
    spec := desired.spec
    metadata := { current.metadata with
      labels := desired.metadata.labels
      annotations := desired.metadata.annotations } }

@[simp] theorem podSpec_overwrite (current desired : DeploymentConfig) :
    (current.overwrite desired).podSpec = desired.podSpec := rfl

end DeploymentConfig

open DeploymentConfig

theorem sidecars_eq_filter (d : DeploymentConfig) (name : String) :
    sidecars d name = d.podSpec.containers.filter fun c => c.name ≠ name := rfl

theorem name_ne_of_mem_sidecars {d : DeploymentConfig} {name : String} {c : Container}
    (h : c ∈ sidecars d name) : c.name ≠ name := by
  simpa using (List.mem_filter.mp h).2

/-! ## The shape of wanted workloads -/

/-- A wanted workload with `primary` in front of the live sidecars. -/
def wantedAround (component : ComponentMeta) (current : DeploymentConfig) (primary : Container)
    (inits : List Container) (volumes : List Volume) (strategy : Option Strategy)
    (triggers : List Trigger) : DeploymentConfig :=
  wantedWorkload component current (primary :: sidecars current component.name) inits volumes
    strategy triggers

section Shape

variable {component : ComponentMeta} {current : DeploymentConfig} {p : Container}
  {inits : List Container} {volumes : List Volume} {strategy : Option Strategy}
  {triggers : List Trigger}

theorem podSpec_wantedAround :
    (wantedAround component current p inits volumes strategy triggers).podSpec
      = { current.podSpec with
          containers := p :: sidecars current component.name
          initContainers := orAbsent inits
          volumes := orAbsent volumes } := rfl

@[simp] theorem volumes_wantedAround :
    (wantedAround component current p inits volumes strategy triggers).volumes = volumes :=
  getD_orAbsent volumes

@[simp] theorem initContainers_wantedAround :
    (wantedAround component current p inits volumes strategy triggers).initContainers = inits :=
  getD_orAbsent inits

theorem named_wantedAround (hp : p.name = component.name) :
    (wantedAround component current p inits volumes strategy triggers).named component.name
      = [p] := by
  rw [named_eq_filter, podSpec_wantedAround]
  show (p :: sidecars current component.name).filter (fun c => c.name = component.name) = [p]
  rw [List.filter_cons_of_pos (by simpa using hp)]
  refine congrArg (p :: ·) (List.filter_eq_nil_iff.mpr fun c hc => ?_)
  simpa using name_ne_of_mem_sidecars hc

theorem sidecars_wantedAround (hp : p.name = component.name) :
    sidecars (wantedAround component current p inits volumes strategy triggers) component.name
      = sidecars current component.name := by
  rw [sidecars_eq_filter, podSpec_wantedAround]
  show (p :: sidecars current component.name).filter (fun c => c.name ≠ component.name) = _
  rw [List.filter_cons_of_neg (by simpa using hp)]
  exact List.filter_eq_self.mpr fun c hc => by simpa using name_ne_of_mem_sidecars hc

/-- A change of the primary container is made to the one in front, and to no sidecar. -/
theorem modifyPrimary_wantedAround (hp : p.name = component.name) (f : Container → Container) :
    (wantedAround component current p inits volumes strategy triggers).modifyPrimary
        component.name f
      = .ok (wantedAround component current (f p) inits volumes strategy triggers) := by
  have hprimary : (wantedAround component current p inits volumes strategy triggers).primary
      component.name = .ok p := primary_eq_ok_iff.mpr (named_wantedAround hp)
  have hcontainers : changeNamed component.name f (p :: sidecars current component.name)
      = f p :: sidecars current component.name := by
    unfold changeNamed
    rw [List.map_cons, if_pos hp]
    refine congrArg (f p :: ·) ((List.map_congr_left fun c hc => ?_).trans (List.map_id _))
    rw [if_neg (name_ne_of_mem_sidecars hc)]
    rfl
  unfold modifyPrimary
  rw [hprimary]
  show Except.ok ((wantedAround component current p inits volumes strategy triggers).modifyPodSpec
    fun s => { s with containers := changeNamed component.name f s.containers }) = _
  unfold modifyPodSpec
  rw [podSpec_wantedAround]
  show Except.ok ((wantedAround component current p inits volumes strategy triggers).withPodSpec
    { current.podSpec with
      containers := changeNamed component.name f (p :: sidecars current component.name)
      initContainers := orAbsent inits
      volumes := orAbsent volumes }) = _
  rw [hcontainers]
  rfl

/-- What can be seen of a workload that was written in the shape over a live one. -/
structure PodsOver (name : String) (d current : DeploymentConfig) (primary : Container)
    (inits : List Container) (volumes : List Volume) : Prop where
  name_eq : d.name = current.name
  primary_eq : d.primary name = .ok primary
  inits_eq : d.initContainers = inits
  volumes_eq : d.volumes = volumes
  sidecars_eq : sidecars d name = sidecars current name
  frame_eq : d.podFrame = current.podFrame

theorem podsOver_overwrite (hp : p.name = component.name) :
    PodsOver component.name
      (current.overwrite (wantedAround component current p inits volumes strategy triggers))
      current p inits volumes where
  name_eq := rfl
  primary_eq := primary_eq_ok_iff.mpr (named_wantedAround hp)
  inits_eq := initContainers_wantedAround
  volumes_eq := volumes_wantedAround
  sidecars_eq := sidecars_wantedAround hp
  frame_eq := rfl

/-! ## The steps of a patch -/

/-- A container with other mounts. -/
def withMounts (c : Container) (mounts : List VolumeMount) : Container :=
  { c with volumeMounts := orAbsent mounts }

@[simp] theorem getD_withMounts (c : Container) (mounts : List VolumeMount) :
    (withMounts c mounts).volumeMounts.getD [] = mounts := getD_orAbsent mounts

/-- The mounts of a wanted primary container, with the live ones carried over to them. -/
def carriedMounts (name : String) (live p : Container) : List VolumeMount :=
  carryOver VolumeMount.name (reservedVolumes name) (p.volumeMounts.getD [])
    (live.volumeMounts.getD [])

theorem copyForward_wantedAround {live : Container}
    (hlive : current.primary component.name = .ok live) (hp : p.name = component.name) :
    copyForward component.name current
        (wantedAround component current p inits volumes strategy triggers)
      = .ok (wantedAround component current
          (withMounts p (carriedMounts component.name live p)) inits
          (carryOver Volume.name (reservedVolumes component.name) volumes current.volumes)
          strategy triggers) := by
  have hvolumes : (wantedAround component current p inits volumes strategy triggers).modifyPodSpec
      (fun s => { s with
        volumes := orAbsent (carryOver Volume.name (reservedVolumes component.name)
          (s.volumes.getD []) current.volumes) })
      = wantedAround component current p inits
          (carryOver Volume.name (reservedVolumes component.name) volumes current.volumes)
          strategy triggers := by
    unfold modifyPodSpec
    rw [podSpec_wantedAround]
    show (wantedAround component current p inits volumes strategy triggers).withPodSpec
      { current.podSpec with
        containers := p :: sidecars current component.name
        initContainers := orAbsent inits
        volumes := orAbsent (carryOver Volume.name (reservedVolumes component.name)
          ((orAbsent volumes).getD []) current.volumes) } = _
    rw [getD_orAbsent]
    rfl
  unfold copyForward
  rw [hlive]
  show ((DeploymentConfig.modifyPrimary _ _ _).mapError _ : Except Failure DeploymentConfig) = _
  rw [hvolumes, modifyPrimary_wantedAround hp]
  rfl

/-- What is left of the shape when dev mode is taken out of it. -/
theorem stripDevMode_wantedAround {d : DeploymentConfig} (hd : d.name = component.name)
    (hcheck : checkDevMode d = .ok ()) (hp : p.name = component.name) :
    stripDevMode d (wantedAround component current p inits volumes strategy triggers)
      = .ok (wantedAround component current
          { p with
            volumeMounts := dropNamed VolumeMount.name (reservedVolumes component.name)
              p.volumeMounts }
          (inits.filter fun c => c.name ∉ bootstrapContainers)
          (volumes.filter fun v => v.name ∉ reservedVolumes component.name)
          strategy triggers) := by
  have hspec : (wantedAround component current p inits volumes strategy triggers).modifyPodSpec
      (fun s => { s with
        volumes := dropNamed Volume.name (reservedVolumes component.name) s.volumes
        initContainers := dropNamed Container.name bootstrapContainers s.initContainers })
      = wantedAround component current p
          (inits.filter fun c => c.name ∉ bootstrapContainers)
          (volumes.filter fun v => v.name ∉ reservedVolumes component.name)
          strategy triggers := by
    unfold modifyPodSpec
    rw [podSpec_wantedAround]
    show (wantedAround component current p inits volumes strategy triggers).withPodSpec
      { current.podSpec with
        containers := p :: sidecars current component.name
        initContainers := dropNamed Container.name bootstrapContainers (orAbsent inits)
        volumes := dropNamed Volume.name (reservedVolumes component.name) (orAbsent volumes) } = _
    rw [dropNamed_orAbsent, dropNamed_orAbsent]
    rfl
  unfold stripDevMode
  rw [hcheck, hd]
  show DeploymentConfig.modifyPrimary _ _ _ = _
  rw [hspec, modifyPrimary_wantedAround hp]

end Shape

/-- The object to write, once the live volumes and mounts are carried over. -/
theorem prepareUpdate_eq_map {name : String} {current desired carried : DeploymentConfig}
    {live : Container} (hlive : current.primary name = .ok live)
    (hcarried : copyForward name current desired = .ok carried) (hook : Option PatchHook) :
    prepareUpdate name current desired hook
      = (match hook with
          | none => Except.ok carried
          | some hook => hook current carried).map current.overwrite := by
  unfold prepareUpdate
  rw [hlive]
  show (copyForward name current desired >>= _) = _
  rw [hcarried]
  cases hook with
  | none => rfl
  | some hook =>
    show (hook current carried >>= _) = (hook current carried).map current.overwrite
    cases hook current carried with
    | error f => rfl
    | ok d => rfl

/-! ## The two modes -/

/-- The primary container of a wanted workload in dev mode. -/
def devModePrimary (component : String) (live : Container) (builder : BuilderImage)
    (bootstrap : List EnvVar) (ports : List ContainerPort) : Container where
  name := component
  image := some builder.pullReference
  command := some [supervisorDir ++ "/bin/supervisord"]
  args := some ["-c", supervisorDir ++ "/conf/supervisor.conf"]
  ports := orAbsent ports
  env := some (mergeEnv (live.env.getD []) bootstrap)
  resources := live.resources
  volumeMounts := some [scratchMount, appDataMount component]

/-- The init containers of a wanted workload in dev mode. -/
def devModeInits (component : String) (current : DeploymentConfig) (builder : BuilderImage)
    (supervisorImage : String) : List Container :=
  userInits current ++
    [copySupervisorContainer supervisorImage, copyFilesContainer component builder.pullReference]

/-- The primary container of a wanted workload in build mode. -/
def buildModePrimary (component : String) (live : Container) (image : ImageReference) :
    Container where
  name := component
  image := some image.render
  ports := live.ports
  env := live.env
  resources := live.resources

theorem devModeWorkload_eq_ok_iff {component : ComponentMeta} {current wanted : DeploymentConfig}
    {live : Container} {builder : BuilderImage} {supervisorImage : String} :
    devModeWorkload component current live builder supervisorImage = .ok wanted ↔
      ∃ bootstrap ports, builder.bootstrapEnv = .ok bootstrap ∧ builder.ports = .ok ports ∧
        wantedAround component current (devModePrimary component.name live builder bootstrap ports)
          (devModeInits component.name current builder supervisorImage)
          (devModeVolumes component.name) (some { type := some "Recreate" })
          (wantedTriggers component.name builder.reference) = wanted := by
  unfold devModeWorkload
  simp only [bind_eq_ok_iff, exists_and_left]
  constructor
  · rintro ⟨bootstrap, hb, ports, hp, h⟩
    exact ⟨bootstrap, hb, ports, hp, Except.ok.inj h⟩
  · rintro ⟨bootstrap, hb, ports, hp, h⟩
    exact ⟨bootstrap, hb, ports, hp, congrArg Except.ok h⟩

theorem buildModeWorkload_eq (component : ComponentMeta) (current : DeploymentConfig)
    (live : Container) (image : ImageReference) :
    buildModeWorkload component current live image
      = wantedAround component current (buildModePrimary component.name live image)
          current.initContainers [] current.spec.strategy (wantedTriggers component.name image) :=
  rfl

/-- What is carried over to all that is reserved comes after it, the reserved names left out. -/
theorem carryOver_reserved {α : Type} {nameOf : α → String} {names : List String} {old : List α}
    (hold : old.map nameOf = names) (new : List α) :
    carryOver nameOf names old new = old ++ firstNamed nameOf names new := by
  rw [carryOver_eq_append, hold]
  exact congrArg (old ++ ·) (firstNamed_congr (fun n => by rw [List.mem_append, or_self]) new)

/-- What is carried over to nothing holds no reserved name. -/
theorem filter_carryOver_nil {α : Type} {nameOf : α → String} (names : List String)
    (new : List α) :
    (carryOver nameOf names [] new).filter (fun x => nameOf x ∉ names)
      = firstNamed nameOf names new := by
  rw [carryOver_eq_append, List.map_nil, List.append_nil, List.nil_append]
  exact List.filter_eq_self.mpr fun x hx => by simpa using (mem_of_mem_firstNamed hx).2

section Switches

variable {component : ComponentMeta} {current wanted : DeploymentConfig} {live : Container}

/-- The object that a switch to dev mode writes. -/
theorem prepareUpdate_devMode {builder : BuilderImage} {supervisorImage : String}
    (hlive : current.primary component.name = .ok live)
    (hwanted : devModeWorkload component current live builder supervisorImage = .ok wanted) :
    ∃ bootstrap ports, builder.bootstrapEnv = .ok bootstrap ∧ builder.ports = .ok ports ∧
      prepareUpdate component.name current wanted none
        = .ok (current.overwrite (wantedAround component current
            (withMounts (devModePrimary component.name live builder bootstrap ports)
              ([scratchMount, appDataMount component.name] ++
                firstNamed VolumeMount.name (reservedVolumes component.name)
                  (live.volumeMounts.getD [])))
            (devModeInits component.name current builder supervisorImage)
            (devModeVolumes component.name ++
              firstNamed Volume.name (reservedVolumes component.name) current.volumes)
            (some { type := some "Recreate" })
            (wantedTriggers component.name builder.reference))) := by
  obtain ⟨bootstrap, ports, hbootstrap, hports, rfl⟩ := devModeWorkload_eq_ok_iff.mp hwanted
  refine ⟨bootstrap, ports, hbootstrap, hports, ?_⟩
  have hvolumes : (devModeVolumes component.name).map Volume.name
      = reservedVolumes component.name := rfl
  have hmounts : ((devModePrimary component.name live builder bootstrap ports).volumeMounts.getD
      []).map VolumeMount.name = reservedVolumes component.name := rfl
  rw [prepareUpdate_eq_map hlive (copyForward_wantedAround hlive rfl) none,
    carryOver_reserved hvolumes]
  unfold carriedMounts
  rw [carryOver_reserved hmounts]
  rfl

/-- The object that a switch back to build mode writes. -/
theorem prepareUpdate_buildMode {image : ImageReference} (hname : current.name = component.name)
    (hlive : current.primary component.name = .ok live)
    (hcheck : checkDevMode current = .ok ()) :
    prepareUpdate component.name current (buildModeWorkload component current live image)
        (some stripDevMode)
      = .ok (current.overwrite (wantedAround component current
          (withMounts (buildModePrimary component.name live image)
            (firstNamed VolumeMount.name (reservedVolumes component.name)
              (live.volumeMounts.getD [])))
          (userInits current)
          (firstNamed Volume.name (reservedVolumes component.name) current.volumes)
          current.spec.strategy (wantedTriggers component.name image))) := by
  rw [buildModeWorkload_eq, prepareUpdate_eq_map hlive (copyForward_wantedAround hlive rfl)]
  show (stripDevMode current _).map _ = _
  rw [stripDevMode_wantedAround hname hcheck rfl, filter_carryOver_nil]
  unfold withMounts carriedMounts
  rw [dropNamed_orAbsent]
  have hmounts : ((buildModePrimary component.name live image).volumeMounts.getD []) = [] := rfl
  rw [hmounts, filter_carryOver_nil]
  rfl

/-- What can be seen of a workload that was switched to dev mode. -/
theorem podsOver_devMode {builder : BuilderImage} {supervisorImage : String}
    (hlive : current.primary component.name = .ok live)
    (hwanted : devModeWorkload component current live builder supervisorImage = .ok wanted) :
    ∃ dev primary, prepareUpdate component.name current wanted none = .ok dev ∧
      PodsOver component.name dev current primary
        (devModeInits component.name current builder supervisorImage)
        (devModeVolumes component.name ++
          firstNamed Volume.name (reservedVolumes component.name) current.volumes) ∧
      primary.volumeMounts.getD [] = [scratchMount, appDataMount component.name] ++
        firstNamed VolumeMount.name (reservedVolumes component.name)
          (live.volumeMounts.getD []) := by
  obtain ⟨bootstrap, ports, -, -, hupdate⟩ := prepareUpdate_devMode hlive hwanted
  exact ⟨_, _, hupdate, podsOver_overwrite rfl, getD_withMounts _ _⟩

/-- What can be seen of a workload that was switched back to build mode. -/
theorem podsOver_buildMode (image : ImageReference) (hname : current.name = component.name)
    (hlive : current.primary component.name = .ok live)
    (hcheck : checkDevMode current = .ok ()) :
    ∃ built primary,
      prepareUpdate component.name current (buildModeWorkload component current live image)
        (some stripDevMode) = .ok built ∧
      PodsOver component.name built current primary (userInits current)
        (firstNamed Volume.name (reservedVolumes component.name) current.volumes) ∧
      primary.volumeMounts.getD [] = firstNamed VolumeMount.name (reservedVolumes component.name)
        (live.volumeMounts.getD []) :=
  ⟨_, _, prepareUpdate_buildMode hname hlive hcheck, podsOver_overwrite rfl, getD_withMounts _ _⟩

end Switches

/-! ## Being in dev mode -/

/-- The check of a workload that has a primary container, one question after the other. -/
theorem checkDevMode_eq {d : DeploymentConfig} {live : Container}
    (hlive : d.primary d.name = .ok live) :
    checkDevMode d =
      if d.isEmptyDir scratchVolume = false then
        .error (.corrupt d.name (.noEmptyDir scratchVolume))
      else if d.claimOf (appDataVolume d.name) ≠ some (appDataClaim d.name) then
        .error (.corrupt d.name (.noClaimVolume (appDataVolume d.name) (appDataClaim d.name)))
      else match (reservedVolumes d.name).find? fun v =>
          v ∉ (live.volumeMounts.getD []).map (·.name) with
        | some missing => .error (.corrupt d.name (.noMount missing d.name))
        | none => .ok () := by
  have hmounts : d.mounts d.name = .ok (live.volumeMounts.getD []) := by
    unfold mounts
    rw [hlive]
    rfl
  unfold checkDevMode
  dsimp only
  rw [hmounts]
  cases hscratch : d.isEmptyDir scratchVolume with
  | false => rfl
  | true =>
    by_cases hclaim : d.claimOf (appDataVolume d.name) ≠ some (appDataClaim d.name)
    · rw [if_pos hclaim, if_pos hclaim]
      rfl
    · rw [if_neg hclaim, if_neg hclaim]
      rfl

/-- A workload passes the check exactly if both volumes of dev mode are what they have to be and
the primary container mounts both. -/
theorem checkDevMode_eq_ok_iff {d : DeploymentConfig} {live : Container}
    (hlive : d.primary d.name = .ok live) :
    checkDevMode d = .ok () ↔
      d.isEmptyDir scratchVolume = true ∧
        d.claimOf (appDataVolume d.name) = some (appDataClaim d.name) ∧
        ∀ v ∈ reservedVolumes d.name, v ∈ (live.volumeMounts.getD []).map (·.name) := by
  rw [checkDevMode_eq hlive]
  by_cases hscratch : d.isEmptyDir scratchVolume = false
  · rw [if_pos hscratch, hscratch]
    exact ⟨fun h => (nomatch h), fun h => (nomatch h.1)⟩
  rw [if_neg hscratch]
  by_cases hclaim : d.claimOf (appDataVolume d.name) ≠ some (appDataClaim d.name)
  · rw [if_pos hclaim]
    exact ⟨fun h => (nomatch h), fun h => absurd h.2.1 hclaim⟩
  rw [if_neg hclaim]
  cases hfind : (reservedVolumes d.name).find? fun v =>
      v ∉ (live.volumeMounts.getD []).map (·.name) with
  | some missing =>
    refine ⟨fun h => (nomatch h), fun h => ?_⟩
    have hmissing := List.find?_some hfind
    exact absurd (h.2.2 missing (List.mem_of_find?_eq_some hfind)) (by simpa using hmissing)
  | none =>
    refine ⟨fun _ => ⟨eq_true_of_ne_false hscratch, Decidable.not_not.mp hclaim, ?_⟩, fun _ => rfl⟩
    intro v hv
    simpa using List.find?_eq_none.mp hfind v hv

theorem scratchVolume_ne_appDataVolume (component : String) :
    scratchVolume ≠ appDataVolume component := by
  intro h
  -- The two end differently, whatever the name of the component is.
  have hends := congrArg (fun s => s.toList.reverse.take 8) h
  have happData : (appDataVolume component).toList.reverse.take 8 = "-s2idata".toList.reverse := by
    unfold appDataVolume
    rw [String.toList_append, List.reverse_append]
    rfl
  rw [happData] at hends
  exact absurd hends (by decide)

/-- A workload that shows the volumes and mounts of dev mode in front passes the check. -/
theorem checkDevMode_of_front {d : DeploymentConfig} {live : Container} {volumes : List Volume}
    {mounts : List VolumeMount} (hlive : d.primary d.name = .ok live)
    (hvolumes : d.volumes = devModeVolumes d.name ++ volumes)
    (hmounts : live.volumeMounts.getD [] = [scratchMount, appDataMount d.name] ++ mounts) :
    checkDevMode d = .ok () := by
  have hscratch : d.volume? scratchVolume =
      some { name := scratchVolume, emptyDir := some {} } := by
    unfold volume?
    rw [hvolumes]
    exact List.find?_cons_of_pos (by simp)
  have happData : d.volume? (appDataVolume d.name) = some {
      name := appDataVolume d.name
      persistentVolumeClaim := some { claimName := appDataClaim d.name } } := by
    unfold volume?
    rw [hvolumes]
    show List.find? _ (_ :: _ :: volumes) = _
    rw [List.find?_cons_of_neg (by simpa using scratchVolume_ne_appDataVolume d.name)]
    exact List.find?_cons_of_pos (by simp)
  refine (checkDevMode_eq_ok_iff hlive).mpr ⟨?_, ?_, ?_⟩
  · unfold isEmptyDir
    rw [hscratch]
    rfl
  · unfold claimOf
    rw [happData]
    rfl
  · intro v hv
    rw [hmounts, List.map_append]
    exact List.mem_append_left _ hv

end InnerLoop
