import InnerLoop.Proofs.Descriptor

/-!
# There and back

A workload that is switched to dev mode and back to build mode has the pods that it had before, but
for what the switch is about: the image of the primary container and how it is started.

- `SamePods`: two workloads have the same volumes, mounts, init containers and sidecars, and agree
  on the rest of the pod specification.
- `dev_then_build_restores`: the way there and back never fails and restores them. The lists survive
  item by item, because with distinct names carrying over leaves nothing out.
-/

namespace InnerLoop

open DeploymentConfig

/-- The pods of two workloads agree in all that a switch of the mode has to give back. A list that
is absent counts as empty. -/
structure SamePods (name : String) (b c : DeploymentConfig) : Prop where
  volumes : b.volumes = c.volumes
  mounts : ∃ p q, b.primary name = .ok p ∧ c.primary name = .ok q ∧
    p.volumeMounts.getD [] = q.volumeMounts.getD []
  inits : b.initContainers = c.initContainers
  sidecars : sidecars b name = sidecars c name
  /-- All other fields of the pod specification, whatever they are. -/
  frame : b.podFrame = c.podFrame

/-- No bootstrap container, no change. -/
theorem userInits_eq_self {d : DeploymentConfig}
    (h : ∀ c ∈ d.initContainers, c.name ∉ bootstrapContainers) :
    userInits d = d.initContainers :=
  List.filter_eq_self.mpr fun c hc => by simpa using h c hc

/-- Of the init containers in dev mode, those of the user are the ones that were there. -/
theorem filter_devModeInits {component : String} {current : DeploymentConfig}
    {builder : BuilderImage} {supervisorImage : String} :
    (devModeInits component current builder supervisorImage).filter
        (fun c => c.name ∉ bootstrapContainers)
      = userInits current := by
  unfold devModeInits
  rw [List.filter_append]
  have huser : (userInits current).filter (fun c => c.name ∉ bootstrapContainers)
      = userInits current :=
    List.filter_eq_self.mpr fun c hc => (List.mem_filter.mp hc).2
  have hboot : [copySupervisorContainer supervisorImage,
      copyFilesContainer component builder.pullReference].filter
        (fun c => c.name ∉ bootstrapContainers) = [] := rfl
  rw [huser, hboot, List.append_nil]

/-- The items that dev mode puts in front are passed over on the way back. -/
theorem firstNamed_front {α : Type} {nameOf : α → String} {names : List String} {front l : List α}
    (hfront : front.map nameOf = names) (hd : (l.map nameOf).Nodup)
    (hl : ∀ x ∈ l, nameOf x ∉ names) :
    firstNamed nameOf names (front ++ firstNamed nameOf names l) = l := by
  rw [firstNamed_append_of_seen fun x hx => hfront ▸ List.mem_map_of_mem hx,
    firstNamed_eq_self hd hl, firstNamed_eq_self hd hl]

/-- **There and back**: a workload in build mode, whose volumes have distinct names and whose
primary container mounts distinct volumes, can be switched to dev mode and back, and then has the
pods that it had. -/
theorem dev_then_build_restores {current wanted : DeploymentConfig} {name supervisorImage : String}
    {live : Container} {devMeta buildMeta : ComponentMeta} {builder : BuilderImage}
    {image : ImageReference}
    (hname : current.name = name) (hlive : current.primary name = .ok live)
    (hvolumes : (current.volumes.map (·.name)).Nodup)
    (hmounts : ((live.volumeMounts.getD []).map (·.name)).Nodup)
    (hmode : current.InBuildMode name)
    (hdev : devMeta.name = name) (hbuild : buildMeta.name = name)
    (hwanted : devModeWorkload devMeta current live builder supervisorImage = .ok wanted) :
    ∃ dev liveDev built,
      prepareUpdate name current wanted none = .ok dev ∧
      dev.primary name = .ok liveDev ∧
      prepareUpdate name dev (buildModeWorkload buildMeta dev liveDev image) (some stripDevMode)
        = .ok built ∧
      SamePods name built current := by
  obtain ⟨hfreeVolumes, hfreeMounts, hfreeInits⟩ := hmode
  have hfree : ∀ m ∈ live.volumeMounts.getD [], m.name ∉ reservedVolumes name :=
    hfreeMounts live (by rw [primary_eq_ok_iff.mp hlive]; exact List.mem_singleton_self live)
  subst hdev
  -- The way there: what dev mode needs comes in front, and nothing is left out behind it.
  obtain ⟨dev, liveDev, hthere, hdev, hdevMounts⟩ := podsOver_devMode hlive hwanted
  have hdevName : dev.name = devMeta.name := hdev.name_eq.trans hname
  -- The way back: what was written passes the check, so stripping does not fail.
  have hcheck : checkDevMode dev = .ok () :=
    checkDevMode_of_front (hdevName.symm ▸ hdev.primary_eq) (hdevName.symm ▸ hdev.volumes_eq)
      (hdevName.symm ▸ hdevMounts)
  obtain ⟨built, liveBuilt, hback, hbuilt, hbuiltMounts⟩ :=
    podsOver_buildMode image (hdevName.trans hbuild.symm)
      (hbuild.symm ▸ hdev.primary_eq) hcheck
  rw [hbuild] at hback hbuilt hbuiltMounts
  refine ⟨dev, liveDev, built, hthere, hdev.primary_eq, hback, ?_⟩
  refine { volumes := ?_, mounts := ⟨liveBuilt, live, hbuilt.primary_eq, hlive, ?_⟩, inits := ?_,
           sidecars := hbuilt.sidecars_eq.trans hdev.sidecars_eq,
           frame := hbuilt.frame_eq.trans hdev.frame_eq }
  · rw [hbuilt.volumes_eq, hdev.volumes_eq]
    exact firstNamed_front rfl hvolumes hfreeVolumes
  · rw [hbuiltMounts, hdevMounts]
    exact firstNamed_front rfl hmounts hfree
  · rw [hbuilt.inits_eq]
    unfold userInits
    rw [hdev.inits_eq, filter_devModeInits, userInits_eq_self hfreeInits]

/-- The primary container of the shop: it mounts a volume of the user's own. -/
def shopContainer : Container where
  name := "web"
  image := some "web:1"
  volumeMounts := some [{ name := "cache", mountPath := "/cache" }]

/-- A workload in build mode, with a volume, a sidecar and an init container of the user's own. -/
def shopWorkload : DeploymentConfig where
  metadata := {
    name := some "web"
    labels := some (.singleton "app" "shop")
    annotations := some (.singleton sourceTypeKey sourceTypeGit) }
  spec := { template := some { spec := some {
    containers := [shopContainer, { name := "proxy" }]
    initContainers := some [{ name := "migrate" }]
    volumes := some [{ name := "cache", emptyDir := some {} }] } } }

/-- A builder image that says where its scripts are. -/
def shopBuilder : BuilderImage where
  reference := { ns := none, name := "nodejs", tag := some "latest", digest := none }
  metadata := {
    labels := .singleton BuilderImage.scriptsUrlLabel "image:///usr/libexec/s2i" }

/-- The image that the shop is built to. -/
def shopImage : ImageReference := { ns := none, name := "web", tag := some "2", digest := none }

theorem primary_shopWorkload : shopWorkload.primary "web" = .ok shopContainer :=
  primary_eq_ok_iff.mpr (by decide)

theorem inBuildMode_shopWorkload : shopWorkload.InBuildMode "web" := by
  unfold InBuildMode
  decide

theorem dev_then_build_restores_shop :
    ∃ wanted, devModeWorkload (.ofWorkload shopWorkload) shopWorkload shopContainer shopBuilder
        "sup:1" = .ok wanted ∧
      ∃ dev liveDev built,
        prepareUpdate "web" shopWorkload wanted none = .ok dev ∧
        dev.primary "web" = .ok liveDev ∧
        prepareUpdate "web" dev
          (buildModeWorkload (.ofWorkload shopWorkload) dev liveDev shopImage) (some stripDevMode)
          = .ok built ∧
        SamePods "web" built shopWorkload := by
  have hwanted : devModeWorkload (.ofWorkload shopWorkload) shopWorkload shopContainer shopBuilder
      "sup:1" = .ok _ := devModeWorkload_eq_ok_iff.mpr ⟨_, _, rfl, rfl, rfl⟩
  exact ⟨_, hwanted, dev_then_build_restores rfl primary_shopWorkload (by decide) (by decide)
    inBuildMode_shopWorkload rfl rfl hwanted⟩

end InnerLoop
