import InnerLoop.Proofs.RoundTrip

/-!
# Switching back

A switch to build mode looks at the live workload before it writes anything: the first volume of
either name of dev mode has to be what dev mode made it, and the primary container has to mount
both. Of volumes that share a name only the first counts. What is written shows nothing of dev mode
however much of it the live workload had, because its names are left out of every list that is
carried over.

- `Revertible`: what the live workload has to show.
- `checkDevMode_eq_ok_iff_revertible`, `corrupt_of_checkDevMode`: the check asks for just that, and
  finds every other workload corrupt.
- `PodsOver.inBuildMode`: carrying over leaves nothing of dev mode.
- `reverted_ok_iff`: **when a switch back is accepted**, and what it leaves.
-/

namespace InnerLoop

open DeploymentConfig

/-- What a workload has to show to be switched back, if `live` is its primary container. -/
structure Revertible (d : DeploymentConfig) (name : String) (live : Container) : Prop where
  /-- The first volume with the name of the scratch volume lives in the pod only. -/
  scratch : ∃ v, d.volumes.find? (fun v => v.name = scratchVolume) = some v ∧
    v.emptyDir.isSome = true
  /-- The first volume with the name of the app-data volume is bound to its claim. -/
  appData : ∃ v c, d.volumes.find? (fun v => v.name = appDataVolume name) = some v ∧
    v.persistentVolumeClaim = some c ∧ c.claimName = appDataClaim name
  /-- Both are mounted. -/
  mounts : ∀ v ∈ reservedVolumes name, ∃ m ∈ live.volumeMounts.getD [], m.name = v

/-! ## The check -/

section Check

variable {d : DeploymentConfig} {live : Container}

theorem isEmptyDir_eq_true_iff {name : String} :
    d.isEmptyDir name = true ↔
      ∃ v, d.volumes.find? (fun v => v.name = name) = some v ∧ v.emptyDir.isSome = true := by
  unfold isEmptyDir volume?
  cases d.volumes.find? (fun v => v.name = name) with
  | none => simp
  | some v => simp

theorem claimOf_eq_some_iff {name claim : String} :
    d.claimOf name = some claim ↔
      ∃ v c, d.volumes.find? (fun v => v.name = name) = some v ∧
        v.persistentVolumeClaim = some c ∧ c.claimName = claim := by
  unfold claimOf volume?
  simp only [Option.bind_eq_some_iff, Option.map_eq_some_iff]
  constructor
  · rintro ⟨v, hv, c, hc, hclaim⟩
    exact ⟨v, c, hv, hc, hclaim⟩
  · rintro ⟨v, c, hv, hc, hclaim⟩
    exact ⟨v, hv, c, hc, hclaim⟩

/-- The check passes just the workloads that can be switched back. -/
theorem checkDevMode_eq_ok_iff_revertible (hlive : d.primary d.name = .ok live) :
    checkDevMode d = .ok () ↔ Revertible d d.name live := by
  rw [checkDevMode_eq_ok_iff hlive]
  constructor
  · rintro ⟨hscratch, hclaim, hmounts⟩
    refine ⟨isEmptyDir_eq_true_iff.mp hscratch, claimOf_eq_some_iff.mp hclaim, fun v hv => ?_⟩
    exact List.mem_map.mp (hmounts v hv)
  · rintro ⟨hscratch, hclaim, hmounts⟩
    refine ⟨isEmptyDir_eq_true_iff.mpr hscratch, claimOf_eq_some_iff.mpr hclaim, fun v hv => ?_⟩
    exact List.mem_map.mpr (hmounts v hv)

/-- A workload with a primary container fails the check only for being corrupt. -/
theorem corrupt_of_checkDevMode {f : Failure} (hlive : d.primary d.name = .ok live)
    (h : checkDevMode d = .error f) : ∃ defect, f = .corrupt d.name defect := by
  rw [checkDevMode_eq hlive] at h
  split at h
  · cases h
    exact ⟨_, rfl⟩
  split at h
  · cases h
    exact ⟨_, rfl⟩
  split at h
  next missing hfind =>
    cases h
    exact ⟨_, rfl⟩
  next => cases h

end Check

/-! ## What is written -/

/-- Nothing of dev mode is left in a workload that was written in the shape of build mode. -/
theorem PodsOver.inBuildMode {name : String} {built current : DeploymentConfig}
    {p live : Container} (h : PodsOver name built current p (userInits current)
      (firstNamed Volume.name (reservedVolumes name) current.volumes))
    (hmounts : p.volumeMounts.getD [] =
      firstNamed VolumeMount.name (reservedVolumes name) (live.volumeMounts.getD [])) :
    built.InBuildMode name := by
  refine ⟨fun v hv => ?volumes, fun c hc m hm => ?mounts, fun c hc => ?inits⟩
  case volumes =>
    rw [h.volumes_eq] at hv
    exact (mem_of_mem_firstNamed hv).2
  case mounts =>
    rw [primary_eq_ok_iff.mp h.primary_eq] at hc
    rw [List.mem_singleton.mp hc, hmounts] at hm
    exact (mem_of_mem_firstNamed hm).2
  case inits =>
    rw [h.inits_eq] at hc
    exact of_decide_eq_true (List.mem_filter.mp hc).2

/-- The object that a switch back writes over a workload whose primary container is `live`. -/
def reverted (component : ComponentMeta) (current : DeploymentConfig) (live : Container)
    (image : ImageReference) : Except Failure DeploymentConfig :=
  prepareUpdate component.name current (buildModeWorkload component current live image)
    (some stripDevMode)

section Reverting

variable {component : ComponentMeta} {current : DeploymentConfig} {live : Container}

/-- A workload that fails the check is not switched back. -/
theorem reverted_of_checkDevMode_error {f : Failure} (image : ImageReference)
    (hlive : current.primary component.name = .ok live) (h : checkDevMode current = .error f) :
    reverted component current live image = .error f := by
  unfold reverted
  rw [buildModeWorkload_eq, prepareUpdate_eq_map hlive (copyForward_wantedAround hlive rfl)]
  show (stripDevMode current _).map _ = _
  unfold stripDevMode
  rw [h]
  rfl

/-- **When a switch back is accepted.** A workload with one primary container, whatever it is, is
switched back exactly if it is revertible, and is refused as corrupt if it is not. What is written
has no volume with a reserved name, no mount of one on the primary container and no init container
of dev mode. -/
theorem reverted_ok_iff (image : ImageReference) (hname : current.name = component.name)
    (hlive : current.primary component.name = .ok live) :
    ((∃ built, reverted component current live image = .ok built) ↔
      Revertible current component.name live) ∧
    (¬ Revertible current component.name live →
      ∃ defect, reverted component current live image =
        .error (.corrupt component.name defect)) ∧
    ∀ built, reverted component current live image = .ok built →
      built.InBuildMode component.name := by
  have hcheck : checkDevMode current = .ok () ↔ Revertible current component.name live :=
    hname ▸ checkDevMode_eq_ok_iff_revertible (hname ▸ hlive)
  by_cases h : Revertible current component.name live
  case pos =>
    obtain ⟨built, p, hbuilt, hpods, hmounts⟩ :=
      podsOver_buildMode image hname hlive (hcheck.mpr h)
    have hok : reverted component current live image = .ok built := hbuilt
    refine ⟨⟨fun _ => h, fun _ => ⟨built, hok⟩⟩, fun hnot => absurd h hnot, ?_⟩
    intro built' hbuilt'
    cases hok.symm.trans hbuilt'
    exact hpods.inBuildMode hmounts
  case neg =>
    -- The check is the only step of a switch back that can fail with a primary container there.
    obtain ⟨defect, herror⟩ : ∃ defect, reverted component current live image =
        .error (.corrupt component.name defect) := by
      cases hresult : checkDevMode current with
      | ok _ => exact absurd (hcheck.mp hresult) h
      | error f =>
        obtain ⟨defect, rfl⟩ := corrupt_of_checkDevMode (hname ▸ hlive) hresult
        exact ⟨defect, hname ▸ reverted_of_checkDevMode_error image hlive hresult⟩
    have hnone : ∀ built, reverted component current live image ≠ .ok built := fun built hbuilt =>
      nomatch herror.symm.trans hbuilt
    exact ⟨⟨fun ⟨built, hbuilt⟩ => absurd hbuilt (hnone built), fun h' => absurd h' h⟩,
      fun _ => ⟨defect, herror⟩, fun built hbuilt => absurd hbuilt (hnone built)⟩

end Reverting

/-- The primary container of a workload that went to dev mode more than once. -/
def doubledContainer : Container where
  name := "web"
  volumeMounts := some [scratchMount, appDataMount "web",
    { name := "cache", mountPath := "/cache" }, { name := scratchVolume, mountPath := "/old" }]

/-- A workload in dev mode that shows most pieces of it twice; the later volumes of a name are not
what dev mode makes. -/
def doubledWorkload : DeploymentConfig where
  metadata := { name := some "web" }
  spec := { template := some { spec := some {
    containers := [{ name := "proxy" }, doubledContainer]
    initContainers := some [{ name := copyFiles }, { name := "migrate" },
      { name := copySupervisor }, { name := copyFiles }]
    volumes := some (devModeVolumes "web" ++
      [{ name := "cache" }, { name := scratchVolume }, { name := appDataVolume "web" }]) } } }

theorem reverted_ok_iff_doubled :
    doubledWorkload.name = "web" ∧
    doubledWorkload.primary "web" = .ok doubledContainer ∧
    Revertible doubledWorkload "web" doubledContainer ∧
    ∃ built, reverted { name := "web" } doubledWorkload doubledContainer shopImage = .ok built ∧
      built.InBuildMode "web" := by
  have hlive : doubledWorkload.primary "web" = .ok doubledContainer :=
    primary_eq_ok_iff.mpr (by decide)
  have hrevertible : Revertible doubledWorkload "web" doubledContainer :=
    ⟨⟨_, rfl, rfl⟩, ⟨_, _, rfl, rfl, rfl⟩, by decide⟩
  obtain ⟨hiff, -, hclean⟩ :=
    @reverted_ok_iff { name := "web" } doubledWorkload doubledContainer shopImage rfl hlive
  obtain ⟨built, hbuilt⟩ := hiff.mpr hrevertible
  exact ⟨rfl, hlive, hrevertible, built, hbuilt, hclean built hbuilt⟩

end InnerLoop
