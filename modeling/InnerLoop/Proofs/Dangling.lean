import InnerLoop.Proofs.InPlace

/-!
# Mounts of volumes that are not there

A pod does not start if one of its containers mounts a volume that the workload does not declare.
Volumes are shared by all containers, but mounts are taken away from the primary container only. So
an operation that drops a volume leaves the mounts behind that sidecars and init containers have of
it.

- `DeploymentConfig.NoDangling`: whatever a container mounts is declared.
- `PodsOver.noDangling_dropped_iff`: what dropping volumes does to that, in whichever way.
- `mounts_stay_declared_iff`: attaching a claim and the switch to dev mode always keep it;
  **detaching a claim and the switch to build mode keep it exactly if no other container mounts what
  they drop**.
- `dropped_volume_leaves_mounts`: a workload for which they do not.
-/

namespace InnerLoop

open DeploymentConfig

/-! ## What is mounted is declared -/

/-- The container mounts a volume. -/
def Container.Mounts (c : Container) (volume : String) : Prop :=
  volume ∈ (c.volumeMounts.getD []).map (·.name)

/-- Containers mount only volumes of some names. -/
def MountsAmong (l : List Container) (names : List String) : Prop :=
  ∀ c ∈ l, ∀ v, c.Mounts v → v ∈ names

/-- Every mount of a container or an init container is that of a volume of the workload. -/
def DeploymentConfig.NoDangling (d : DeploymentConfig) : Prop :=
  MountsAmong (d.containers ++ d.initContainers) (d.volumes.map (·.name))

theorem MountsAmong.mono {l l' : List Container} {names names' : List String}
    (h : MountsAmong l names) (hl : ∀ c ∈ l', c ∈ l) (hnames : ∀ v ∈ names, v ∈ names') :
    MountsAmong l' names' :=
  fun c hc v hv => hnames v (h c (hl c hc) v hv)

theorem mountsAmong_append {l l' : List Container} {names : List String} :
    MountsAmong (l ++ l') names ↔ MountsAmong l names ∧ MountsAmong l' names :=
  List.forall_mem_append

/-- When names are dropped, what is mounted is still declared exactly if no dropped name is
mounted. -/
theorem mountsAmong_dropped_iff {l : List Container} {names names' gone : List String}
    (h : MountsAmong l names) (hdrop : ∀ v, v ∈ names' ↔ v ∈ names ∧ v ∉ gone) :
    MountsAmong l names' ↔ ∀ c ∈ l, ∀ v ∈ gone, ¬ c.Mounts v := by
  constructor
  · intro h' c hc v hv hm
    exact ((hdrop v).mp (h' c hc v hm)).2 hv
  · intro hfree c hc v hm
    exact (hdrop v).mpr ⟨h c hc v hm, fun hv => hfree c hc v hv hm⟩

/-- The names of the first items are all names but those that were seen. -/
theorem mem_map_firstNamed_iff {α : Type} {nameOf : α → String} {seen : List String} {l : List α}
    {n : String} : n ∈ (firstNamed nameOf seen l).map nameOf ↔ n ∈ l.map nameOf ∧ n ∉ seen := by
  constructor
  · intro h
    obtain ⟨x, hx, rfl⟩ := List.mem_map.mp h
    obtain ⟨hmem, hseen⟩ := mem_of_mem_firstNamed hx
    exact ⟨List.mem_map_of_mem hmem, hseen⟩
  · rintro ⟨h, hseen⟩
    obtain ⟨x, hx, rfl⟩ := List.mem_map.mp h
    cases hfind : l.find? fun y => nameOf y = nameOf x with
    | none => exact absurd (decide_eq_true rfl) (List.find?_eq_none.mp hfind x hx)
    | some y =>
      have hy : nameOf y = nameOf x := by simpa using List.find?_some hfind
      rw [← hy] at hseen hfind ⊢
      exact List.mem_map_of_mem (mem_firstNamed_iff.mpr ⟨hseen, hfind⟩)

/-! ## What is written -/

section

variable {name : String} {d d' : DeploymentConfig} {live p : Container} {inits : List Container}
  {volumes : List Volume}

/-- What is mounted in a workload, container by container. -/
theorem noDangling_iff (hp : d.primary name = .ok p) : d.NoDangling ↔
    MountsAmong [p] (d.volumes.map (·.name)) ∧
      MountsAmong (sidecars d name ++ d.initContainers) (d.volumes.map (·.name)) := by
  unfold NoDangling
  rw [← mountsAmong_append]
  have hmem : ∀ c, c ∈ d.containers ++ d.initContainers ↔
      c ∈ [p] ++ (sidecars d name ++ d.initContainers) := by
    intro c
    rw [List.mem_append, mem_containers_iff hp, List.mem_append, List.mem_append,
      List.mem_singleton, or_assoc]
  exact ⟨fun h => h.mono (fun c hc => (hmem c).mpr hc) fun _ => id,
    fun h => h.mono (fun c hc => (hmem c).mp hc) fun _ => id⟩

theorem PodsOver.noDangling_iff (h : PodsOver name d' d p inits volumes) : d'.NoDangling ↔
    MountsAmong [p] (volumes.map (·.name)) ∧
      MountsAmong (sidecars d name ++ inits) (volumes.map (·.name)) := by
  rw [InnerLoop.noDangling_iff h.primary_eq, h.volumes_eq, h.sidecars_eq, h.inits_eq]

/-- **Dropping volumes**, with the mounts that the primary container has of them, leaves no mount
behind exactly if no other container mounts one of them. -/
theorem PodsOver.noDangling_dropped_iff (gone : List String)
    (h : PodsOver name d' d p inits volumes) (hd : d.NoDangling)
    (hlive : d.primary name = .ok live) (hinits : ∀ c ∈ inits, c ∈ d.initContainers)
    (hvolumes : ∀ v, v ∈ volumes.map (·.name) ↔ v ∈ d.volumes.map (·.name) ∧ v ∉ gone)
    (hmounts : ∀ v, p.Mounts v → live.Mounts v ∧ v ∉ gone) :
    d'.NoDangling ↔ ∀ c ∈ sidecars d name ++ inits, ∀ v ∈ gone, ¬ c.Mounts v := by
  obtain ⟨hprimary, hothers⟩ := (InnerLoop.noDangling_iff hlive).mp hd
  -- The primary container loses its mounts with the volumes, so the others decide.
  have hkept : MountsAmong [p] (volumes.map (·.name)) := by
    intro c hc v hm
    cases List.mem_singleton.mp hc
    obtain ⟨hlivem, hv⟩ := hmounts v hm
    exact (hvolumes v).mpr ⟨hprimary live List.mem_cons_self v hlivem, hv⟩
  have hothers' : MountsAmong (sidecars d name ++ inits) (d.volumes.map (·.name)) := by
    refine hothers.mono (fun c hc => ?_) fun _ => id
    exact List.mem_append.mpr ((List.mem_append.mp hc).imp_right (hinits c))
  rw [h.noDangling_iff, ← mountsAmong_dropped_iff hothers' hvolumes]
  exact and_iff_right hkept

/-- Attaching a claim declares the volume that it mounts. -/
theorem noDangling_of_attachClaim {claim volume path : String} (hd : d.NoDangling)
    (h : d.attachClaim name claim volume path = .ok d') : d'.NoDangling := by
  obtain ⟨-, live, q, hlive, hpods, hmounts⟩ := podsOver_attachClaim h
  obtain ⟨hprimary, hothers⟩ := (noDangling_iff hlive).mp hd
  have hmore : ∀ v ∈ d.volumes.map (·.name),
      v ∈ (d.volumes ++ [claimVolume claim volume]).map (·.name) := by
    intro v hv
    rw [List.map_append]
    exact List.mem_append_left _ hv
  refine hpods.noDangling_iff.mpr ⟨?_, hothers.mono (fun _ => id) hmore⟩
  intro c hc v hm
  cases List.mem_singleton.mp hc
  unfold Container.Mounts at hm
  rw [hmounts, List.map_append] at hm
  rcases List.mem_append.mp hm with hm | hm
  · exact hmore v (hprimary live List.mem_cons_self v hm)
  · rw [List.map_append]
    exact List.mem_append_right _ hm

/-- Detaching a claim drops its volume. -/
theorem noDangling_detachClaim_iff {claim volume : String} (hd : d.NoDangling)
    (h : d.detachClaim name claim = .ok (d', volume)) :
    d'.NoDangling ↔ ∀ c ∈ sidecars d name ++ d.initContainers, ¬ c.Mounts volume := by
  obtain ⟨-, live, q, hlive, -, hpods, hmounts⟩ := podsOver_detachClaim h
  have hdrop : ∀ {α : Type} (nameOf : α → String) (l : List α) (v : String),
      v ∈ (l.filter fun x => nameOf x ≠ volume).map nameOf ↔
        v ∈ l.map nameOf ∧ v ∉ [volume] := by
    intro α nameOf l v
    rw [map_filter_ne, List.mem_filter, decide_eq_true_iff, List.mem_singleton]
  have hiff := hpods.noDangling_dropped_iff [volume] hd hlive (fun _ => id)
    (hdrop Volume.name d.volumes) fun v hm => by
      unfold Container.Mounts at hm
      rw [hmounts] at hm
      exact (hdrop VolumeMount.name _ v).mp hm
  rw [hiff]
  exact forall₂_congr fun c _ => List.forall_mem_singleton

end

section

variable {component : ComponentMeta} {d d' : DeploymentConfig} {live : Container}

/-- A switch to dev mode declares what it mounts, and keeps all other volumes. -/
theorem noDangling_of_devMode {builder : BuilderImage} {supervisorImage : String}
    {wanted : DeploymentConfig} (hd : d.NoDangling) (hlive : d.primary component.name = .ok live)
    (hwanted : devModeWorkload component d live builder supervisorImage = .ok wanted)
    (h : prepareUpdate component.name d wanted none = .ok d') : d'.NoDangling := by
  obtain ⟨q, hpods, hmounts⟩ := podsOver_of_devMode hlive hwanted h
  obtain ⟨hprimary, hothers⟩ := (noDangling_iff hlive).mp hd
  have hnames : ∀ v, v ∈ (devModeVolumes component.name ++
      firstNamed Volume.name (reservedVolumes component.name) d.volumes).map (·.name) ↔
        v ∈ reservedVolumes component.name ∨ v ∈ d.volumes.map (·.name) := by
    intro v
    rw [List.map_append, List.mem_append, mem_map_firstNamed_iff]
    show v ∈ reservedVolumes component.name ∨ _ ↔ _
    tauto
  have hmore : ∀ v ∈ d.volumes.map (·.name), v ∈ (devModeVolumes component.name ++
      firstNamed Volume.name (reservedVolumes component.name) d.volumes).map (·.name) :=
    fun v hv => (hnames v).mpr (.inr hv)
  refine hpods.noDangling_iff.mpr ⟨?_, mountsAmong_append.mpr ⟨?_, mountsAmong_append.mpr ⟨?_, ?_⟩⟩⟩
  · intro c hc v hm
    cases List.mem_singleton.mp hc
    unfold Container.Mounts at hm
    rw [hmounts, List.map_append] at hm
    rcases List.mem_append.mp hm with hm | hm
    · exact (hnames v).mpr (.inl hm)
    · exact hmore v (hprimary live List.mem_cons_self v (mem_map_firstNamed_iff.mp hm).1)
  · exact hothers.mono (fun c hc => List.mem_append_left _ hc) hmore
  · exact hothers.mono (fun c hc => List.mem_append_right _ (List.mem_filter.mp hc).1) hmore
  · -- Each of the init containers of dev mode mounts one of the volumes of dev mode.
    intro c hc v hm
    refine (hnames v).mpr (.inl ?_)
    rcases List.mem_cons.mp hc with rfl | hc
    · cases List.mem_singleton.mp hm
      exact List.mem_cons_self
    · cases List.mem_singleton.mp hc
      cases List.mem_singleton.mp hm
      exact List.mem_cons_of_mem _ List.mem_cons_self

/-- A switch to build mode drops the volumes of dev mode. -/
theorem noDangling_buildMode_iff {image : ImageReference} (hd : d.NoDangling)
    (hname : d.name = component.name) (hlive : d.primary component.name = .ok live)
    (h : prepareUpdate component.name d (buildModeWorkload component d live image)
      (some stripDevMode) = .ok d') :
    d'.NoDangling ↔ ∀ c ∈ sidecars d component.name ++ userInits d,
      ∀ v ∈ reservedVolumes component.name, ¬ c.Mounts v := by
  obtain ⟨-, q, hpods, hmounts⟩ := podsOver_of_buildMode hname hlive h
  refine hpods.noDangling_dropped_iff _ hd hlive ?_ (fun v => mem_map_firstNamed_iff) ?_
  · exact fun c hc => (List.mem_filter.mp hc).1
  · intro v hm
    unfold Container.Mounts at hm
    rw [hmounts] at hm
    exact mem_map_firstNamed_iff.mp hm

/-- **Exactly when mounts stay declared**: attaching a claim and switching to dev mode always keep
what containers mount declared. Detaching a claim keeps it exactly if no sidecar and no init
container mounts the volume that goes, and switching to build mode exactly if no sidecar and no init
container of the user mounts a volume of dev mode. -/
theorem mounts_stay_declared_iff (hd : d.NoDangling) (hlive : d.primary component.name = .ok live) :
    (∀ claim volume path d', d.attachClaim component.name claim volume path = .ok d' →
      d'.NoDangling) ∧
    (∀ builder supervisorImage wanted d',
      devModeWorkload component d live builder supervisorImage = .ok wanted →
      prepareUpdate component.name d wanted none = .ok d' → d'.NoDangling) ∧
    (∀ claim volume d', d.detachClaim component.name claim = .ok (d', volume) →
      (d'.NoDangling ↔
        ∀ c ∈ sidecars d component.name ++ d.initContainers, ¬ c.Mounts volume)) ∧
    (d.name = component.name → ∀ image d',
      prepareUpdate component.name d (buildModeWorkload component d live image)
        (some stripDevMode) = .ok d' →
      (d'.NoDangling ↔ ∀ c ∈ sidecars d component.name ++ userInits d,
        ∀ v ∈ reservedVolumes component.name, ¬ c.Mounts v)) := by
  refine ⟨?_, ?_, ?_, ?_⟩
  · exact fun _ _ _ _ h => noDangling_of_attachClaim hd h
  · exact fun _ _ _ _ hwanted h => noDangling_of_devMode hd hlive hwanted h
  · exact fun _ _ _ h => noDangling_detachClaim_iff hd h
  · exact fun hname _ _ h => noDangling_buildMode_iff hd hname hlive h

end

/-! ## A sidecar that shares a volume -/

/-- The primary container of the shop in dev mode, with a volume for the orders. -/
def ordersContainer : Container where
  name := "web"
  image := some "web:1"
  volumeMounts := some
    [scratchMount, appDataMount "web", { name := "orders-volume", mountPath := "/orders" }]

/-- A sidecar that reads the orders and the application. -/
def backupContainer : Container where
  name := "backup"
  volumeMounts := some [
    { name := "orders-volume", mountPath := "/backup/orders" },
    { name := "web-s2idata", mountPath := "/backup/app" }]

/-- The shop in dev mode with both. -/
def backedUpWorkload : DeploymentConfig where
  metadata := { name := some "web" }
  spec := { template := some { spec := some {
    containers := [ordersContainer, backupContainer]
    volumes := some (devModeVolumes "web" ++ [claimVolume "orders" "orders-volume"]) } } }

theorem primary_backedUpWorkload : backedUpWorkload.primary "web" = .ok ordersContainer :=
  primary_eq_ok_iff.mpr (by decide)

theorem noDangling_backedUpWorkload : backedUpWorkload.NoDangling := by
  unfold NoDangling MountsAmong Container.Mounts
  decide

theorem checkDevMode_backedUpWorkload : checkDevMode backedUpWorkload = .ok () :=
  checkDevMode_of_front primary_backedUpWorkload rfl rfl

/-- The switch of that shop to build mode. -/
theorem exists_built_backedUpWorkload : ∃ built, prepareUpdate "web" backedUpWorkload
    (buildModeWorkload { name := "web" } backedUpWorkload ordersContainer shopImage)
    (some stripDevMode) = .ok built ∧
      backupContainer ∈ built.containers ∧ "web-s2idata" ∉ built.volumes.map (·.name) := by
  obtain ⟨built, p, hbuilt, hpods, -⟩ := @podsOver_buildMode { name := "web" } _ _
    shopImage rfl primary_backedUpWorkload checkDevMode_backedUpWorkload
  refine ⟨built, hbuilt, (mem_containers_iff hpods.primary_eq).mpr (.inr ?_), ?_⟩
  · rw [hpods.sidecars_eq]
    decide
  · rw [hpods.volumes_eq]
    decide

theorem mounts_stay_declared_iff_backup :
    backedUpWorkload.primary "web" = .ok ordersContainer ∧ backedUpWorkload.NoDangling ∧
    (∃ d', backedUpWorkload.attachClaim "web" "cache" "cache-volume" "/cache" = .ok d' ∧
      d'.NoDangling) ∧
    (∃ d', backedUpWorkload.detachClaim "web" "orders" = .ok (d', "orders-volume") ∧
      ¬ d'.NoDangling) ∧
    (∃ wanted d', devModeWorkload { name := "web" } backedUpWorkload ordersContainer shopBuilder
        "sup:1" = .ok wanted ∧
      prepareUpdate "web" backedUpWorkload wanted none = .ok d' ∧ d'.NoDangling) ∧
    (∃ d', prepareUpdate "web" backedUpWorkload
        (buildModeWorkload { name := "web" } backedUpWorkload ordersContainer shopImage)
        (some stripDevMode) = .ok d' ∧ ¬ d'.NoDangling) := by
  obtain ⟨hattach, hdev, hdetach, hbuild⟩ := @mounts_stay_declared_iff { name := "web" } _ _
    noDangling_backedUpWorkload primary_backedUpWorkload
  have hwanted : devModeWorkload { name := "web" } backedUpWorkload ordersContainer shopBuilder
      "sup:1" = .ok _ := devModeWorkload_eq_ok_iff.mpr ⟨_, _, rfl, rfl, rfl⟩
  obtain ⟨dev, -, hdev', -⟩ := podsOver_devMode primary_backedUpWorkload hwanted
  obtain ⟨built, hbuilt, -⟩ := exists_built_backedUpWorkload
  have hattached : backedUpWorkload.attachClaim "web" "cache" "cache-volume" "/cache" = .ok _ := rfl
  have hdetached : backedUpWorkload.detachClaim "web" "orders" = .ok (_, "orders-volume") := rfl
  have hbackup : backupContainer ∈ sidecars backedUpWorkload "web" := by decide
  refine ⟨primary_backedUpWorkload, noDangling_backedUpWorkload, ?_, ?_, ?_, ?_⟩
  · exact ⟨_, hattached, hattach _ _ _ _ hattached⟩
  · refine ⟨_, hdetached, fun h => (hdetach _ _ _ hdetached).mp h backupContainer ?_ ?_⟩
    · exact List.mem_append_left _ hbackup
    · exact List.mem_cons_self
  · exact ⟨_, dev, hwanted, hdev', hdev _ _ _ _ hwanted hdev'⟩
  · refine ⟨built, hbuilt, fun h => (hbuild rfl _ _ hbuilt).mp h backupContainer ?_
      "web-s2idata" ?_ ?_⟩
    · exact List.mem_append_left _ hbackup
    · decide
    · exact List.mem_cons_of_mem _ List.mem_cons_self

/-- **A mount can be left behind**: neither detaching a claim nor the switch to build mode keeps
what containers mount declared in every workload. -/
theorem dropped_volume_leaves_mounts :
    (¬ ∀ (d d' : DeploymentConfig) (name claim volume : String), d.NoDangling →
      d.detachClaim name claim = .ok (d', volume) → d'.NoDangling) ∧
    ¬ ∀ (component : ComponentMeta) (d d' : DeploymentConfig) (live : Container)
      (image : ImageReference), d.NoDangling → d.name = component.name →
      d.primary component.name = .ok live →
      prepareUpdate component.name d (buildModeWorkload component d live image)
        (some stripDevMode) = .ok d' → d'.NoDangling := by
  constructor
  · intro h
    have hleft : "orders-volume" ∈ _ := h backedUpWorkload _ "web" "orders" "orders-volume"
      noDangling_backedUpWorkload rfl backupContainer (by decide) _ List.mem_cons_self
    revert hleft
    decide
  · intro h
    obtain ⟨built, hbuilt, hmem, hgone⟩ := exists_built_backedUpWorkload
    refine hgone (h { name := "web" } backedUpWorkload built ordersContainer shopImage
      noDangling_backedUpWorkload rfl primary_backedUpWorkload hbuilt backupContainer ?_ _ ?_)
    · exact List.mem_append_left _ hmem
    · exact List.mem_cons_of_mem _ List.mem_cons_self

end InnerLoop
