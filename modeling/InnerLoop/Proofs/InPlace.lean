import InnerLoop.Workload.Storage
import InnerLoop.Proofs.SharedVolumes

/-!
# What changes in place write

A change in place touches the primary container and the volumes, and leaves the init containers, the
sidecars and the rest of the pods alone. So what it writes is seen in the same way as what a switch
writes.

- `podsOver_modifyPrimary`, `PodsOver.withVolumes`: the two things that such changes consist of.
- `podsOver_attachClaim`, `podsOver_detachClaim`, `podsOver_putEnvVars`: the changes.
- `podsOver_of_devMode`, `podsOver_of_buildMode`: what is known of a switch that was written.
-/

namespace InnerLoop

open DeploymentConfig

variable {d d' : DeploymentConfig} {name : String}

/-! ## Containers -/

/-- The primary container bears the name that it is looked up by. -/
theorem mem_named_of_primary {p : Container} (hp : d.primary name = .ok p) : p ∈ d.named name := by
  rw [primary_eq_ok_iff.mp hp]
  exact List.mem_singleton_self p

/-- Every container is the primary one or a sidecar. -/
theorem mem_containers_iff {p : Container} (hp : d.primary name = .ok p) {c : Container} :
    c ∈ d.containers ↔ c = p ∨ c ∈ sidecars d name := by
  have hnamed : c ∈ d.named name ↔ c = p := by
    rw [primary_eq_ok_iff.mp hp, List.mem_singleton]
  rw [← hnamed]
  unfold named sidecars
  rw [List.mem_filter, List.mem_filter, ← and_or_left]
  simp [em]

/-- A change of the containers of one name leaves the others alone. -/
theorem sidecars_changeNamed {f : Container → Container} (hf : ∀ c, (f c).name = c.name)
    (name : String) (l : List Container) :
    (changeNamed name f l).filter (fun c => c.name ≠ name) = l.filter fun c => c.name ≠ name := by
  induction l with
  | nil => rfl
  | cons c r ih =>
    unfold changeNamed at ih ⊢
    rw [List.map_cons]
    by_cases hc : c.name = name
    · have hfc : (f c).name = name := (hf c).trans hc
      rw [if_pos hc, List.filter_cons_of_neg (by simpa using hfc),
        List.filter_cons_of_neg (by simpa using hc), ih]
    · rw [if_neg hc, List.filter_cons_of_pos (by simpa using hc),
        List.filter_cons_of_pos (by simpa using hc), ih]

/-- A change of the primary container is seen in that container only. -/
theorem podsOver_modifyPrimary {f : Container → Container} (h : d.modifyPrimary name f = .ok d')
    (hf : ∀ c, (f c).name = c.name) :
    ∃ p, d.primary name = .ok p ∧ PodsOver name d' d (f p) d.initContainers d.volumes := by
  obtain ⟨p, hp, hd'⟩ := bind_eq_ok_iff.mp h
  have hprimary := (modifyPrimary_eq_ok hf h hp).2
  rw [if_pos rfl] at hprimary
  cases hd'
  exact ⟨p, hp, rfl, hprimary, rfl, rfl, sidecars_changeNamed hf name _, rfl⟩

/-- A change of the volumes is seen in the volumes only. -/
theorem PodsOver.withVolumes {current : DeploymentConfig} {p : Container} {inits : List Container}
    {volumes : List Volume} (h : PodsOver name d current p inits volumes)
    (g : Option (List Volume) → Option (List Volume)) :
    PodsOver name (d.modifyPodSpec fun s => { s with volumes := g s.volumes }) current p inits
      ((g d.podSpec.volumes).getD []) where
  name_eq := h.name_eq
  primary_eq := primary_eq_ok_iff.mpr (primary_eq_ok_iff.mp h.primary_eq)
  inits_eq := h.inits_eq
  volumes_eq := rfl
  sidecars_eq := h.sidecars_eq
  frame_eq := h.frame_eq

/-! ## Changes in place -/

/-- The names that are left are all but one. -/
theorem map_filter_ne {α : Type} (nameOf : α → String) (l : List α) (n : String) :
    (l.filter fun x => nameOf x ≠ n).map nameOf = (l.map nameOf).filter (· ≠ n) := by
  rw [List.filter_map]
  rfl

/-- What it means that one volume is bound to a claim. -/
theorem of_volumesOf_eq_singleton {claim volume : String} (h : d.volumesOf claim = [volume]) :
    (∀ v ∈ d.volumes, bindsClaim claim v = true → v.name = volume) ∧
      ∃ v ∈ d.volumes, bindsClaim claim v = true ∧ v.name = volume := by
  constructor
  · intro v hv hbinds
    have hmem : v.name ∈ d.volumesOf claim :=
      List.mem_map_of_mem (List.mem_filter.mpr ⟨hv, hbinds⟩)
    rw [h] at hmem
    exact List.mem_singleton.mp hmem
  · have hmem : volume ∈ d.volumesOf claim := by
      rw [h]
      exact List.mem_cons_self
    obtain ⟨v, hv, hname⟩ := List.mem_map.mp hmem
    obtain ⟨hvolumes, hbinds⟩ := List.mem_filter.mp hv
    exact ⟨v, hvolumes, hbinds, hname⟩

/-- A volume for a claim. -/
def claimVolume (claim volume : String) : Volume where
  name := volume
  persistentVolumeClaim := some { claimName := claim }

/-- What can be seen of a workload that a claim was attached to, which no volume was bound to. -/
theorem podsOver_attachClaim {claim volume path : String}
    (h : d.attachClaim name claim volume path = .ok d') :
    d.volumesOf claim = [] ∧ ∃ p q, d.primary name = .ok p ∧
      PodsOver name d' d q d.initContainers (d.volumes ++ [claimVolume claim volume]) ∧
      q.volumeMounts.getD [] =
        p.volumeMounts.getD [] ++ [{ name := volume, mountPath := path }] := by
  unfold attachClaim at h
  split at h
  · cases h
  · rename_i hfree
    obtain ⟨d₁, hd₁, h⟩ := bind_eq_ok_iff.mp h
    cases h
    obtain ⟨p, hp, hpods⟩ := podsOver_modifyPrimary hd₁ fun _ => rfl
    have hvolumes : d₁.podSpec.volumes.getD [] = d.volumes := hpods.volumes_eq
    have hwith := hpods.withVolumes fun l => some (l.getD [] ++ [claimVolume claim volume])
    rw [hvolumes] at hwith
    exact ⟨by simpa using hfree, p, _, hp, hwith, rfl⟩

/-- What can be seen of a workload that a claim was taken off. One volume was bound to it, which the
primary container mounted. -/
theorem podsOver_detachClaim {claim volume : String}
    (h : d.detachClaim name claim = .ok (d', volume)) :
    d.volumesOf claim = [volume] ∧ ∃ p q, d.primary name = .ok p ∧
      volume ∈ (p.volumeMounts.getD []).map (·.name) ∧
      PodsOver name d' d q d.initContainers (d.volumes.filter fun v => v.name ≠ volume) ∧
      q.volumeMounts.getD [] = (p.volumeMounts.getD []).filter fun m => m.name ≠ volume := by
  unfold detachClaim at h
  split at h
  · cases h
  · rename_i bound hbound
    obtain ⟨mounts, hmounts, h⟩ := bind_eq_ok_iff.mp h
    obtain ⟨p, hp, hp'⟩ := bind_eq_ok_iff.mp hmounts
    cases hp'
    dsimp only at h
    split at h
    · cases h
    · rename_i hmounted
      obtain ⟨d₁, hd₁, h⟩ := bind_eq_ok_iff.mp h
      cases h
      obtain ⟨p', hp', hpods⟩ := podsOver_modifyPrimary hd₁ fun _ => rfl
      cases hp.symm.trans hp'
      -- No volumes at all and an empty list of them are told apart, but neither holds any.
      have hvolumes : (d₁.podSpec.volumes.map (·.filter fun v => v.name ≠ volume)).getD []
          = d.volumes.filter fun v => v.name ≠ volume := by
        rw [← hpods.volumes_eq]
        unfold DeploymentConfig.volumes
        cases d₁.podSpec.volumes with
        | none => rfl
        | some l => rfl
      have hwith := hpods.withVolumes (·.map (·.filter fun v => v.name ≠ volume))
      rw [hvolumes] at hwith
      exact ⟨hbound, p, _, hp, Decidable.not_not.mp hmounted, hwith, getD_orAbsent _⟩
  · cases h

/-- What can be seen of a workload that variables were set in. -/
theorem podsOver_putEnvVars {vars : List EnvVar} (h : d.putEnvVars name vars = .ok d') :
    ∃ p q, d.primary name = .ok p ∧ PodsOver name d' d q d.initContainers d.volumes ∧
      q.volumeMounts = p.volumeMounts := by
  obtain ⟨p, hp, hpods⟩ := podsOver_modifyPrimary h fun _ => rfl
  exact ⟨p, _, hp, hpods, rfl⟩

/-! ## Switches -/

section

variable {component : ComponentMeta} {live : Container}

/-- What can be seen of a workload that was switched to dev mode. -/
theorem podsOver_of_devMode {builder : BuilderImage} {supervisorImage : String}
    {wanted : DeploymentConfig} (hlive : d.primary component.name = .ok live)
    (hwanted : devModeWorkload component d live builder supervisorImage = .ok wanted)
    (h : prepareUpdate component.name d wanted none = .ok d') :
    ∃ p, PodsOver component.name d' d p
        (devModeInits component.name d builder supervisorImage)
        (devModeVolumes component.name ++
          firstNamed Volume.name (reservedVolumes component.name) d.volumes) ∧
      p.volumeMounts.getD [] = [scratchMount, appDataMount component.name] ++
        firstNamed VolumeMount.name (reservedVolumes component.name)
          (live.volumeMounts.getD []) := by
  obtain ⟨dev, p, hdev, hpods, hmounts⟩ := podsOver_devMode hlive hwanted
  cases h.symm.trans hdev
  exact ⟨p, hpods, hmounts⟩

/-- What can be seen of a workload that was switched back to build mode, which passed the check. -/
theorem podsOver_of_buildMode {image : ImageReference} (hname : d.name = component.name)
    (hlive : d.primary component.name = .ok live)
    (h : prepareUpdate component.name d (buildModeWorkload component d live image)
      (some stripDevMode) = .ok d') :
    checkDevMode d = .ok () ∧ ∃ p, PodsOver component.name d' d p (userInits d)
        (firstNamed Volume.name (reservedVolumes component.name) d.volumes) ∧
      p.volumeMounts.getD [] = firstNamed VolumeMount.name (reservedVolumes component.name)
        (live.volumeMounts.getD []) := by
  obtain ⟨_, _, -, -, hhook, -⟩ := prepareUpdate_eq_ok h
  obtain ⟨_, hcheck, -⟩ := bind_eq_ok_iff.mp (hhook _ rfl)
  obtain ⟨built, p, hbuilt, hpods, hmounts⟩ := podsOver_buildMode image hname hlive hcheck
  cases h.symm.trans hbuilt
  exact ⟨hcheck, p, hpods, hmounts⟩

end

end InnerLoop
