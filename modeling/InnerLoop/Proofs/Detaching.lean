import InnerLoop.Proofs.InPlace
import InnerLoop.Proofs.RoundTrip

/-!
# Attaching a claim and taking it off again

A claim is attached by a mount and a volume of one name. It is taken off by that name, which takes
everything else of the name along. So the one undoes the other where the name is new to the volumes
and to the mounts of the primary container.

What is left may have an empty list of volumes where there was none, and no list of mounts where
there was an empty one. Nothing is claimed about the mounts of other containers but that they stay:
one that bears the name of the volume is neither looked at nor taken away.

- `DeploymentConfig.withLists`: a workload with an empty list where one of the two is absent.
- `attachClaim_eq_ok`, `detachClaim_eq_ok`: what the two make of a workload.
- `detachClaim_attachClaim`: **taking a claim off undoes attaching it**.
-/

namespace InnerLoop

/-! ## Lists that are absent -/

/-- Mounts in a list, an empty one if there is none. -/
def Container.withMountList (c : Container) : Container :=
  { c with volumeMounts := some (c.volumeMounts.getD []) }

/-- Volumes in a list and mounts of the containers of a name in a list, which are empty if there is
none. -/
def PodSpec.withLists (name : String) (s : PodSpec) : PodSpec :=
  { s with
    containers := DeploymentConfig.changeNamed name Container.withMountList s.containers
    volumes := some (s.volumes.getD []) }

namespace DeploymentConfig

/-- The workload with its pod specification changed. Where there is none none is made up. -/
def mapPodSpec (f : PodSpec → PodSpec) (d : DeploymentConfig) : DeploymentConfig :=
  { d with spec := { d.spec with
    template := d.spec.template.map fun t => { t with spec := t.spec.map f } } }

/-- The workload with the lists of volumes and of the primary container's mounts there. -/
def withLists (name : String) (d : DeploymentConfig) : DeploymentConfig :=
  d.mapPodSpec (PodSpec.withLists name)

variable {d : DeploymentConfig} {name claim volume path : String} {p : Container}

theorem withLists_withPodSpec (d : DeploymentConfig) (s : PodSpec) (name : String) :
    (d.withPodSpec s).withLists name = d.withPodSpec (s.withLists name) := rfl

/-- A workload with a primary container has a pod specification. -/
theorem podSpec?_of_primary (hp : d.primary name = .ok p) : d.podSpec? = some d.podSpec := by
  have hmem : p ∈ d.podSpec.containers := (List.mem_filter.mp (mem_named_of_primary hp)).1
  unfold podSpec at hmem ⊢
  cases h : d.podSpec? with
  | none =>
    rw [h] at hmem
    cases hmem
  | some s => rfl

theorem mapPodSpec_of_primary (hp : d.primary name = .ok p) (f : PodSpec → PodSpec) :
    d.mapPodSpec f = d.withPodSpec (f d.podSpec) := by
  obtain ⟨t, ht, hs⟩ := Option.bind_eq_some_iff.mp (podSpec?_of_primary hp)
  unfold mapPodSpec withPodSpec
  rw [ht, Option.map_some, hs]
  rfl

/-! ## Changes of the primary container -/

theorem changeNamed_changeNamed {f g : Container → Container} (hg : ∀ c, (g c).name = c.name)
    (name : String) (l : List Container) :
    changeNamed name f (changeNamed name g l) = changeNamed name (fun c => f (g c)) l := by
  unfold changeNamed
  rw [List.map_map]
  refine List.map_congr_left fun c _ => ?_
  by_cases hc : c.name = name
  · rw [Function.comp_apply, if_pos hc, if_pos hc, if_pos ((hg c).trans hc)]
  · rw [Function.comp_apply, if_neg hc, if_neg hc, if_neg hc]

/-- Two changes of the primary container are the same if they do the same to what it is. -/
theorem changeNamed_congr {f g : Container → Container} (hp : d.primary name = .ok p)
    (h : f p = g p) :
    changeNamed name f d.podSpec.containers = changeNamed name g d.podSpec.containers := by
  refine List.map_congr_left fun c hc => ?_
  by_cases hname : c.name = name
  · have hmem : c ∈ d.named name := List.mem_filter.mpr ⟨hc, decide_eq_true hname⟩
    rw [primary_eq_ok_iff.mp hp, List.mem_singleton] at hmem
    rw [if_pos hname, if_pos hname, hmem, h]
  · rw [if_neg hname, if_neg hname]

theorem modifyPrimary_of_primary (hp : d.primary name = .ok p) (f : Container → Container) :
    d.modifyPrimary name f = .ok (d.withPodSpec
      { d.podSpec with containers := changeNamed name f d.podSpec.containers }) := by
  unfold modifyPrimary
  rw [hp]
  rfl

/-! ## What the two make of a workload -/

/-- A container with one more mount. -/
def addMount (volume path : String) (c : Container) : Container :=
  { c with volumeMounts := some (c.volumeMounts.getD [] ++
      [{ name := volume, mountPath := path }]) }

/-- A container with no mounts but those given. -/
def onlyMounts (mounts : List VolumeMount) (c : Container) : Container :=
  { c with volumeMounts := orAbsent mounts }

/-- Pods with a claim attached to the containers of a name. -/
def withClaim (name claim volume path : String) (s : PodSpec) : PodSpec :=
  { s with
    containers := changeNamed name (addMount volume path) s.containers
    volumes := some (s.volumes.getD [] ++ [claimVolume claim volume]) }

/-- Pods without the volumes of a name, whose containers of another name are left with the mounts
given. -/
def withoutVolume (name volume : String) (left : List VolumeMount) (s : PodSpec) : PodSpec :=
  { s with
    containers := changeNamed name (onlyMounts left) s.containers
    volumes := s.volumes.map fun l => l.filter fun v => v.name ≠ volume }

/-- **What attaching makes of a workload** that has a primary container, and no volume for the
claim. -/
theorem attachClaim_eq_ok (hp : d.primary name = .ok p) (hfree : d.volumesOf claim = [])
    (volume path : String) : d.attachClaim name claim volume path =
      .ok (d.withPodSpec (withClaim name claim volume path d.podSpec)) := by
  unfold attachClaim
  rw [hfree]
  exact bind_eq_ok_iff.mpr ⟨_, modifyPrimary_of_primary hp (addMount volume path), rfl⟩

/-- **What taking a claim off makes of a workload** with one volume for the claim, which the primary
container mounts. -/
theorem detachClaim_eq_ok (hp : d.primary name = .ok p) (hbound : d.volumesOf claim = [volume])
    (hmounted : volume ∈ (p.volumeMounts.getD []).map VolumeMount.name) :
    d.detachClaim name claim = .ok (d.withPodSpec (withoutVolume name volume
      ((p.volumeMounts.getD []).filter fun m => m.name ≠ volume) d.podSpec), volume) := by
  have hmounts : d.mounts name = .ok (p.volumeMounts.getD []) := by
    unfold mounts
    rw [hp]
    rfl
  unfold detachClaim
  rw [hbound]
  refine bind_eq_ok_iff.mpr ⟨_, hmounts, ?_⟩
  dsimp only
  rw [if_neg (not_not_intro hmounted)]
  exact bind_eq_ok_iff.mpr ⟨_, modifyPrimary_of_primary hp (onlyMounts _), rfl⟩

/-- A workload that a claim was attached to has the mount on its primary container. -/
theorem primary_withClaim (hp : d.primary name = .ok p) (claim volume path : String) :
    (d.withPodSpec (withClaim name claim volume path d.podSpec)).primary name =
      .ok (addMount volume path p) := by
  have hadd : ∀ c, (addMount volume path c).name = c.name := fun _ => rfl
  have h := (modifyPrimary_eq_ok hadd (modifyPrimary_of_primary hp _) hp).2
  rw [if_pos rfl] at h
  exact primary_eq_ok_iff.mpr (primary_eq_ok_iff.mp h)

/-- It has one volume for the claim, if it had none. -/
theorem volumesOf_withClaim (hfree : d.volumesOf claim = []) (name volume path : String) :
    (d.withPodSpec (withClaim name claim volume path d.podSpec)).volumesOf claim = [volume] := by
  have hnew : bindsClaim claim (claimVolume claim volume) = true := decide_eq_true rfl
  show ((d.volumes ++ [claimVolume claim volume]).filter (bindsClaim claim)).map Volume.name = _
  rw [List.filter_append, List.map_append, List.filter_cons_of_pos hnew]
  exact congrArg (· ++ [volume]) hfree

/-! ## There and back -/

/-- What is left when the one new item of a name is taken away by its name. -/
theorem filter_concat_ne {α : Type} (nameOf : α → String) {l : List α} (x : α)
    (h : ∀ y ∈ l, nameOf y ≠ nameOf x) :
    (l ++ [x]).filter (fun y => nameOf y ≠ nameOf x) = l := by
  have hold : l.filter (fun y => nameOf y ≠ nameOf x) = l :=
    List.filter_eq_self.mpr fun y hy => decide_eq_true (h y hy)
  rw [List.filter_append, hold, List.filter_cons_of_neg (by simp), List.filter_nil, List.append_nil]

/-- Attached and taken off again, on the pods: the primary container is left with the mounts that it
had. -/
theorem withLists_withoutVolume_withClaim (hp : d.primary name = .ok p)
    (hvolumes : ∀ v ∈ d.volumes, v.name ≠ volume) (claim path : String) :
    (withoutVolume name volume (p.volumeMounts.getD [])
      (withClaim name claim volume path d.podSpec)).withLists name = d.podSpec.withLists name := by
  have hcontainers : changeNamed name Container.withMountList
      (changeNamed name (onlyMounts (p.volumeMounts.getD []))
        (changeNamed name (addMount volume path) d.podSpec.containers)) =
      changeNamed name Container.withMountList d.podSpec.containers := by
    have hadd : ∀ c, (addMount volume path c).name = c.name := fun _ => rfl
    have honly : ∀ c, (onlyMounts (p.volumeMounts.getD []) c).name = c.name := fun _ => rfl
    rw [changeNamed_changeNamed honly, changeNamed_changeNamed hadd]
    refine changeNamed_congr hp ?_
    unfold Container.withMountList onlyMounts
    rw [getD_orAbsent]
    rfl
  have hleft : (d.volumes ++ [claimVolume claim volume]).filter (fun v => v.name ≠ volume) =
      d.volumes :=
    filter_concat_ne Volume.name (claimVolume claim volume) hvolumes
  unfold PodSpec.withLists withoutVolume withClaim
  dsimp only
  rw [hcontainers, Option.map_some, show d.podSpec.volumes.getD [] = d.volumes from rfl, hleft]
  rfl

/-- **Taking a claim off undoes attaching it**, if no volume is bound to the claim and neither a
volume nor a mount of the primary container bears the name of the new volume. Both succeed, and but
for lists that are empty and lists that are absent all is as it was. -/
theorem detachClaim_attachClaim (d : DeploymentConfig) (name claim volume path : String)
    (hone : (d.named name).length = 1)
    (hclaim : ∀ v ∈ d.volumes, bindsClaim claim v = false)
    (hvolumes : ∀ v ∈ d.volumes, v.name ≠ volume)
    (hmounts : ∀ c ∈ d.named name, ∀ m ∈ c.volumeMounts.getD [], m.name ≠ volume) :
    ∃ d₁ d₂, d.attachClaim name claim volume path = .ok d₁ ∧
      d₁.detachClaim name claim = .ok (d₂, volume) ∧ d₂.withLists name = d.withLists name := by
  obtain ⟨p, hnamed⟩ := List.length_eq_one_iff.mp hone
  have hp : d.primary name = .ok p := primary_eq_ok_iff.mpr hnamed
  have hfree : d.volumesOf claim = [] := by
    unfold volumesOf
    rw [List.filter_eq_nil_iff.mpr fun v hv => Bool.eq_false_iff.mp (hclaim v hv), List.map_nil]
  have hmounted : volume ∈ ((addMount volume path p).volumeMounts.getD []).map VolumeMount.name :=
    List.mem_map_of_mem (List.mem_append_right _ (List.mem_singleton_self _))
  -- Of the mounts only the new one bears the name, so the others are left.
  have hdetach := detachClaim_eq_ok (primary_withClaim hp claim volume path)
    (volumesOf_withClaim hfree name volume path) hmounted
  have hleft : ((addMount volume path p).volumeMounts.getD []).filter (fun m => m.name ≠ volume) =
      p.volumeMounts.getD [] :=
    filter_concat_ne VolumeMount.name { name := volume, mountPath := path }
      (hmounts p (mem_named_of_primary hp))
  rw [hleft] at hdetach
  refine ⟨_, _, attachClaim_eq_ok hp hfree volume path, hdetach, ?_⟩
  rw [withLists_withPodSpec, withLists, mapPodSpec_of_primary hp]
  exact congrArg d.withPodSpec (withLists_withoutVolume_withClaim hp hvolumes claim path)

/-- The shop's workload, which has one volume and mounts it. -/
theorem detachClaim_attachClaim_shop :
    ((shopWorkload.named "web").length = 1 ∧
      (∀ v ∈ shopWorkload.volumes, bindsClaim "orders" v = false ∧ v.name ≠ "orders-volume") ∧
      ∀ c ∈ shopWorkload.named "web", ∀ m ∈ c.volumeMounts.getD [], m.name ≠ "orders-volume") ∧
    ∃ d₁ d₂, shopWorkload.attachClaim "web" "orders" "orders-volume" "/orders" = .ok d₁ ∧
      d₁.detachClaim "web" "orders" = .ok (d₂, "orders-volume") ∧
      d₂.withLists "web" = shopWorkload.withLists "web" :=
  ⟨by decide, detachClaim_attachClaim shopWorkload "web" "orders" "orders-volume" "/orders"
    (by decide) (by decide) (by decide) (by decide)⟩

end DeploymentConfig

end InnerLoop
