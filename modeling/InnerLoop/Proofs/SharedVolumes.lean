import InnerLoop.Proofs.RoundTrip
import InnerLoop.Proofs.Marks
import Mathlib.Data.List.Nodup

/-!
# Volumes that are mounted more than once

A switch of the mode carries the user's volumes and mounts over to the workload that it writes. It
knows both by the name of the volume, which tells volumes apart but not mounts: a container may mount
one volume in several places, and only the first of these mounts is carried over.

- `mem_firstNamed_iff`: an item is carried over if no item of its name comes before it.
- `stripDevMode_eq_ok`: what is left of a workload when dev mode is taken out of it.
- `SwitchWrites`: what either switch may write; `SwitchWrites.carried`, what it carried over.
- `switch_keeps_mounts_iff`: **exactly which mounts are kept**, while all volumes are.
- `switch_drops_second_mount`: a mount that is not.
-/

namespace InnerLoop

open DeploymentConfig

/-! ## Items that are carried over -/

/-- The items of names that were not seen are those that come first under their name. -/
theorem mem_firstNamed_iff {α : Type} {nameOf : α → String} {seen : List String} {l : List α}
    {x : α} : x ∈ firstNamed nameOf seen l ↔
      nameOf x ∉ seen ∧ l.find? (fun y => nameOf y = nameOf x) = some x := by
  induction l generalizing seen with
  | nil =>
    constructor
    · exact fun h => absurd h List.not_mem_nil
    · exact fun h => absurd h.2 (Option.some_ne_none x).symm
  | cons y r ih =>
    unfold firstNamed
    by_cases hxy : nameOf y = nameOf x
    · rw [List.find?_cons_of_pos (by simpa using hxy)]
      by_cases hy : nameOf y ∈ seen
      · rw [if_pos hy, ih]
        exact ⟨fun h => absurd (hxy ▸ hy) h.1, fun h => absurd (hxy ▸ hy) h.1⟩
      · rw [if_neg hy, List.mem_cons, ih]
        constructor
        · rintro (rfl | h)
          · exact ⟨hy, rfl⟩
          · exact absurd (hxy ▸ List.mem_cons_self) h.1
        · exact fun h => .inl (Option.some.inj h.2).symm
    · rw [List.find?_cons_of_neg (by simpa using hxy)]
      by_cases hy : nameOf y ∈ seen
      · rw [if_pos hy, ih]
      · rw [if_neg hy, List.mem_cons, ih, List.mem_cons, not_or]
        constructor
        · rintro (rfl | ⟨⟨-, hx⟩, h⟩)
          · exact absurd rfl hxy
          · exact ⟨hx, h⟩
        · rintro ⟨hx, h⟩
          exact .inr ⟨⟨fun heq => hxy heq.symm, hx⟩, h⟩

/-- Among items of distinct names every item comes first under its name. -/
theorem find?_eq_some_of_nodup {α : Type} {nameOf : α → String} {l : List α} {x : α}
    (hd : (l.map nameOf).Nodup) (hx : x ∈ l) :
    l.find? (fun y => nameOf y = nameOf x) = some x := by
  cases hfind : l.find? fun y => nameOf y = nameOf x with
  | none => exact absurd (decide_eq_true rfl) (List.find?_eq_none.mp hfind x hx)
  | some y =>
    have hname : nameOf y = nameOf x := by simpa using List.find?_some hfind
    rw [List.inj_on_of_nodup_map hd (List.mem_of_find?_eq_some hfind) hx hname]

@[simp] theorem getD_dropNamed {α : Type} {nameOf : α → String} (names : List String)
    (l : Option (List α)) :
    (dropNamed nameOf names l).getD [] = (l.getD []).filter fun x => nameOf x ∉ names := by
  cases l with
  | none => rfl
  | some l => exact getD_orAbsent _

/-! ## Taking dev mode out -/

/-- A change of the containers of one name, as the containers of any name show it. -/
theorem named_changeNamed {f : Container → Container} (hf : ∀ c, (f c).name = c.name)
    (name n : String) (l : List Container) :
    (changeNamed name f l).filter (fun c => c.name = n) =
      (l.filter fun c => c.name = n).map fun c => if c.name = name then f c else c := by
  unfold changeNamed
  rw [List.filter_map]
  refine congrArg (List.map _) (List.filter_congr fun c _ => ?_)
  have hname : (if c.name = name then f c else c).name = c.name := by
    split
    · exact hf c
    · rfl
  show decide ((if c.name = name then f c else c).name = n) = decide (c.name = n)
  rw [hname]

/-- A change of one container leaves the volumes as they are, and the containers of other names. -/
theorem modifyPrimary_eq_ok {d d' : DeploymentConfig} {name n : String} {p : Container}
    {f : Container → Container} (hf : ∀ c, (f c).name = c.name)
    (h : d.modifyPrimary name f = .ok d') (hp : d.primary n = .ok p) :
    d'.volumes = d.volumes ∧ d'.primary n = .ok (if n = name then f p else p) := by
  obtain ⟨_, -, h⟩ := bind_eq_ok_iff.mp h
  cases h
  refine ⟨rfl, primary_eq_ok_iff.mpr ?_⟩
  replace hp := primary_eq_ok_iff.mp hp
  have hname : p.name = n := by
    have hmem : p ∈ d.named n := by rw [hp]; exact List.mem_singleton_self p
    simpa using (List.mem_filter.mp hmem).2
  show (changeNamed name f d.podSpec.containers).filter (fun c => c.name = n) = _
  rw [named_changeNamed hf, ← named_eq_filter, hp, ← hname]
  rfl

/-- What is left of a workload when dev mode is taken out of it: the volumes and the mounts of the
live workload's own container that are not reserved, and all mounts of other containers. -/
theorem stripDevMode_eq_ok {current desired d : DeploymentConfig} {n : String} {p : Container}
    (h : stripDevMode current desired = .ok d) (hp : desired.primary n = .ok p) :
    d.volumes = desired.volumes.filter (fun v => v.name ∉ reservedVolumes current.name) ∧
      ∃ q, d.primary n = .ok q ∧ q.volumeMounts.getD [] = if n = current.name then
        (p.volumeMounts.getD []).filter fun m => m.name ∉ reservedVolumes current.name
      else p.volumeMounts.getD [] := by
  obtain ⟨-, -, h⟩ := bind_eq_ok_iff.mp h
  let strip (c : Container) : Container := { c with
    volumeMounts := dropNamed VolumeMount.name (reservedVolumes current.name) c.volumeMounts }
  have hstrip (c : Container) : (strip c).name = c.name := rfl
  -- Volumes and init containers are dropped before, which the containers do not show.
  have hnamed := primary_eq_ok_iff.mp hp
  obtain ⟨hvolumes, hprimary⟩ := modifyPrimary_eq_ok hstrip h (primary_eq_ok_iff.mpr hnamed)
  refine ⟨hvolumes.trans (getD_dropNamed _ _), _, hprimary, ?_⟩
  split
  · exact getD_dropNamed _ _
  · rfl

/-! ## What a switch writes -/

/-- What either switch may write for a component, in view of a live workload. -/
inductive SwitchWrites (component : ComponentMeta) (current : DeploymentConfig) (live : Container) :
    DeploymentConfig → Prop
  | dev {builder : BuilderImage} {supervisorImage : String} {wanted written : DeploymentConfig}
      (hwanted : devModeWorkload component current live builder supervisorImage = .ok wanted)
      (h : prepareUpdate component.name current wanted none = .ok written) :
      SwitchWrites component current live written
  | build {image : ImageReference} {written : DeploymentConfig}
      (h : prepareUpdate component.name current (buildModeWorkload component current live image)
        (some stripDevMode) = .ok written) : SwitchWrites component current live written

/-- What a switch carries over: of every name that is reserved for neither the component nor the
workload, the first volume and the first mount. -/
theorem SwitchWrites.carried {component : ComponentMeta} {current written : DeploymentConfig}
    {live : Container} (h : SwitchWrites component current live written)
    (hlive : current.primary component.name = .ok live) :
    ∃ p, written.primary component.name = .ok p ∧
      (∀ v, v.name ∉ reservedVolumes component.name → v.name ∉ reservedVolumes current.name →
        (v ∈ written.volumes ↔
          v ∈ firstNamed Volume.name (reservedVolumes component.name) current.volumes)) ∧
      ∀ m, m.name ∉ reservedVolumes component.name → (m ∈ p.volumeMounts.getD [] ↔
        m ∈ firstNamed VolumeMount.name (reservedVolumes component.name)
          (live.volumeMounts.getD [])) := by
  cases h with
  | dev hwanted h =>
    obtain ⟨dev, p, hdev, hpods, hmounts⟩ := podsOver_devMode hlive hwanted
    cases h.symm.trans hdev
    refine ⟨p, hpods.primary_eq, fun v hv _ => ?_, fun m hm => ?_⟩
    · have hreserved : v ∉ devModeVolumes component.name := fun hmem =>
        hv (List.mem_map_of_mem (f := Volume.name) hmem)
      rw [hpods.volumes_eq, List.mem_append, or_iff_right hreserved]
    · have hreserved : m ∉ [scratchMount, appDataMount component.name] := fun hmem =>
        hm (List.mem_map_of_mem (f := VolumeMount.name) hmem)
      rw [hmounts, List.mem_append, or_iff_right hreserved]
  | @build image _ h =>
    obtain ⟨carried, next, hcarried, -, hstrip, rfl⟩ := prepareUpdate_eq_ok h
    rw [buildModeWorkload_eq, copyForward_wantedAround hlive rfl] at hcarried
    cases hcarried
    obtain ⟨hvolumes, q, hq, hmounts⟩ := stripDevMode_eq_ok (hstrip _ rfl)
      (primary_eq_ok_iff.mpr (named_wantedAround rfl))
    have hnamed := primary_eq_ok_iff.mp hq
    refine ⟨q, primary_eq_ok_iff.mpr hnamed, fun v hv hv' => ?_, fun m hm => ?_⟩
    · have hmem : v ∈ next.volumes ↔ v ∈ carryOver Volume.name (reservedVolumes component.name) []
          current.volumes := by
        rw [hvolumes, List.mem_filter, volumes_wantedAround]
        exact and_iff_left (decide_eq_true hv')
      rw [← filter_carryOver_nil, List.mem_filter]
      exact hmem.trans (and_iff_left (decide_eq_true hv)).symm
    · rw [getD_withMounts] at hmounts
      have hmem : m ∈ q.volumeMounts.getD [] ↔ m ∈ carryOver VolumeMount.name
          (reservedVolumes component.name) [] (live.volumeMounts.getD []) := by
        rw [hmounts]
        split
        · rename_i hown
          rw [← hown, List.mem_filter]
          exact and_iff_left (decide_eq_true hm)
        · rfl
      rw [← filter_carryOver_nil, List.mem_filter]
      exact hmem.trans (and_iff_left (decide_eq_true hm)).symm

section

variable {component : ComponentMeta} {current written : DeploymentConfig} {live : Container}

/-- **Exactly which mounts are kept**: a switch keeps all volumes of the user, if they have distinct
names, and it keeps a mount of the user exactly if it is the first mount of its volume. -/
theorem switch_keeps_mounts_iff (hlive : current.primary component.name = .ok live)
    (hdistinct : (current.volumes.map (·.name)).Nodup)
    (h : SwitchWrites component current live written) :
    (∀ v ∈ current.volumes, v.name ∉ reservedVolumes component.name →
      v.name ∉ reservedVolumes current.name → v ∈ written.volumes) ∧
    ∃ p, written.primary component.name = .ok p ∧
      ∀ m ∈ live.volumeMounts.getD [], m.name ∉ reservedVolumes component.name →
        (m ∈ p.volumeMounts.getD [] ↔
          (live.volumeMounts.getD []).find? (fun m' => m'.name = m.name) = some m) := by
  obtain ⟨p, hp, hvolumes, hmounts⟩ := h.carried hlive
  refine ⟨fun v hv hfree hfree' => (hvolumes v hfree hfree').mpr ?_, p, hp, fun m _ hfree => ?_⟩
  · exact mem_firstNamed_iff.mpr ⟨hfree, find?_eq_some_of_nodup hdistinct hv⟩
  · rw [hmounts m hfree, mem_firstNamed_iff]
    exact and_iff_right hfree

end

/-! ## A mount that is not kept -/

/-- The primary container of the shop, which mounts its volume in two places. -/
def sharingContainer : Container where
  name := "web"
  image := some "web:1"
  volumeMounts := some [
    { name := "cache", mountPath := "/cache" },
    { name := "cache", mountPath := "/var/spool", subPath := some "spool" }]

/-- The shop with that container. -/
def sharingWorkload : DeploymentConfig where
  metadata := { name := some "web" }
  spec := { template := some { spec := some {
    containers := [sharingContainer]
    volumes := some [{ name := "cache", emptyDir := some {} }] } } }

theorem primary_sharingWorkload : sharingWorkload.primary "web" = .ok sharingContainer :=
  primary_eq_ok_iff.mpr (by decide)

/-- The switch of that shop to dev mode. -/
theorem exists_switchWrites_sharing : ∃ written p,
    SwitchWrites { name := "web" } sharingWorkload sharingContainer written ∧
      written.primary "web" = .ok p ∧ p.volumeMounts.getD [] =
        [scratchMount, appDataMount "web", { name := "cache", mountPath := "/cache" }] := by
  have hwanted : devModeWorkload { name := "web" } sharingWorkload sharingContainer shopBuilder
      "sup:1" = .ok _ := devModeWorkload_eq_ok_iff.mpr ⟨_, _, rfl, rfl, rfl⟩
  obtain ⟨dev, p, hdev, hpods, hmounts⟩ := podsOver_devMode primary_sharingWorkload hwanted
  exact ⟨dev, p, .dev hwanted hdev, hpods.primary_eq, hmounts.trans (by decide)⟩

theorem switch_keeps_mounts_iff_sharing :
    sharingWorkload.primary "web" = .ok sharingContainer ∧
    (sharingWorkload.volumes.map (·.name)).Nodup ∧
    ∃ written, SwitchWrites { name := "web" } sharingWorkload sharingContainer written ∧
      (∀ v ∈ sharingWorkload.volumes, v.name ∉ reservedVolumes "web" →
        v.name ∉ reservedVolumes sharingWorkload.name → v ∈ written.volumes) ∧
      ∃ p, written.primary "web" = .ok p ∧
        ∀ m ∈ sharingContainer.volumeMounts.getD [], m.name ∉ reservedVolumes "web" →
          (m ∈ p.volumeMounts.getD [] ↔
            (sharingContainer.volumeMounts.getD []).find? (fun m' => m'.name = m.name) = some m) := by
  obtain ⟨written, -, h, -, -⟩ := exists_switchWrites_sharing
  have hdistinct : (sharingWorkload.volumes.map (·.name)).Nodup := by decide
  exact ⟨primary_sharingWorkload, hdistinct, written, h,
    switch_keeps_mounts_iff primary_sharingWorkload hdistinct h⟩

/-- **A mount can be lost**: not every switch keeps all mounts of the user. -/
theorem switch_drops_second_mount :
    ¬ ∀ {component : ComponentMeta} {current written : DeploymentConfig} {live : Container},
      current.primary component.name = .ok live → (current.volumes.map (·.name)).Nodup →
      SwitchWrites component current live written →
      (∀ v ∈ current.volumes, v.name ∉ reservedVolumes component.name → v ∈ written.volumes) ∧
      ∃ p, written.primary component.name = .ok p ∧
        ∀ m ∈ live.volumeMounts.getD [], m.name ∉ reservedVolumes component.name →
          m ∈ p.volumeMounts.getD [] := by
  intro h
  obtain ⟨written, p, hwrites, hp, hmounts⟩ := exists_switchWrites_sharing
  obtain ⟨-, p', hp', hkept⟩ := h primary_sharingWorkload (by decide) hwrites
  cases hp.symm.trans hp'
  have hsecond := hkept { name := "cache", mountPath := "/var/spool", subPath := some "spool" }
    (by decide) (by decide)
  rw [hmounts] at hsecond
  revert hsecond
  decide

end InnerLoop
