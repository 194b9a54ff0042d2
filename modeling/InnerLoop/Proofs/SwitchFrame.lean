import InnerLoop.Proofs.InPlace

/-!
# What a mode switch leaves alone

The wanted workload is built anew and put over the live one, so what is to stay has to be carried
through every step. Here is all that stays, of every workload and for both modes.

- `firstNamed_eq_eraseDupsBy`: what is carried over is the list without later items of one name.
- `SwitchWrites.shape`: the object that either switch writes, in one shape.
- `KeepsRest`: a workload is another one but for what a mode is about.
- `switch_keeps_rest`: **a switch changes nothing else**.

What a mode is about is left open here: labels and annotations, the primary container, the reserved
volumes and init containers, the triggers and the rollout strategy.
-/

namespace InnerLoop

open DeploymentConfig

/-! ## Lists -/

/-- The first items of names that were not seen are the items of such names, each but once. -/
theorem firstNamed_eq_eraseDupsBy {α : Type} (nameOf : α → String) (seen : List String)
    (l : List α) : firstNamed nameOf seen l =
      (l.filter fun x => nameOf x ∉ seen).eraseDupsBy fun x y => nameOf x == nameOf y := by
  induction l generalizing seen with
  | nil => rfl
  | cons x r ih =>
    unfold firstNamed
    by_cases hx : nameOf x ∈ seen
    · rw [if_pos hx, ih, List.filter_cons_of_neg (by simpa using hx)]
    · rw [if_neg hx, ih, List.filter_cons_of_pos (by simpa using hx), List.eraseDupsBy_cons,
        List.filter_filter]
      -- Later items of the name are passed over as seen on one side, and taken out on the other.
      refine congrArg (x :: List.eraseDupsBy _ ·) (List.filter_congr fun y _ => ?_)
      simp [not_or]

/-- What is carried over holds no reserved name. -/
theorem filter_free_firstNamed {α : Type} (nameOf : α → String) (names : List String)
    (l : List α) :
    (firstNamed nameOf names l).filter (fun x => nameOf x ∉ names) = firstNamed nameOf names l :=
  List.filter_eq_self.mpr fun _ hx => decide_eq_true (mem_of_mem_firstNamed hx).2

/-! ## What is written -/

section

variable {component : ComponentMeta} {current written : DeploymentConfig} {live : Container}

/-- Either switch writes a workload in one shape over the live one: around a primary container, with
the user's init containers and volumes beside those that are reserved. -/
theorem SwitchWrites.shape (h : SwitchWrites component current live written)
    (hname : current.name = component.name) (hlive : current.primary component.name = .ok live) :
    ∃ p inits volumes strategy triggers, p.name = component.name ∧
      inits.filter (fun c => c.name ∉ bootstrapContainers) = userInits current ∧
      volumes.filter (fun v => v.name ∉ reservedVolumes component.name) =
        firstNamed Volume.name (reservedVolumes component.name) current.volumes ∧
      written = current.overwrite
        (wantedAround component current p inits volumes strategy triggers) := by
  cases h with
  | dev hwanted h =>
    obtain ⟨bootstrap, ports, -, -, hupdate⟩ := prepareUpdate_devMode hlive hwanted
    cases h.symm.trans hupdate
    refine ⟨_, _, _, _, _, rfl, filter_devModeInits, ?_, rfl⟩
    have hfront : (devModeVolumes component.name).filter
        (fun v => v.name ∉ reservedVolumes component.name) = [] := by
      refine List.filter_eq_nil_iff.mpr fun v hv => ?_
      have hreserved : v.name ∈ reservedVolumes component.name :=
        List.mem_map_of_mem (f := Volume.name) hv
      simpa using hreserved
    rw [List.filter_append, hfront, filter_free_firstNamed, List.nil_append]
  | @build image _ h =>
    obtain ⟨hcheck, -⟩ := podsOver_of_buildMode hname hlive h
    cases h.symm.trans (prepareUpdate_buildMode hname hlive hcheck)
    refine ⟨_, _, _, _, _, rfl, ?_, filter_free_firstNamed _ _ _, rfl⟩
    exact List.filter_eq_self.mpr fun c hc => (List.mem_filter.mp hc).2

/-- The labels that a workload gives its pods. -/
def DeploymentConfig.templateMarks (d : DeploymentConfig) : TextMap :=
  ((d.spec.template.bind (·.metadata)).bind (·.labels)).getD .empty

/-- A workload is the live one but for what a mode is about. -/
structure KeepsRest (name : String) (current written : DeploymentConfig) : Prop where
  /-- All metadata but labels and annotations. -/
  metadata : { written.metadata with
    labels := current.metadata.labels
    annotations := current.metadata.annotations } = current.metadata
  status : written.status = current.status
  replicas : written.spec.replicas = some (current.spec.replicas.getD 1)
  selector : written.spec.selector =
    some (current.spec.selector.getD (.singleton "deploymentconfig" name))
  /-- The pods are selected. -/
  selected : ∀ key value, (written.spec.selector.getD .empty).find? key = some value →
    written.templateMarks.find? key = some value
  primary : (written.containers.filter fun c => c.name = name).length = 1
  sidecars : (written.containers.filter fun c => c.name ≠ name) =
    current.containers.filter fun c => c.name ≠ name
  inits : (written.initContainers.filter fun c => c.name ∉ bootstrapContainers) =
    current.initContainers.filter fun c => c.name ∉ bootstrapContainers
  /-- Of the user's volumes, the first of every name. -/
  volumes : (written.volumes.filter fun v => v.name ∉ reservedVolumes name) =
    (current.volumes.filter fun v => v.name ∉ reservedVolumes name).eraseDupsBy
      fun v w => v.name == w.name
  /-- All other fields of the pod specification, whatever they are. -/
  frame : written.podFrame = current.podFrame

/-- The pods of a wanted workload bear all labels that its selector asks for. -/
theorem find?_templateLabels {component : ComponentMeta} {selector : TextMap} {key value : String}
    (h : selector.find? key = some value) :
    (templateLabels component selector).find? key = some value := by
  unfold templateLabels
  rw [SortedMap.find?_union, h]
  rfl

/-- **A switch changes nothing else**: whatever it writes for a live workload that has one container
of its name is that workload, but for what the mode is about. -/
theorem switch_keeps_rest (hname : current.name = component.name)
    (hlive : current.primary component.name = .ok live)
    (h : SwitchWrites component current live written) :
    KeepsRest component.name current written := by
  obtain ⟨p, inits, volumes, strategy, triggers, hp, hinits, hvolumes, rfl⟩ :=
    h.shape hname hlive
  have hpods : PodsOver component.name (current.overwrite
      (wantedAround component current p inits volumes strategy triggers)) current p inits volumes :=
    podsOver_overwrite hp
  have hnamed := primary_eq_ok_iff.mp hpods.primary_eq
  refine { metadata := rfl, status := rfl, replicas := ?_, selector := rfl, selected := ?_,
           primary := ?_, sidecars := hpods.sidecars_eq, inits := ?_, volumes := ?_,
           frame := hpods.frame_eq }
  · show current.spec.replicas.or (some 1) = _
    cases current.spec.replicas <;> rfl
  · intro key value hkey
    exact find?_templateLabels hkey
  · rw [named_eq_filter] at hnamed
    exact congrArg List.length hnamed
  · rw [hpods.inits_eq]
    exact hinits
  · rw [hpods.volumes_eq, hvolumes, firstNamed_eq_eraseDupsBy]

end

/-- The container of a workload in dev mode. -/
def busyContainer : Container where
  name := "web"
  volumeMounts := some [scratchMount, appDataMount "web"]

/-- A workload in dev mode, with a sidecar and an init container of the user's own, two volumes of
one name, and settings for its pods. -/
def busyWorkload : DeploymentConfig where
  metadata := { name := some "web", uid := some "7f3a", resourceVersion := some "41" }
  spec := {
    replicas := some 3
    template := some { spec := some {
      containers := [{ name := "proxy" }, busyContainer]
      initContainers := some [{ name := copySupervisor }, { name := "migrate" }]
      volumes := some (devModeVolumes "web" ++
        [{ name := "cache" }, { name := "cache", emptyDir := some {} }, { name := "logs" }])
      serviceAccountName := some "shop" } } }
  status := some { observedGeneration := some 2 }

/-- Both switches of that workload. -/
theorem switch_keeps_rest_busy :
    (∃ wanted written, devModeWorkload { name := "web" } busyWorkload busyContainer shopBuilder
        "sup:1" = .ok wanted ∧
      prepareUpdate "web" busyWorkload wanted none = .ok written ∧
      KeepsRest "web" busyWorkload written) ∧
    ∃ written, prepareUpdate "web" busyWorkload
        (buildModeWorkload { name := "web" } busyWorkload busyContainer shopImage)
        (some stripDevMode) = .ok written ∧
      KeepsRest "web" busyWorkload written := by
  have hlive : busyWorkload.primary "web" = .ok busyContainer := primary_eq_ok_iff.mpr (by decide)
  constructor
  · have hwanted : devModeWorkload { name := "web" } busyWorkload busyContainer shopBuilder
        "sup:1" = .ok _ := devModeWorkload_eq_ok_iff.mpr ⟨_, _, rfl, rfl, rfl⟩
    obtain ⟨written, -, hwritten, -⟩ := podsOver_devMode hlive hwanted
    exact ⟨_, written, hwanted, hwritten, switch_keeps_rest rfl hlive (.dev hwanted hwritten)⟩
  · have hcheck : checkDevMode busyWorkload = .ok () := checkDevMode_of_front hlive rfl rfl
    have hwritten := @prepareUpdate_buildMode { name := "web" } _ _ shopImage rfl hlive hcheck
    exact ⟨_, hwritten, switch_keeps_rest rfl hlive (.build hwritten)⟩

end InnerLoop
