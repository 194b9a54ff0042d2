import InnerLoop.Object.Workload
import InnerLoop.Object.Build
import InnerLoop.Proofs.Coding

/-!
# Objects are read back as they were written

Workloads, builds and build configs are read, changed and written again and again, so a field whose
two rules disagree would be lost without a word. Record by record, none is.

- `ObjectMeta.Fits`, `DeploymentConfig.Fits`, `Build.Fits` and so on: what a field can hold at all.
  A number is one of the width of its field; a value of any shape is not null, which would be
  absence, and has no member twice. Other fields can hold anything.
- The instances of `Coded`: each record is read back if the records in it are. What a record writes
  under the name of a field is computed, and is what the field's own code is about.
- `Faithful`: decoding undoes encoding, of every object that fits and of everything that is read.
- `decoding_undoes_encoding`: **so it does**, for all three kinds of objects.

A phase that is not known is read as `unknown` and written as that, so its own word is gone after
the first reading; from then on it stays.
-/

namespace InnerLoop

open Json

/-! ## Metadata -/

/-- The generation is a number of 64 bits. -/
def ObjectMeta.Fits (m : ObjectMeta) : Prop := ∀ n ∈ m.generation, IsInt64 n

instance : Coded ObjectMeta.encode ObjectMeta.decode ObjectMeta.Fits where
  read_write {m} h := by
    unfold ObjectMeta.Fits at h
    unfold ObjectMeta.encode ObjectMeta.decode
    rw [object?_bind]
    simp (disch := first | assumption | simp) [lastOf_orNull_toList]
  fits_of_read {j m} h := by
    -- The fields come in the order in which they are read; most of them can hold anything.
    simp only [ObjectMeta.decode, Option.bind_eq_bind, Option.bind_eq_some_iff] at h
    obtain ⟨ms, hms, _, -, _, -, _, -, _, -, _, -, _, -, generation, hgeneration, _, -, h⟩ := h
    cases h
    exact fits_of_optional ofInt (whole_of_object? hms) hgeneration
  write_ne_null _ := nofun

/-! ## Containers -/

instance : Coded FieldRef.encode FieldRef.decode fun _ => True where
  read_write _ := by
    unfold FieldRef.encode FieldRef.decode
    rw [object?_bind]
    simp (disch := simp) [lastOf_orNull_toList, lastOf_orNull_singleton]
  fits_of_read _ := trivial
  write_ne_null _ := nofun

instance : Coded SecretKeyRef.encode SecretKeyRef.decode fun _ => True where
  read_write _ := by
    unfold SecretKeyRef.encode SecretKeyRef.decode
    rw [object?_bind]
    simp (disch := simp) [lastOf_orNull_toList, lastOf_orNull_singleton]
  fits_of_read _ := trivial
  write_ne_null _ := nofun

instance : Coded EnvSource.encode EnvSource.decode fun _ => True where
  read_write _ := by
    unfold EnvSource.encode EnvSource.decode
    rw [object?_bind]
    simp (disch := simp) [lastOf_orNull_toList]
  fits_of_read _ := trivial
  write_ne_null _ := nofun

instance : Coded EnvVar.encode EnvVar.decode fun _ => True where
  read_write _ := by
    unfold EnvVar.encode EnvVar.decode
    rw [object?_bind]
    simp (disch := simp) [lastOf_orNull_toList, lastOf_orNull_singleton]
  fits_of_read _ := trivial
  write_ne_null _ := nofun

def ContainerPort.Fits (p : ContainerPort) : Prop := IsInt32 p.containerPort

instance : Coded ContainerPort.encode ContainerPort.decode ContainerPort.Fits where
  read_write {p} h := by
    unfold ContainerPort.Fits at h
    unfold ContainerPort.encode ContainerPort.decode
    rw [object?_bind]
    simp (disch := first | assumption | simp) [lastOf_orNull_toList, lastOf_orNull_singleton]
  fits_of_read {j p} h := by
    simp only [ContainerPort.decode, Option.bind_eq_bind, Option.bind_eq_some_iff] at h
    obtain ⟨ms, hms, port, hport, _, -, _, -, h⟩ := h
    cases h
    exact fits_of_defaulted ofInt (whole_of_object? hms) (by decide) hport
  write_ne_null _ := nofun

instance : Coded ResourceNeeds.encode ResourceNeeds.decode fun _ => True where
  read_write _ := by
    unfold ResourceNeeds.encode ResourceNeeds.decode
    rw [object?_bind]
    simp (disch := simp) [lastOf_orNull_toList]
  fits_of_read _ := trivial
  write_ne_null _ := nofun

instance : Coded VolumeMount.encode VolumeMount.decode fun _ => True where
  read_write _ := by
    unfold VolumeMount.encode VolumeMount.decode
    rw [object?_bind]
    simp (disch := simp) [lastOf_orNull_toList, lastOf_orNull_singleton]
  fits_of_read _ := trivial
  write_ne_null _ := nofun

def Container.Fits (c : Container) : Prop := ∀ ports ∈ c.ports, ∀ p ∈ ports, p.Fits

instance : Coded Container.encode Container.decode Container.Fits where
  read_write {c} h := by
    unfold Container.Fits at h
    unfold Container.encode Container.decode
    rw [object?_bind]
    simp (disch := first | assumption | simp) [lastOf_orNull_toList, lastOf_orNull_singleton]
  fits_of_read {j c} h := by
    obtain ⟨ms, hms, h⟩ := Option.bind_eq_some_iff.mp h
    obtain ⟨name, -, h⟩ := Option.bind_eq_some_iff.mp h
    obtain ⟨image, -, h⟩ := Option.bind_eq_some_iff.mp h
    obtain ⟨command, -, h⟩ := Option.bind_eq_some_iff.mp h
    obtain ⟨args, -, h⟩ := Option.bind_eq_some_iff.mp h
    obtain ⟨ports, hports, h⟩ := Option.bind_eq_some_iff.mp h
    -- What is read after the ports says nothing about them.
    simp only [Option.bind_eq_bind, Option.bind_eq_some_iff] at h
    obtain ⟨_, -, _, -, _, -, _, -, _, -, h⟩ := h
    cases h
    exact fits_of_optional (ofList ContainerPort.encode) (whole_of_object? hms) hports
  write_ne_null _ := nofun

/-! ## Volumes -/

instance : Coded EmptyDir.encode EmptyDir.decode fun _ => True where
  read_write _ := by
    unfold EmptyDir.encode EmptyDir.decode
    rw [object?_bind]
    simp (disch := simp) [lastOf_orNull_toList]
  fits_of_read _ := trivial
  write_ne_null _ := nofun

instance : Coded ClaimSource.encode ClaimSource.decode fun _ => True where
  read_write _ := by
    unfold ClaimSource.encode ClaimSource.decode
    rw [object?_bind]
    simp (disch := simp) [lastOf_orNull_toList, lastOf_orNull_singleton]
  fits_of_read _ := trivial
  write_ne_null _ := nofun

def KeyToPath.Fits (k : KeyToPath) : Prop := ∀ n ∈ k.mode, IsInt32 n

instance : Coded KeyToPath.encode KeyToPath.decode KeyToPath.Fits where
  read_write {k} h := by
    unfold KeyToPath.Fits at h
    unfold KeyToPath.encode KeyToPath.decode
    rw [object?_bind]
    simp (disch := first | assumption | simp) [lastOf_orNull_toList, lastOf_orNull_singleton]
  fits_of_read {j k} h := by
    simp only [KeyToPath.decode, Option.bind_eq_bind, Option.bind_eq_some_iff] at h
    obtain ⟨ms, hms, _, -, _, -, mode, hmode, h⟩ := h
    cases h
    exact fits_of_optional ofInt (whole_of_object? hms) hmode
  write_ne_null _ := nofun

def ConfigMapSource.Fits (c : ConfigMapSource) : Prop := ∀ items ∈ c.items, ∀ k ∈ items, k.Fits

instance : Coded ConfigMapSource.encode ConfigMapSource.decode ConfigMapSource.Fits where
  read_write {c} h := by
    unfold ConfigMapSource.Fits at h
    unfold ConfigMapSource.encode ConfigMapSource.decode
    rw [object?_bind]
    simp (disch := first | assumption | simp) [lastOf_orNull_toList, lastOf_orNull_singleton]
  fits_of_read {j c} h := by
    simp only [ConfigMapSource.decode, Option.bind_eq_bind, Option.bind_eq_some_iff] at h
    obtain ⟨ms, hms, _, -, items, hitems, h⟩ := h
    cases h
    exact fits_of_optional (ofList KeyToPath.encode) (whole_of_object? hms) hitems
  write_ne_null _ := nofun

def Volume.Fits (v : Volume) : Prop := ∀ c ∈ v.configMap, c.Fits

instance : Coded Volume.encode Volume.decode Volume.Fits where
  read_write {v} h := by
    unfold Volume.Fits at h
    unfold Volume.encode Volume.decode
    rw [object?_bind]
    simp (disch := first | assumption | simp) [lastOf_orNull_toList, lastOf_orNull_singleton]
  fits_of_read {j v} h := by
    simp only [Volume.decode, Option.bind_eq_bind, Option.bind_eq_some_iff] at h
    obtain ⟨ms, hms, _, -, _, -, _, -, configMap, hconfigMap, h⟩ := h
    cases h
    exact fits_of_optional ConfigMapSource.encode (whole_of_object? hms) hconfigMap
  write_ne_null _ := nofun

/-! ## Pods -/

structure PodSpec.Fits (s : PodSpec) : Prop where
  containers : ∀ c ∈ s.containers, c.Fits
  initContainers : ∀ l ∈ s.initContainers, ∀ c ∈ l, c.Fits
  volumes : ∀ l ∈ s.volumes, ∀ v ∈ l, v.Fits
  terminationGracePeriodSeconds : ∀ n ∈ s.terminationGracePeriodSeconds, IsInt64 n

instance : Coded PodSpec.encode PodSpec.decode PodSpec.Fits where
  read_write {s} h := by
    obtain ⟨hcontainers, hinits, hvolumes, hgrace⟩ := h
    unfold PodSpec.encode PodSpec.decode
    rw [object?_bind]
    simp (disch := first | assumption | simp) [lastOf_orNull_toList, lastOf_orNull_singleton]
  fits_of_read {j s} h := by
    simp only [PodSpec.decode, Option.bind_eq_bind, Option.bind_eq_some_iff] at h
    obtain ⟨ms, hms, containers, hcontainers, inits, hinits, volumes, hvolumes, _, -, _, -, grace,
      hgrace, h⟩ := h
    cases h
    have hwhole := whole_of_object? hms
    exact {
      containers := fits_of_defaulted (ofList Container.encode) hwhole (List.forall_mem_nil _)
        hcontainers
      initContainers := fits_of_optional (ofList Container.encode) hwhole hinits
      volumes := fits_of_optional (ofList Volume.encode) hwhole hvolumes
      terminationGracePeriodSeconds := fits_of_optional ofInt hwhole hgrace }
  write_ne_null _ := nofun

structure PodTemplate.Fits (t : PodTemplate) : Prop where
  metadata : ∀ m ∈ t.metadata, m.Fits
  spec : ∀ s ∈ t.spec, s.Fits

instance : Coded PodTemplate.encode PodTemplate.decode PodTemplate.Fits where
  read_write {t} h := by
    obtain ⟨hmetadata, hspec⟩ := h
    unfold PodTemplate.encode PodTemplate.decode
    rw [object?_bind]
    simp (disch := first | assumption | simp) [lastOf_orNull_toList]
  fits_of_read {j t} h := by
    simp only [PodTemplate.decode, Option.bind_eq_bind, Option.bind_eq_some_iff] at h
    obtain ⟨ms, hms, metadata, hmetadata, spec, hspec, h⟩ := h
    cases h
    have hwhole := whole_of_object? hms
    exact ⟨fits_of_optional ObjectMeta.encode hwhole hmetadata,
      fits_of_optional PodSpec.encode hwhole hspec⟩
  write_ne_null _ := nofun

/-! ## Workloads -/

instance : Coded ObjectReference.encode ObjectReference.decode fun _ => True where
  read_write _ := by
    unfold ObjectReference.encode ObjectReference.decode
    rw [object?_bind]
    simp (disch := simp) [lastOf_orNull_toList]
  fits_of_read _ := trivial
  write_ne_null _ := nofun

/-- An empty list of containers is left out, and stands for what is missing. -/
instance : Coded ImageTrigger.encode ImageTrigger.decode fun _ => True where
  read_write {t} _ := by
    obtain ⟨automatic, containerNames, source⟩ := t
    unfold ImageTrigger.encode ImageTrigger.decode
    cases containerNames with
    | nil =>
      rw [shaped_bind _ (by simp)]
      simp (disch := simp) [lastOf_singleton]
    | cons c r =>
      rw [shaped_bind _ (by simp)]
      simp (disch := simp) [lastOf_singleton]
  fits_of_read _ := trivial
  write_ne_null _ := nofun

instance : Coded Trigger.encode Trigger.decode fun _ => True where
  read_write _ := by
    unfold Trigger.encode Trigger.decode
    rw [shaped_bind _ (by simp)]
    simp (disch := simp) [lastOf_orNull_toList, lastOf_singleton]
  fits_of_read _ := trivial
  write_ne_null _ := nofun

instance : Coded Strategy.encode Strategy.decode fun _ => True where
  read_write _ := by
    unfold Strategy.encode Strategy.decode
    rw [shaped_bind _ (by simp)]
    simp (disch := simp) [lastOf_orNull_toList]
  fits_of_read _ := trivial
  write_ne_null _ := nofun

structure DeploymentSpec.Fits (s : DeploymentSpec) : Prop where
  replicas : ∀ n ∈ s.replicas, IsInt32 n
  template : ∀ t ∈ s.template, t.Fits

instance : Coded DeploymentSpec.encode DeploymentSpec.decode DeploymentSpec.Fits where
  read_write {s} h := by
    obtain ⟨hreplicas, htemplate⟩ := h
    unfold DeploymentSpec.encode DeploymentSpec.decode
    rw [shaped_bind _ (by simp)]
    simp (disch := first | assumption | simp) [lastOf_orNull_toList]
  fits_of_read {j s} h := by
    simp only [DeploymentSpec.decode, Option.bind_eq_bind, Option.bind_eq_some_iff] at h
    obtain ⟨ms, hms, replicas, hreplicas, _, -, template, htemplate, _, -, _, -, h⟩ := h
    cases h
    have hwhole := whole_of_shaped hms
    exact ⟨fits_of_optional ofInt hwhole hreplicas,
      fits_of_optional PodTemplate.encode hwhole htemplate⟩
  write_ne_null _ := nofun

structure DeploymentStatus.Fits (s : DeploymentStatus) : Prop where
  latestVersion : ∀ n ∈ s.latestVersion, IsInt64 n
  observedGeneration : ∀ n ∈ s.observedGeneration, IsInt64 n
  replicas : ∀ n ∈ s.replicas, IsInt32 n
  availableReplicas : ∀ n ∈ s.availableReplicas, IsInt32 n

instance : Coded DeploymentStatus.encode DeploymentStatus.decode DeploymentStatus.Fits where
  read_write {s} h := by
    obtain ⟨hlatest, hobserved, hreplicas, havailable⟩ := h
    unfold DeploymentStatus.encode DeploymentStatus.decode
    rw [shaped_bind _ (by simp)]
    simp (disch := first | assumption | simp) [lastOf_orNull_toList]
  fits_of_read {j s} h := by
    simp only [DeploymentStatus.decode, Option.bind_eq_bind, Option.bind_eq_some_iff] at h
    obtain ⟨ms, hms, latest, hlatest, observed, hobserved, replicas, hreplicas, available,
      havailable, h⟩ := h
    cases h
    have hwhole := whole_of_shaped hms
    exact {
      latestVersion := fits_of_optional ofInt hwhole hlatest
      observedGeneration := fits_of_optional ofInt hwhole hobserved
      replicas := fits_of_optional ofInt hwhole hreplicas
      availableReplicas := fits_of_optional ofInt hwhole havailable }
  write_ne_null _ := nofun

/-- Every number of a workload has the width of its field. -/
structure DeploymentConfig.Fits (d : DeploymentConfig) : Prop where
  metadata : d.metadata.Fits
  spec : d.spec.Fits
  status : ∀ s ∈ d.status, s.Fits

instance : Coded DeploymentConfig.encode DeploymentConfig.decode DeploymentConfig.Fits where
  read_write {d} h := by
    obtain ⟨hmetadata, hspec, hstatus⟩ := h
    unfold DeploymentConfig.encode DeploymentConfig.decode Resource.header
    rw [shaped_bind _ (by simp)]
    simp (disch := first | assumption | simp) [lastOf_orNull_toList, lastOf_singleton]
  fits_of_read {j d} h := by
    simp only [DeploymentConfig.decode, Option.bind_eq_bind, Option.bind_eq_some_iff] at h
    obtain ⟨ms, hms, metadata, hmetadata, spec, hspec, status, hstatus, h⟩ := h
    cases h
    have hwhole := whole_of_shaped hms
    exact {
      metadata := fits_of_required ObjectMeta.encode hwhole hmetadata
      spec := fits_of_required DeploymentSpec.encode hwhole hspec
      status := fits_of_optional DeploymentStatus.encode hwhole hstatus }
  write_ne_null _ := nofun

/-! ## Builds -/

/-- What is kept of a build as it is can be kept. -/
structure BuildSpec.Fits (s : BuildSpec) : Prop where
  source : ∀ j ∈ s.source, j.Preserved
  strategy : ∀ j ∈ s.strategy, j.Preserved

instance : Coded BuildSpec.encode BuildSpec.decode BuildSpec.Fits where
  read_write {s} h := by
    obtain ⟨hsource, hstrategy⟩ := h
    unfold BuildSpec.encode BuildSpec.decode
    rw [shaped_bind _ (by simp)]
    simp (disch := first | assumption | simp) [lastOf_orNull_asJson]
  fits_of_read {j s} h := by
    simp only [BuildSpec.decode, Option.bind_eq_bind, Option.bind_eq_some_iff] at h
    obtain ⟨ms, hms, source, hsource, strategy, hstrategy, h⟩ := h
    cases h
    have hwhole := whole_of_shaped hms
    exact ⟨preserved_of_optional hwhole hsource, preserved_of_optional hwhole hstrategy⟩
  write_ne_null _ := nofun

/-- A phase is read back as it is, `unknown` too. -/
theorem lastOf_phase (p : BuildPhase) :
    lastOf BuildPhase.decode [.text p.render] = some (some p) := by
  cases p <;> rfl

instance : Coded BuildStatus.encode BuildStatus.decode fun _ => True where
  read_write _ := by
    unfold BuildStatus.encode BuildStatus.decode
    rw [shaped_bind _ (by simp)]
    simp (disch := simp) [lastOf_orNull_toList, lastOf_phase]
  fits_of_read _ := trivial
  write_ne_null _ := nofun

structure Build.Fits (b : Build) : Prop where
  metadata : b.metadata.Fits
  spec : b.spec.Fits

instance : Coded Build.encode Build.decode Build.Fits where
  read_write {b} h := by
    obtain ⟨hmetadata, hspec⟩ := h
    unfold Build.encode Build.decode Resource.header
    rw [shaped_bind _ (by simp)]
    simp (disch := first | assumption | simp) [lastOf_orNull_toList, lastOf_singleton]
  fits_of_read {j b} h := by
    simp only [Build.decode, Option.bind_eq_bind, Option.bind_eq_some_iff] at h
    obtain ⟨ms, hms, metadata, hmetadata, spec, hspec, _, -, h⟩ := h
    cases h
    have hwhole := whole_of_shaped hms
    exact ⟨fits_of_required ObjectMeta.encode hwhole hmetadata,
      fits_of_required BuildSpec.encode hwhole hspec⟩
  write_ne_null _ := nofun

/-! ## Build configs -/

/-- What is kept of a build config as it is can be kept. -/
structure BuildConfigSpec.Fits (s : BuildConfigSpec) : Prop where
  source : ∀ j ∈ s.source, j.Preserved
  strategy : ∀ j ∈ s.strategy, j.Preserved
  output : ∀ j ∈ s.output, j.Preserved

instance : Coded BuildConfigSpec.encode BuildConfigSpec.decode BuildConfigSpec.Fits where
  read_write {s} h := by
    obtain ⟨hsource, hstrategy, houtput⟩ := h
    unfold BuildConfigSpec.encode BuildConfigSpec.decode
    rw [shaped_bind _ (by simp)]
    simp (disch := first | assumption | simp) [lastOf_orNull_asJson]
  fits_of_read {j s} h := by
    simp only [BuildConfigSpec.decode, Option.bind_eq_bind, Option.bind_eq_some_iff] at h
    obtain ⟨ms, hms, source, hsource, strategy, hstrategy, output, houtput, h⟩ := h
    cases h
    have hwhole := whole_of_shaped hms
    exact ⟨preserved_of_optional hwhole hsource, preserved_of_optional hwhole hstrategy,
      preserved_of_optional hwhole houtput⟩
  write_ne_null _ := nofun

def BuildConfigStatus.Fits (s : BuildConfigStatus) : Prop := IsInt64 s.lastVersion

instance : Coded BuildConfigStatus.encode BuildConfigStatus.decode BuildConfigStatus.Fits where
  read_write {s} h := by
    unfold BuildConfigStatus.Fits at h
    unfold BuildConfigStatus.encode BuildConfigStatus.decode
    rw [shaped_bind _ (by simp)]
    simp (disch := first | assumption | simp) [lastOf_singleton]
  fits_of_read {j s} h := by
    simp only [BuildConfigStatus.decode, Option.bind_eq_bind, Option.bind_eq_some_iff] at h
    obtain ⟨ms, hms, lastVersion, hlastVersion, h⟩ := h
    cases h
    exact fits_of_present ofInt (whole_of_shaped hms) (by decide) hlastVersion
  write_ne_null _ := nofun

structure BuildConfig.Fits (b : BuildConfig) : Prop where
  metadata : b.metadata.Fits
  spec : b.spec.Fits
  status : ∀ s ∈ b.status, s.Fits

instance : Coded BuildConfig.encode BuildConfig.decode BuildConfig.Fits where
  read_write {b} h := by
    obtain ⟨hmetadata, hspec, hstatus⟩ := h
    unfold BuildConfig.encode BuildConfig.decode Resource.header
    rw [shaped_bind _ (by simp)]
    simp (disch := first | assumption | simp) [lastOf_orNull_toList, lastOf_singleton]
  fits_of_read {j b} h := by
    simp only [BuildConfig.decode, Option.bind_eq_bind, Option.bind_eq_some_iff] at h
    obtain ⟨ms, hms, metadata, hmetadata, spec, hspec, status, hstatus, h⟩ := h
    cases h
    have hwhole := whole_of_shaped hms
    exact {
      metadata := fits_of_required ObjectMeta.encode hwhole hmetadata
      spec := fits_of_required BuildConfigSpec.encode hwhole hspec
      status := fits_of_optional BuildConfigStatus.encode hwhole hstatus }
  write_ne_null _ := nofun

/-! ## The objects -/

/-- Decoding undoes encoding, of every object that fits and of everything that is read. -/
structure Faithful {α : Type} (encode : α → Json) (decode : Decoder α) (fits : α → Prop) :
    Prop where
  decode_encode : ∀ a, fits a → (encode a).as? decode = some a
  /-- What is read of any value is written so that the same is read again, and written again. -/
  decode_again : ∀ (j : Json) (a : α), j.as? decode = some a →
    (encode a).as? decode = some a ∧ ((encode a).as? decode).map encode = some (encode a)

theorem faithful {α : Type} {encode : α → Json} {decode : Decoder α} {fits : α → Prop}
    [Coded encode decode fits] : Faithful encode decode fits where
  decode_encode _ h := Coded.read_write h
  decode_again j a h := by
    have hfits : fits a := Coded.fits_of_read encode h
    have hread : (encode a).as? decode = some a := Coded.read_write hfits
    rw [hread]
    exact ⟨rfl, rfl⟩

/-- **Decoding undoes encoding**, for workloads, builds and build configs. -/
theorem decoding_undoes_encoding :
    Faithful DeploymentConfig.encode DeploymentConfig.decode DeploymentConfig.Fits ∧
      Faithful Build.encode Build.decode Build.Fits ∧
      Faithful BuildConfig.encode BuildConfig.decode BuildConfig.Fits :=
  ⟨faithful, faithful, faithful⟩

/-- A workload with what is easily lost: an empty map and an empty list, a trigger that names no
container, numbers at the ends of their ranges. -/
def delicateWorkload : DeploymentConfig where
  metadata := { name := some "web", labels := some .empty, generation := some (Int.pow 2 63 - 1) }
  spec := {
    replicas := some (-Int.pow 2 31)
    selector := some (.singleton "app" "shop")
    template := some { spec := some {
      containers := [{
        name := "web"
        args := some []
        ports := some [{ containerPort := 8080, name := some "http" }]
        resources := some { limits := some (.singleton "memory" "64Mi") } }]
      volumes := some [] } }
    triggers := some [{ on := "ImageChange", imageChange := some { automatic := true } }]
    strategy := some {} }
  status := some { observedGeneration := some 2 }

/-- A build in a phase that is not known, with a source of a shape of its own. -/
def pausedBuild : Json := .record [
  ("metadata", .record [("name", .text "web-1")]),
  ("spec", .record [("source", .record [("type", .text "Binary"), ("asFile", .null)])]),
  ("status", .record [("phase", .text "Paused")])]

theorem fits_delicateWorkload : delicateWorkload.Fits where
  metadata := by
    intro n hn
    cases hn
    decide
  spec := by
    refine ⟨fun n hn => ?_, fun t ht => ⟨fun m hm => ?_, fun s hs => ?_⟩⟩
    · cases hn
      decide
    · cases ht
      cases hm
    · cases ht
      cases hs
      refine ⟨fun c hc => ?_, nofun, fun l hl => ?_, nofun⟩
      · cases List.mem_singleton.mp hc
        intro ports hports p hp
        cases hports
        cases List.mem_singleton.mp hp
        show IsInt32 8080
        decide
      · cases hl
        exact List.forall_mem_nil _
  status := by
    intro s hs
    cases hs
    refine ⟨nofun, fun n hn => ?_, nofun, nofun⟩
    cases hn
    decide

/-- That workload comes back as it was, and the build in its phase, which is then called unknown. -/
theorem decoding_undoes_encoding_delicate :
    delicateWorkload.encode.as? DeploymentConfig.decode = some delicateWorkload ∧
      ∃ b : Build, pausedBuild.as? Build.decode = some b ∧ b.phase = .unknown ∧
        b.encode.as? Build.decode = some b ∧
        (b.encode.get "status").get "phase" = .text "Unknown" := by
  obtain ⟨hworkloads, hbuilds, -⟩ := decoding_undoes_encoding
  have hread : pausedBuild.as? Build.decode = some {
      metadata := { name := some "web-1" }
      spec := { source := some (.record [("type", .text "Binary"), ("asFile", .null)]) }
      status := some { phase := .unknown } } := rfl
  exact ⟨hworkloads.decode_encode _ fits_delicateWorkload, _, hread, rfl,
    (hbuilds.decode_again _ _ hread).1, rfl⟩

end InnerLoop
